import Mathlib.Data.List.Basic

/-!
# Steps that may fail

A computation whose steps may fail gives a result exactly if each of its steps does. These lemmas
take such a computation apart, so that no proof about one has to split its steps into results and
errors. Where it is known of each step under which condition it succeeds, and all have the same
error, the same is known of the whole (`Guarded`).
-/

namespace UrlScan

variable {ε ε' α β : Type}

/-- What two steps yield together, the second one yields for what the first one yields. -/
theorem ok_of_bind {first : Except ε α} {second : α → Except ε β} {result : β}
    (both : first >>= second = .ok result) : ∃ a, first = .ok a ∧ second a = .ok result := by
  cases first with
  | error e => cases both
  | ok a => exact ⟨a, rfl, both⟩

theorem bind_eq_ok_iff {first : Except ε α} {second : α → Except ε β} {result : β} :
    first >>= second = .ok result ↔ ∃ a, first = .ok a ∧ second a = .ok result := by
  refine ⟨ok_of_bind, ?_⟩
  rintro ⟨a, rfl, found⟩
  exact found

theorem bind_eq_error_iff {first : Except ε α} {second : α → Except ε β} {e : ε} :
    first >>= second = .error e ↔
      first = .error e ∨ ∃ a, first = .ok a ∧ second a = .error e := by
  cases first with
  | error other =>
    constructor
    · intro same
      cases same
      exact .inl rfl
    · rintro (same | ⟨a, impossible, -⟩)
      · cases same
        rfl
      · cases impossible
  | ok a =>
    constructor
    · exact fun failed => .inr ⟨a, rfl, failed⟩
    · rintro (impossible | ⟨b, same, failed⟩)
      · cases impossible
      · cases same
        exact failed

theorem mapError_eq_ok_iff {step : Except ε α} {f : ε → ε'} {result : α} :
    step.mapError f = .ok result ↔ step = .ok result := by
  cases step <;> simp [Except.mapError]

theorem mapError_eq_error_iff {step : Except ε α} {f : ε → ε'} {e : ε'} :
    step.mapError f = .error e ↔ ∃ cause, step = .error cause ∧ e = f cause := by
  cases step <;> simp [Except.mapError, eq_comm]

/-! ## Steps over a list -/

/-- Going through a list reaches an item with some property, behind items that all pass. -/
def Reaches (passes stops : α → Prop) (items : List α) : Prop :=
  ∃ before item after, items = before ++ item :: after ∧ (∀ other ∈ before, passes other) ∧
    stops item

section
variable {passes stops : α → Prop} {item : α} {items : List α}

theorem not_reaches_nil : ¬Reaches passes stops [] := by
  rintro ⟨before, item, after, none, -⟩
  cases before <;> cases none

theorem reaches_cons :
    Reaches passes stops (item :: items) ↔
      stops item ∨ passes item ∧ Reaches passes stops items := by
  constructor
  · rintro ⟨before, reached, after, whole, pass, stop⟩
    cases before with
    | nil =>
      cases whole
      exact .inl stop
    | cons first before =>
      cases whole
      rw [List.forall_mem_cons] at pass
      exact .inr ⟨pass.1, before, reached, after, rfl, pass.2, stop⟩
  · rintro (stop | ⟨pass, before, reached, after, rfl, others, stop⟩)
    · exact ⟨[], item, items, rfl, List.forall_mem_nil _, stop⟩
    · exact ⟨item :: before, reached, after, rfl, List.forall_mem_cons.mpr ⟨pass, others⟩, stop⟩

theorem Reaches.exists_mem (reaches : Reaches passes stops items) : ∃ item ∈ items, stops item := by
  obtain ⟨before, item, after, rfl, -, stop⟩ := reaches
  exact ⟨item, List.mem_append_right _ List.mem_cons_self, stop⟩

/-- Where every item passes or has the property, it is reached as soon as some item has it. -/
theorem reaches_iff_exists_mem (either : ∀ item, passes item ∨ stops item) :
    Reaches passes stops items ↔ ∃ item ∈ items, stops item := by
  refine ⟨Reaches.exists_mem, ?_⟩
  induction items with
  | nil =>
    rintro ⟨item, member, -⟩
    cases member
  | cons first rest ih =>
    rw [List.exists_mem_cons_iff, reaches_cons]
    rintro (stop | later)
    · exact .inl stop
    · exact (either first).symm.imp_right fun pass => ⟨pass, ih later⟩

end

/-- A list of steps has the first error that one of its steps has. -/
theorem mapM_eq_error_iff {step : α → Except ε β} {items : List α} {e : ε} :
    items.mapM step = .error e ↔
      Reaches (fun item => ∃ b, step item = .ok b) (fun item => step item = .error e) items := by
  induction items with
  | nil => exact iff_of_false (fun failed => by cases failed) not_reaches_nil
  | cons item items ih =>
    rw [List.mapM_cons, bind_eq_error_iff, reaches_cons, ← ih, ← exists_and_right]
    refine or_congr_right (exists_congr fun b => and_congr_right fun _ => ?_)
    rw [bind_eq_error_iff]
    refine or_iff_left ?_
    rintro ⟨others, -, failed⟩
    cases failed

/-! ## Steps under a condition -/

/-- A step yields a result under a condition, and ends with an error where it does not hold. -/
structure Guarded (step : Except ε α) (condition : Prop) (a : α) (e : ε) : Prop where
  ok : condition → step = .ok a
  error : ¬condition → step = .error e

section
variable {step first : Except ε α} {second : α → Except ε β} {p q : Prop} {a : α} {b : β} {e : ε}

theorem guarded_ok (a : α) (e : ε) : Guarded (.ok a) True a e :=
  ⟨fun _ => rfl, fun impossible => absurd trivial impossible⟩

theorem Guarded.of_iff (guarded : Guarded step p a e) (same : p ↔ q) : Guarded step q a e :=
  ⟨fun holds => guarded.ok (same.mpr holds), fun fails => guarded.error (mt same.mp fails)⟩

/-- Of two steps with the same error, the second one is under the condition of the first one,
too. -/
theorem Guarded.bind (guarded : Guarded first p a e) (then' : Guarded (second a) q b e) :
    Guarded (first >>= second) (p ∧ q) b e := by
  refine ⟨fun both => ?_, fun fails => ?_⟩
  · rw [guarded.ok both.1]
    exact then'.ok both.2
  · by_cases holds : p
    · rw [guarded.ok holds]
      exact then'.error fun also => fails ⟨holds, also⟩
    · rw [guarded.error holds]
      rfl

theorem Guarded.map (guarded : Guarded first p a e) (f : α → β) :
    Guarded (first >>= fun a => .ok (f a)) p (f a) e :=
  (guarded.bind (guarded_ok (f a) e)).of_iff (and_iff_left trivial)

theorem Guarded.mapError (guarded : Guarded step p a e) (f : ε → ε') :
    Guarded (step.mapError f) p a (f e) :=
  ⟨fun holds => congrArg (Except.mapError f) (guarded.ok holds),
    fun fails => congrArg (Except.mapError f) (guarded.error fails)⟩

theorem Guarded.of_ok (guarded : Guarded step p a e) {result : α} (yields : step = .ok result) :
    p := by
  by_contra fails
  cases yields.symm.trans (guarded.error fails)

/-- A step that yields a result only under its condition has no other error. -/
theorem Guarded.error_iff (guarded : Guarded step p a e) {other : ε} :
    step = .error other ↔ other = e ∧ ¬p := by
  by_cases holds : p
  · rw [guarded.ok holds]
    exact iff_of_false (fun same => by cases same) fun fails => fails.2 holds
  · rw [guarded.error holds, Except.error.injEq, eq_comm]
    exact (and_iff_left holds).symm

/-- Steps over a list are under the conditions of all of them. -/
theorem mapM_guarded {step : α → Except ε β} {condition : α → Prop} {result : α → β}
    {items : List α}
    (guarded : ∀ item ∈ items, Guarded (step item) (condition item) (result item) e) :
    Guarded (items.mapM step) (∀ item ∈ items, condition item) (items.map result) e := by
  induction items with
  | nil => exact (guarded_ok [] e).of_iff (iff_of_true trivial (List.forall_mem_nil _))
  | cons item items ih =>
    rw [List.forall_mem_cons] at guarded
    rw [List.mapM_cons, List.forall_mem_cons]
    exact guarded.1.bind ((ih guarded.2).map (result item :: ·))

end

end UrlScan
