import UrlScan.Text.Quoted

/-!
# Reading comma-separated values

A text of comma-separated values is a list of records, and a record is a list of fields with commas
between them. A field that begins with a quotation mark ends with one; between them every other mark
is written twice, and commas and line feeds are characters like any other. A record ends at a line
feed that is not between quotation marks, or at the end of the text. A carriage return has no
meaning.

The reader goes through a text character by character. It refuses a text with a mark inside a field
that does not begin with one, with anything but a comma or a line feed behind a quoted field, and
with a quoted field that does not end.

Results:
1. `run_append`: a text is read part by part.
2. `eq_lineFeed_of_step`: only a line feed ends a record.
3. `read?_withoutLineFeed`: the line feed that ends the last record may be left out.
-/

namespace UrlScan.Csv

/-- Where in a field the next character stands. -/
inductive Place
  | start
  /-- In a field without quotation marks. -/
  | plain
  /-- Between the quotation marks of a field. -/
  | quoted
  /-- Behind a mark that ends a quoted field, unless another one follows. -/
  | mark
deriving DecidableEq, Repr

/-- What is read of a text so far. -/
structure Progress where
  records : List (List Text)
  /-- The fields of the record that has not ended. -/
  fields : List Text
  /-- The characters of the field that has not ended. -/
  field : Text
  place : Place
deriving DecidableEq, Repr

namespace Progress

/-- Before a record: at the start of a text, or behind the line feed that ends a record. -/
def before (records : List (List Text)) : Progress :=
  ⟨records, [], [], .start⟩

def add (p : Progress) (c : Char) (place : Place) : Progress :=
  { p with field := p.field ++ [c], place }

def endField (p : Progress) : Progress :=
  ⟨p.records, p.fields ++ [p.field], [], .start⟩

def endRecord (p : Progress) : Progress :=
  before (p.records ++ [p.fields ++ [p.field]])

/-- Reads one character. -/
def step (p : Progress) (c : Char) : Option Progress :=
  if p.place = .quoted then
    some (if c = Text.doubleQuote then { p with place := .mark } else p.add c .quoted)
  else if c = ',' then some p.endField
  else if c = '\n' then some p.endRecord
  else if c = Text.doubleQuote then
    match p.place with
    | .start => some { p with place := .quoted }
    | .mark => some (p.add c .quoted)
    | _ => none
  else if p.place = .mark then none
  else some (p.add c .plain)

def run (p : Progress) (t : Text) : Option Progress :=
  t.foldlM step p

/-- The records of a text that ends here. -/
def finish (p : Progress) : Option (List (List Text)) :=
  if p.place = .quoted then none
  else if p = before p.records then some p.records
  else some p.endRecord.records

end Progress

/-- The records of a text. -/
def read? (t : Text) : Option (List (List Text)) :=
  ((Progress.before []).run t).bind Progress.finish

/-- A quoted field with a line feed and a mark in it, an empty field, and a last record without a
line feed. -/
example : read? "a,\"b\n\"\"\"\n,\r".toList =
    some [[['a'], ['b', '\n', Text.doubleQuote]], [[], ['\r']]] := by
  decide

/-! ## One character after another -/

namespace Progress

variable {p q : Progress} {c : Char}

theorem run_nil (p : Progress) : p.run [] = some p := rfl

theorem run_cons (p : Progress) (c : Char) (t : Text) :
    p.run (c :: t) = (p.step c).bind (·.run t) := rfl

theorem run_append (p : Progress) (t u : Text) : p.run (t ++ u) = (p.run t).bind (·.run u) :=
  List.foldlM_append

theorem run_singleton (p : Progress) (c : Char) : p.run [c] = p.step c := by
  rw [run_cons]
  cases p.step c <;> rfl

theorem finish_quoted (quoted : p.place = .quoted) : p.finish = none :=
  if_pos quoted

theorem finish_before (records : List (List Text)) : (before records).finish = some records := by
  have outside : (before records).place ≠ .quoted := by
    show Place.start ≠ .quoted
    decide
  rw [finish, if_neg outside]
  exact if_pos rfl

/-- Between quotation marks only a mark has a meaning. -/
theorem step_quoted (quoted : p.place = .quoted) (notMark : c ≠ Text.doubleQuote) :
    p.step c = some (p.add c .quoted) := by
  rw [step, if_pos quoted, if_neg notMark]

theorem step_mark (quoted : p.place = .quoted) :
    p.step Text.doubleQuote = some { p with place := .mark } := by
  rw [step, if_pos quoted, if_pos rfl]

theorem step_comma (outside : p.place ≠ .quoted) : p.step ',' = some p.endField := by
  rw [step, if_neg outside, if_pos rfl]

theorem step_lineFeed (outside : p.place ≠ .quoted) : p.step '\n' = some p.endRecord := by
  rw [step, if_neg outside, if_neg (by decide), if_pos rfl]

/-- What a step does unless it stays in a field. -/
theorem step_cases (read : p.step c = some q) :
    q.place ≠ .start ∨ c = ',' ∧ q = p.endField ∨ c = '\n' ∧ q = p.endRecord := by
  have quoted : Place.quoted ≠ .start := by decide
  have mark : Place.mark ≠ .start := by decide
  have plain : Place.plain ≠ .start := by decide
  unfold step at read
  split at read
  next =>
    split at read
    next => cases read; exact .inl mark
    next => cases read; exact .inl quoted
  next =>
    split at read
    next isComma => cases read; exact .inr (.inl ⟨isComma, rfl⟩)
    next =>
      split at read
      next isLineFeed => cases read; exact .inr (.inr ⟨isLineFeed, rfl⟩)
      next =>
        split at read
        next =>
          split at read
          next => cases read; exact .inl quoted
          next => cases read; exact .inl quoted
          next => cases read
        next =>
          split at read
          next => cases read
          next => cases read; exact .inl plain

/-- Only a line feed ends a record. -/
theorem eq_lineFeed_of_step {records : List (List Text)} (read : p.step c = some (before records)) :
    c = '\n' := by
  rcases step_cases read with inField | ⟨-, isField⟩ | ⟨isLineFeed, -⟩
  · exact absurd rfl inField
  · have noFields : [] = p.fields ++ [p.field] := congrArg fields isField
    exact absurd noFields.symm (List.append_ne_nil_of_right_ne_nil _ (List.cons_ne_nil _ _))
  · exact isLineFeed

/-- A reader is before a record at the start of a text and behind a line feed only. -/
theorem getLast?_of_run {records : List (List Text)} {t : Text}
    (read : (before []).run t = some (before records)) : t = [] ∨ t.getLast? = some '\n' := by
  rcases List.eq_nil_or_concat t with rfl | ⟨start, c, rfl⟩
  · exact .inl rfl
  · rw [List.concat_eq_append, run_append] at read
    obtain ⟨p, -, lastStep⟩ := Option.bind_eq_some_iff.mp read
    rw [run_singleton] at lastStep
    rw [eq_lineFeed_of_step lastStep, List.concat_eq_append, List.getLast?_concat]
    exact .inr rfl

end Progress

/-- The line feed that ends the last record may be left out, unless the text would then end in
another one. -/
theorem read?_withoutLineFeed {t : Text} {records : List (List Text)} (notEmpty : t ≠ [])
    (notEnded : t.getLast? ≠ some '\n') (read : read? (t ++ ['\n']) = some records) :
    read? t = some records := by
  unfold read? at read ⊢
  rw [Progress.run_append] at read
  cases readBefore : (Progress.before []).run t with
  | none =>
    rw [readBefore] at read
    cases read
  | some p =>
    rw [readBefore, Option.bind_some, Progress.run_singleton] at read
    have inRecord : p ≠ .before p.records := fun before =>
      (Progress.getLast?_of_run (before ▸ readBefore)).elim notEmpty notEnded
    by_cases quoted : p.place = .quoted
    · rw [Progress.step_quoted quoted (by decide), Option.bind_some,
        Progress.finish_quoted (p := p.add '\n' .quoted) rfl] at read
      cases read
    · rw [Progress.step_lineFeed quoted, Option.bind_some, Progress.endRecord,
        Progress.finish_before] at read
      rw [Option.bind_some, Progress.finish, if_neg quoted, if_neg inRecord]
      exact read

end UrlScan.Csv
