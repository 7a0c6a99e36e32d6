import Mathlib.Data.List.DropRight
import UrlScan.Proofs.Csv.Reader
import UrlScan.Proofs.Report.Places
import UrlScan.Report.Csv

/-!
# The report in comma-separated values is read back

Whatever stands in the paths and URLs of a report, reading the report gives its header and one
record of five fields for each occurrence (`render_decoded`). A field is quoted only where it must
be, so this rests on what a field without marks can hold, and on the end of the report: only the
line feed of the last record is taken away, because a field that ends in a line feed is quoted.
Whether a carriage return is quoted makes no difference to a reader for which it has no meaning.

Results:
1. `run_field`: what is read of a field.
2. `run_record`, `run_records`: what is read of whole records.
3. `rows_guarded`: the records of a report, unless a line or a column cannot be written.
4. `trimEnd_records`: the report lacks the line feed of its last record and nothing else.
5. `render_decoded`: reading a report back.
-/

namespace UrlScan.Report.Csv

open UrlScan.Csv Progress Dialect

variable {d : Dialect}

/-! ## Fields -/

section
variable {p : Progress}

theorem needsQuotes_eq_false {c : Char} (plain : d.needsQuotes c = false) :
    c ≠ ',' ∧ c ≠ '\n' ∧ c ≠ Text.doubleQuote := by
  simp only [needsQuotes, Bool.or_eq_false_iff, beq_eq_false_iff_ne] at plain
  exact ⟨plain.1.1.1, plain.1.2, plain.1.1.2⟩

theorem needsQuotes_lineFeed (d : Dialect) : d.needsQuotes '\n' = true := rfl

theorem step_plain {c : Char} (inField : p.place = .start ∨ p.place = .plain)
    (plain : d.needsQuotes c = false) : p.step c = some (p.add c .plain) := by
  obtain ⟨notComma, notLineFeed, notMark⟩ := needsQuotes_eq_false plain
  have outside : p.place ≠ .quoted ∧ p.place ≠ .mark := by
    rcases inField with place | place <;> rw [place] <;> decide
  rw [step, if_neg outside.1, if_neg notComma, if_neg notLineFeed, if_neg notMark,
    if_neg outside.2]

/-- A text without marks, commas and line feeds is read as it stands. -/
theorem run_plain (inField : p.place = .start ∨ p.place = .plain) {t : Text}
    (plain : t.any d.needsQuotes = false) :
    ∃ place, place ≠ .quoted ∧ p.run t = some { p with field := p.field ++ t, place } := by
  induction t generalizing p with
  | nil =>
    refine ⟨p.place, ?_, ?_⟩
    · rcases inField with place | place <;> rw [place] <;> decide
    · rw [run_nil, List.append_nil]
  | cons c rest ih =>
    rw [List.any_cons, Bool.or_eq_false_iff] at plain
    obtain ⟨place, outside, read⟩ := ih (p := p.add c .plain) (.inr rfl) plain.2
    refine ⟨place, outside, ?_⟩
    rw [run_cons, step_plain inField plain.1, Option.bind_some, read]
    simp only [add, List.append_assoc, List.singleton_append]

/-- Between quotation marks a text with doubled marks is read as the text. -/
theorem run_doubled (quoted : p.place = .quoted) (t : Text) :
    p.run (t.flatMap fun c => if c = Text.doubleQuote then [c, c] else [c]) =
      some { p with field := p.field ++ t } := by
  induction t generalizing p with
  | nil => rw [List.flatMap_nil, run_nil, List.append_nil]
  | cons c rest ih =>
    have first : p.run (if c = Text.doubleQuote then [c, c] else [c]) = some (p.add c .quoted) := by
      split
      next isMark =>
        rw [isMark, run_cons, step_mark quoted, Option.bind_some, run_singleton]
        rfl
      next notMark => rw [run_singleton, step_quoted quoted notMark]
    rw [List.flatMap_cons, run_append, first, Option.bind_some, ih rfl]
    simp only [add, quoted, List.append_assoc, List.singleton_append]

/-- A field is read as the text that it was written for. -/
theorem run_field (start : p.place = .start) (nothing : p.field = []) (t : Text) :
    ∃ place, place ≠ .quoted ∧ p.run (d.field t) = some { p with field := t, place } := by
  unfold Dialect.field
  split
  next =>
    refine ⟨.mark, by decide, ?_⟩
    have opened : p.step Text.doubleQuote = some { p with place := .quoted } := by
      rw [step, if_neg (by rw [start]; decide), if_neg (by decide), if_neg (by decide), if_pos rfl,
        start]
    dsimp only
    rw [List.cons_append, run_cons, opened, Option.bind_some, run_append, run_doubled rfl,
      Option.bind_some, run_singleton, step_mark rfl]
    simp only [nothing, List.nil_append]
  next plain =>
    obtain ⟨place, outside, read⟩ := run_plain (.inl start) (Bool.not_eq_true _ ▸ plain)
    refine ⟨place, outside, ?_⟩
    rw [read, nothing, List.nil_append]

end

/-- A field ends in a line feed only between quotation marks. -/
theorem getLast?_field (t : Text) : (d.field t).getLast? ≠ some '\n' := by
  unfold Dialect.field
  split
  next =>
    dsimp only
    rw [List.getLast?_concat]
    decide
  next noQuotes =>
    intro atEnd
    exact noQuotes (List.any_eq_true.mpr ⟨'\n', List.mem_of_getLast? atEnd, needsQuotes_lineFeed d⟩)

/-! ## Records -/

/-- The fields of a record as they are written, with commas between them. -/
def line (d : Dialect) (fields : List Text) : Text :=
  Text.join [','] (fields.map d.field)

theorem line_singleton (t : Text) : line d [t] = d.field t := by
  rw [line, List.map_singleton, Text.join, List.intercalate_singleton]

theorem line_cons_cons (first second : Text) (rest : List Text) :
    line d (first :: second :: rest) = d.field first ++ ',' :: line d (second :: rest) :=
  rfl

/-- A record is read field by field, behind the fields of it that were read before. -/
theorem run_record {fields : List Text} (notEmpty : fields ≠ []) (records : List (List Text))
    (before : List Text) :
    (Progress.mk records before [] .start).run (d.record fields) =
      some (.before (records ++ [before ++ fields])) := by
  have whole : d.record fields = line d fields ++ ['\n'] := rfl
  rw [whole]
  induction fields generalizing before with
  | nil => exact absurd rfl notEmpty
  | cons first rest ih =>
    obtain ⟨place, outside, read⟩ :=
      run_field (p := ⟨records, before, [], .start⟩) rfl rfl first
    cases rest with
    | nil =>
      rw [line_singleton, run_append, read, Option.bind_some, run_singleton,
        step_lineFeed outside]
      rfl
    | cons second rest =>
      have later := ih (List.cons_ne_nil second rest) (before ++ [first]) rfl
      rw [line_cons_cons, List.append_assoc, List.cons_append, run_append, read, Option.bind_some,
        run_cons, step_comma outside, Option.bind_some]
      rw [List.append_assoc, List.singleton_append] at later
      exact later

theorem run_records {rows : List (List Text)} (notEmpty : ∀ fields ∈ rows, fields ≠ [])
    (records : List (List Text)) :
    (Progress.before records).run (rows.flatMap d.record) = some (.before (records ++ rows)) := by
  induction rows generalizing records with
  | nil => rw [List.flatMap_nil, run_nil, List.append_nil]
  | cons fields rest ih =>
    have first : (Progress.before records).run (d.record fields) =
        some (.before (records ++ [fields])) :=
      run_record (notEmpty fields List.mem_cons_self) records []
    rw [List.flatMap_cons, run_append, first, Option.bind_some,
      ih fun later member => notEmpty later (List.mem_cons_of_mem _ member), List.append_assoc,
      List.singleton_append]

/-- Records that are written are read back. -/
theorem read?_records {rows : List (List Text)} (notEmpty : ∀ fields ∈ rows, fields ≠ []) :
    read? (rows.flatMap d.record) = some rows := by
  rw [read?, run_records notEmpty, Option.bind_some, finish_before, List.nil_append]

/-! ## The records of a report -/

/-- The fields of a record about an occurrence. -/
def fieldsOf (lineNumbers : Bool) (file : Text) (o : Occurrence) : List Text :=
  [file, Path.name (.parse file), if lineNumbers then Text.decimal o.line else [],
   if lineNumbers then Text.decimal o.column else [], o.url]

/-- The header and the records about all occurrences, in the order of the report. -/
def table (lineNumbers : Bool) (results : List FileResult) : List (List Text) :=
  ["FilePath", "FileName", "LineNumber", "ColumnPosition", "URL"].map String.toList ::
    results.flatMap fun result => result.urls.map (fieldsOf lineNumbers result.file)

section
variable (limit : Option Nat) (lineNumbers : Bool)

theorem row_guarded (file : Text) (o : Occurrence) :
    Guarded (row limit lineNumbers file o) (PlaceFits limit lineNumbers o)
      (fieldsOf lineNumbers file o) ⟨limit.getD 0⟩ := by
  unfold row place PlaceFits
  cases lineNumbers with
  | false => exact ((guarded_ok _ _).of_iff (by simp)).map _
  | true =>
    have both : Guarded ([o.line, o.column].mapM (Text.ofInt limit)) _ _ _ :=
      mapM_guarded fun n _ => Text.ofInt_guarded limit n
    exact (both.of_iff (by simp)).map _

/-- A report has its records unless a line or a column that is wanted cannot be written. -/
theorem rows_guarded (results : List FileResult) :
    Guarded (rows limit lineNumbers results) (PlacesFit limit lineNumbers results)
      (table lineNumbers results) ⟨limit.getD 0⟩ :=
  (mapM_places_guarded (row_guarded limit lineNumbers) results).map (header :: ·.flatten)

end

theorem length_of_mem_table {lineNumbers : Bool} {results : List FileResult} {fields : List Text}
    (member : fields ∈ table lineNumbers results) : fields.length = 5 := by
  rw [table, List.mem_cons, List.mem_flatMap] at member
  rcases member with rfl | ⟨result, -, inResult⟩
  · rfl
  · obtain ⟨o, -, rfl⟩ := List.mem_map.mp inResult
    rfl

/-! ## The end of the report -/

theorem getLast?_comma_line (fields : List Text) : (',' :: line d fields).getLast? ≠ some '\n' := by
  induction fields with
  | nil =>
    have single : ',' :: line d [] = [','] := rfl
    rw [single]
    decide
  | cons first rest ih =>
    cases rest with
    | nil =>
      rw [line_singleton, List.getLast?_cons]
      cases atEnd : (d.field first).getLast? with
      | none => decide
      | some c =>
        rw [Option.getD_some]
        exact fun same => getLast?_field first (atEnd.trans same)
    | cons second rest =>
      rw [line_cons_cons, ← List.cons_append,
        List.getLast?_append_of_ne_nil _ (List.cons_ne_nil _ _)]
      exact ih

/-- A record of several fields is not empty, and a line feed at its end would stand between
quotation marks. -/
theorem line_ends {fields : List Text} (several : 2 ≤ fields.length) :
    line d fields ≠ [] ∧ (line d fields).getLast? ≠ some '\n' := by
  match fields, several with
  | first :: second :: rest, _ =>
    rw [line_cons_cons, List.getLast?_append_of_ne_nil _ (List.cons_ne_nil _ _)]
    exact ⟨List.append_ne_nil_of_right_ne_nil _ (List.cons_ne_nil _ _), getLast?_comma_line _⟩

/-- Records of several fields lose the line feed of the last record when the line feeds at their end
are taken away, and nothing else. -/
theorem trimEnd_records {rows : List (List Text)} (someRow : rows ≠ [])
    (several : ∀ fields ∈ rows, 2 ≤ fields.length) :
    ∃ report, Text.trimEnd (· == '\n') (rows.flatMap d.record) = report ∧
      report ++ ['\n'] = rows.flatMap d.record ∧ report ≠ [] ∧ report.getLast? ≠ some '\n' := by
  obtain ⟨start, last, rfl⟩ := List.eq_nil_or_concat' rows |>.resolve_left someRow
  obtain ⟨notEmpty, notLineFeed⟩ : line d last ≠ [] ∧ (line d last).getLast? ≠ some '\n' :=
    line_ends (several last (List.mem_append_right _ (List.mem_singleton_self last)))
  have written : (start ++ [last]).flatMap d.record =
      start.flatMap d.record ++ line d last ++ ['\n'] := by
    rw [List.flatMap_append, List.flatMap_singleton, List.append_assoc]
    rfl
  have ends : (start.flatMap d.record ++ line d last).getLast? = (line d last).getLast? :=
    List.getLast?_append_of_ne_nil _ notEmpty
  refine ⟨start.flatMap d.record ++ line d last, ?_, written.symm,
    List.append_ne_nil_of_right_ne_nil _ notEmpty, ends ▸ notLineFeed⟩
  have isKept : Text.trimEnd (· == '\n') (start.flatMap d.record ++ line d last) =
      start.flatMap d.record ++ line d last := by
    refine List.rdropWhile_eq_self_iff.mpr fun someText isLineFeed => notLineFeed ?_
    rw [← ends, List.getLast?_eq_some_getLast someText, beq_iff_eq.mp isLineFeed]
  rw [written]
  exact (List.rdropWhile_concat_pos _ _ '\n' rfl).trans isKept

/-- A report is written unless a line or a column that is wanted has more digits than may be
written; then it ends with an error about this. Without a limit to the digits it is always written.

A report that is written and read again has its header and one record for each occurrence, in the
order of the report: the path of the file, its name, the line and the column, which are empty when
they are not wanted, and the URL. The report lacks the line feed that ends its last record and
nothing else. -/
theorem render_decoded (limit : Option Nat) (lineNumbers : Bool) (d : Dialect)
    (results : List FileResult) :
    let rows :=
      ["FilePath", "FileName", "LineNumber", "ColumnPosition", "URL"].map String.toList ::
        results.flatMap fun result => result.urls.map fun o =>
          [result.file, Path.name (.parse result.file),
           if lineNumbers then Text.decimal o.line else [],
           if lineNumbers then Text.decimal o.column else [], o.url]
    (PlacesFit limit lineNumbers results → ∃ report,
      render limit lineNumbers d results = .ok report ∧ read? report = some rows ∧
      report ++ ['\n'] = rows.flatMap d.record) ∧
    (¬PlacesFit limit lineNumbers results →
      render limit lineNumbers d results = .error ⟨limit.getD 0⟩) ∧
    (limit = none → PlacesFit limit lineNumbers results) := by
  intro rows
  have length : ∀ fields ∈ rows, fields.length = 5 := fun fields => length_of_mem_table
  obtain ⟨report, trimmed, written, notEmpty, notLineFeed⟩ :=
    trimEnd_records (d := d) (List.cons_ne_nil _ _) fun fields member =>
      (length fields member).symm ▸ (by decide : 2 ≤ 5)
  have guarded : Guarded (render limit lineNumbers d results)
      (PlacesFit limit lineNumbers results) report ⟨limit.getD 0⟩ :=
    trimmed ▸ (rows_guarded limit lineNumbers results).map fun rows =>
      Text.trimEnd (· == '\n') (rows.flatMap d.record)
  refine ⟨fun fit => ⟨report, guarded.ok fit, ?_, written⟩, guarded.error,
    fun unlimited => unlimited ▸ placesFit_none lineNumbers results⟩
  refine read?_withoutLineFeed notEmpty notLineFeed ?_
  rw [written]
  exact read?_records fun fields member => List.ne_nil_of_length_eq_add_one (length fields member)

end UrlScan.Report.Csv
