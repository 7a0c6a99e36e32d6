import Mathlib.Algebra.Ring.Nat
import UrlScan.Proofs.Json.RoundTrip
import UrlScan.Report.Json

/-!
# The report in JSON is read back

A report that is written as JSON and read again is the report that was to be written
(`render_readBack`): every path, URL and line of context is the same text, files and occurrences are
in the same order, and the counters count what is in the report. It is written exactly if each of
its numbers can be, so without a limit to their digits it always is.

Results:
1. `report_namesDiffer`: no object of a report has two members of the same name.
2. `length_allUrls`: the URLs of a report are counted file by file.
3. `numbers_report`: the numbers in a report.
4. `render_readBack`: reading a report back.
-/

namespace UrlScan.Report.Json

open JsonValue

/-! ## Names -/

theorem occurrence_namesDiffer (lineNumbers : Bool) (o : Occurrence) :
    (occurrence lineNumbers o).NamesDiffer := by
  have context : (JsonValue.array (o.context.map .string)).NamesDiffer := by
    refine .array fun element member => ?_
    obtain ⟨line, -, rfl⟩ := List.mem_map.mp member
    exact .string line
  unfold occurrence
  cases lineNumbers with
  | false =>
    have names : ["url".toList, "start".toList, "end".toList, "context".toList,
      "sourceType".toList].Nodup := by decide
    refine .object names ?_
    simp only [Bool.false_eq_true, if_false, List.append_nil, List.cons_append, List.nil_append,
      List.forall_mem_cons]
    exact ⟨.string _, .number _, .number _, context, .string _,
      fun _ member => absurd member List.not_mem_nil⟩
  | true =>
    have names : ["url".toList, "line".toList, "column".toList, "start".toList, "end".toList,
      "context".toList, "sourceType".toList].Nodup := by decide
    refine .object names ?_
    simp only [if_true, List.cons_append, List.nil_append, List.forall_mem_cons]
    exact ⟨.string _, .number _, .number _, .number _, .number _, context, .string _,
      fun _ member => absurd member List.not_mem_nil⟩

theorem file_namesDiffer (lineNumbers : Bool) (result : FileResult) :
    (file lineNumbers result).NamesDiffer := by
  have urls : (JsonValue.array (result.urls.map (occurrence lineNumbers))).NamesDiffer := by
    refine .array fun element member => ?_
    obtain ⟨o, -, rfl⟩ := List.mem_map.mp member
    exact occurrence_namesDiffer lineNumbers o
  have names : ["file".toList, "urlCount".toList, "urls".toList].Nodup := by decide
  refine .object names ?_
  simp only [List.forall_mem_cons]
  exact ⟨.string _, .number _, urls, fun _ member => absurd member List.not_mem_nil⟩

theorem tally_namesDiffer (t : Tally) : (tally t).NamesDiffer := by
  have names : ["totalFiles".toList, "totalUrls".toList, "uniqueUrls".toList].Nodup := by decide
  refine .object names ?_
  simp only [List.forall_mem_cons]
  exact ⟨.number _, .number _, .number _, fun _ member => absurd member List.not_mem_nil⟩

/-- No object of a report has two members of the same name. -/
theorem report_namesDiffer (lineNumbers : Bool) (results : List FileResult) :
    (report lineNumbers results).NamesDiffer := by
  have files : (JsonValue.array (results.map (file lineNumbers))).NamesDiffer := by
    refine .array fun element member => ?_
    obtain ⟨result, -, rfl⟩ := List.mem_map.mp member
    exact file_namesDiffer lineNumbers result
  have names : ["summary".toList, "files".toList].Nodup := by decide
  refine .object names ?_
  simp only [List.forall_mem_cons]
  exact ⟨tally_namesDiffer _, files, fun _ member => absurd member List.not_mem_nil⟩

/-! ## What is read -/

/-- The URLs of a report are counted file by file. -/
theorem length_allUrls (results : List FileResult) :
    (FileResult.allUrls results).length = (results.map fun result => result.urls.length).sum := by
  unfold FileResult.allUrls
  rw [List.length_flatMap]
  simp only [List.length_map]

/-- What an occurrence in a report stands for. -/
theorem occurrence_datum (lineNumbers : Bool) (o : Occurrence) :
    (occurrence lineNumbers o).datum = .object (
      [("url".toList, JsonDatum.string o.url)] ++
      (if lineNumbers then
        [("line".toList, JsonDatum.integer o.line), ("column".toList, JsonDatum.integer o.column)]
        else []) ++
      [("start".toList, JsonDatum.integer o.start), ("end".toList, JsonDatum.integer o.stop),
       ("context".toList, JsonDatum.array (o.context.map JsonDatum.string)),
       ("sourceType".toList, JsonDatum.string o.origin.name.toList)]) := by
  have strings : (o.context.map .string).map datum = o.context.map .string := by
    simp only [List.map_map, Function.comp_def, datum]
  cases lineNumbers with
  | false => simp [occurrence, datum, strings]
  | true => simp [occurrence, datum, strings]

theorem file_datum (lineNumbers : Bool) (result : FileResult) :
    (file lineNumbers result).datum = .object
      [("file".toList, .string result.file), ("urlCount".toList, .integer result.urls.length),
       ("urls".toList, .array (result.urls.map fun o => (occurrence lineNumbers o).datum))] := by
  simp only [file, count, datum, List.map_cons, List.map_nil, List.map_map, Function.comp_def]

/-- The summary of a report counts its results and the URLs in them. -/
theorem report_datum (lineNumbers : Bool) (results : List FileResult) :
    (report lineNumbers results).datum = .object
      [("summary".toList, .object
        [("totalFiles".toList, .integer results.length),
         ("totalUrls".toList, .integer (FileResult.allUrls results).length),
         ("uniqueUrls".toList, .integer (FileResult.allUrls results).eraseDups.length)]),
       ("files".toList, .array (results.map fun result => (file lineNumbers result).datum))] := by
  simp only [report, tally, Tally.ofResults, count, datum, List.map_cons, List.map_nil,
    List.map_map, Function.comp_def]

/-! ## What is written -/

/-- The numbers in a report about an occurrence. -/
def numbersOf (lineNumbers : Bool) (o : Occurrence) : List Int :=
  (if lineNumbers then [o.line, o.column] else []) ++ [o.start, o.stop]

theorem numbers_occurrence (lineNumbers : Bool) (o : Occurrence) :
    (occurrence lineNumbers o).numbers = numbersOf lineNumbers o := by
  have noNumbers : (o.context.map .string).flatMap numbers = [] := by
    simp [List.flatMap_eq_nil_iff, numbers]
  cases lineNumbers <;> simp [occurrence, numbersOf, numbers, noNumbers]

theorem numbers_file (lineNumbers : Bool) (result : FileResult) :
    (file lineNumbers result).numbers =
      (result.urls.length : Int) :: result.urls.flatMap (numbersOf lineNumbers) := by
  simp [file, count, numbers, List.flatMap_map, numbers_occurrence]

/-- The numbers in a report: its counters, and for each file the number of its URLs and the numbers
about these. -/
theorem numbers_report (lineNumbers : Bool) (results : List FileResult) :
    (report lineNumbers results).numbers =
      [(results.length : Int), ((FileResult.allUrls results).length : Int),
        ((FileResult.allUrls results).eraseDups.length : Int)] ++
      results.flatMap fun result =>
        (result.urls.length : Int) :: result.urls.flatMap (numbersOf lineNumbers) := by
  simp [report, tally, Tally.ofResults, count, numbers, List.flatMap_map, numbers_file]

/-- A report that is written is read back. -/
theorem read?_render {limit : Option Nat} {lineNumbers : Bool} {results : List FileResult}
    {text : Text} (written : render limit lineNumbers results = .ok text) :
    JsonDatum.read? text = some (report lineNumbers results).datum := by
  have guarded : Guarded (render limit lineNumbers results) _ _ _ :=
    render_guarded (report lineNumbers results)
  cases written.symm.trans (guarded.ok (guarded.of_ok written))
  exact JsonDatum.read?_text _ (report_namesDiffer lineNumbers results)

/-- A report is written unless one of its numbers has more digits than may be written; then it ends
with an error about this. The numbers are the counters and the places of the occurrences, of which
the lines and columns are left out when they are not wanted.

A report that is written and read again has the members that were to be written, in their order.
Texts are read back character by character and numbers whatever their size; every file counts its
own URLs, and the summary counts those of all files. -/
theorem render_readBack (limit : Option Nat) (lineNumbers : Bool) (results : List FileResult) :
    let fits := ∀ n ∈ [(results.length : Int), ((FileResult.allUrls results).length : Int),
        ((FileResult.allUrls results).eraseDups.length : Int)] ++
      results.flatMap fun result =>
        (result.urls.length : Int) :: result.urls.flatMap fun o =>
          (if lineNumbers then [o.line, o.column] else []) ++ [o.start, o.stop],
      Text.Writable limit n
    (fits → ∃ text, render limit lineNumbers results = .ok text ∧
      JsonDatum.read? text = some (report lineNumbers results).datum) ∧
    (¬fits → render limit lineNumbers results = .error ⟨limit.getD 0⟩) ∧
    (limit = none → fits) ∧
    (report lineNumbers results).datum = .object
      [("summary".toList, .object
        [("totalFiles".toList, .integer results.length),
         ("totalUrls".toList,
          .integer ((results.map fun result => result.urls.length).sum : Nat)),
         ("uniqueUrls".toList, .integer (FileResult.allUrls results).eraseDups.length)]),
       ("files".toList, .array (results.map fun result => .object
        [("file".toList, .string result.file),
         ("urlCount".toList, .integer result.urls.length),
         ("urls".toList, .array (result.urls.map fun o => .object (
            [("url".toList, JsonDatum.string o.url)] ++
            (if lineNumbers then
              [("line".toList, JsonDatum.integer o.line),
               ("column".toList, JsonDatum.integer o.column)]
              else []) ++
            [("start".toList, JsonDatum.integer o.start), ("end".toList, JsonDatum.integer o.stop),
             ("context".toList, JsonDatum.array (o.context.map JsonDatum.string)),
             ("sourceType".toList, JsonDatum.string o.origin.name.toList)])))]))] := by
  intro fits
  have sameNumbers : (report lineNumbers results).Fits limit ↔ fits := by
    rw [JsonValue.Fits, numbers_report]
    rfl
  have guarded : Guarded (render limit lineNumbers results) fits _ _ :=
    (render_guarded (report lineNumbers results)).of_iff sameNumbers
  refine ⟨fun fit => ⟨_, guarded.ok fit, read?_render (guarded.ok fit)⟩, guarded.error, ?_, ?_⟩
  · rintro rfl n -
    exact Text.writable_none n
  · simp only [← occurrence_datum, ← file_datum, ← length_allUrls]
    exact report_datum lineNumbers results

end UrlScan.Report.Json
