import UrlScan.Proofs.Report.Places
import UrlScan.Proofs.Text.Joined
import UrlScan.Report.Table

/-!
# The table is rectangular and complete

Whatever stands in the paths and URLs of a report, the lines of its table are equally long, and
there is one line for each occurrence, in the order of the report (`render_lines`). A path or a URL
may hold line feeds itself, so the lines are not what a reader finds between the line feeds of the
table: they are the texts that the table joins. A table is written if all lines and columns that it
is to show can be.

Results:
1. `length_shown`, `pad_truncate`: what a column shows of a value fills the column.
2. `length_row`: a row is as long as the line above and below it.
3. `rows_guarded`: the rows of a table, unless a line or a column cannot be written.
4. `getElem?_found`: where an occurrence stands in the order of the report.
5. `render_lines`: the lines of a table.
-/

namespace UrlScan.Report.Table

/-! ## Cells -/

/-- What a column shows of a value: the value and blanks behind it when the value fits, and
otherwise as much of the value as leaves room for the ellipsis. -/
def shown (width : Nat) (value : Text) : Text :=
  if value.length ≤ width then value ++ List.replicate (width - value.length) ' '
  else value.take (width - 3) ++ "...".toList

section
variable {width : Nat}

theorem length_shown (wide : 3 ≤ width) (value : Text) : (shown width value).length = width := by
  unfold shown
  split
  next fits =>
    rw [List.length_append, List.length_replicate]
    omega
  next tooLong =>
    have three : "...".toList.length = 3 := rfl
    rw [List.length_append, List.length_take, three]
    omega

/-- A column that has room for more than an ellipsis is filled. -/
theorem pad_truncate (wide : 3 < width) (value : Text) :
    pad width (truncate value width) = shown width value := by
  have three : ellipsis.length = 3 := rfl
  unfold truncate shown
  split
  next fits => rw [if_pos (Int.ofNat_le.mp fits), pad]
  next tooLong =>
    have room : ((width : Int) - ellipsis.length).toNat = width - 3 := by omega
    have full : (value.take (width - 3) ++ ellipsis).length = width := by
      rw [List.length_append, List.length_take, three]
      omega
    rw [if_neg (by omega), if_neg (by omega), room, pad, full, Nat.sub_self, List.replicate_zero,
      List.append_nil]
    rfl

theorem cell_eq (wide : 3 < width) (value : Text) :
    cell value width = ' ' :: shown width value ++ [' '] := by
  rw [cell, pad_truncate wide]

theorem length_cell (wide : 3 < width) (value : Text) : (cell value width).length = width + 2 := by
  rw [cell_eq wide, List.length_append, List.length_cons, length_shown (Nat.le_of_lt wide),
    List.length_singleton]

end

/-! ## Lines -/

/-- A line with the given cells: each has a blank on either side, and bars stand around them. -/
def line (cells : List Text) : Text :=
  '|' :: Text.join ['|'] (cells.map fun cell => ' ' :: cell ++ [' ']) ++ ['|']

theorem wide_of_mem_widths : ∀ width ∈ widths, 3 < width := by
  decide

/-- The values of a row as its columns show them. -/
def cells (values : List Text) : List Text :=
  values.zipWith (fun value width => shown width value) widths

theorem row_eq_line (values : List Text) : row values = line (cells values) := by
  have each : values.zipWith cell widths =
      (cells values).map fun cell => ' ' :: cell ++ [' '] := by
    rw [cells, List.map_zipWith]
    refine List.ext_getElem (by simp) fun i _ _ => ?_
    rw [List.getElem_zipWith, List.getElem_zipWith,
      cell_eq (wide_of_mem_widths _ (List.getElem_mem _))]
  rw [row, line, each]

/-- A row with a value for each column is as long as the line above and below it. -/
theorem length_row {values : List Text} (complete : values.length = widths.length) :
    (row values).length = separator.length := by
  have lengths : (values.zipWith cell widths).map List.length =
      (widths.map fun width => List.replicate (width + 2) '-').map List.length := by
    refine List.ext_getElem (by simp [complete]) fun i _ _ => ?_
    rw [List.getElem_map, List.getElem_zipWith, List.getElem_map, List.getElem_map,
      length_cell (wide_of_mem_widths _ (List.getElem_mem _)), List.length_replicate]
  have joined : (Text.join ['|'] (values.zipWith cell widths)).length =
      (Text.join ['+'] (widths.map fun width => List.replicate (width + 2) '-')).length :=
    Text.length_join_congr lengths
  simp only [row, separator, List.length_append, List.length_cons, joined]

/-! ## Rows -/

/-- The occurrences of a report with their files, in its order. -/
def found (results : List FileResult) : List (Text × Occurrence) :=
  results.flatMap fun result => result.urls.map fun occurrence => (result.file, occurrence)

/-- The values of a row about an occurrence. -/
def valuesOf (lineNumbers : Bool) (file : Text) (o : Occurrence) : List Text :=
  [file, Path.name (.parse file),
   if lineNumbers then Text.decimal o.line ++ ':' :: Text.decimal o.column else [], o.url]

section
variable (limit : Option Nat) (lineNumbers : Bool)

theorem values_guarded (file : Text) (o : Occurrence) :
    Guarded (values limit lineNumbers file o) (PlaceFits limit lineNumbers o)
      (valuesOf lineNumbers file o) ⟨limit.getD 0⟩ := by
  unfold values place PlaceFits
  cases lineNumbers with
  | false => exact ((guarded_ok _ _).of_iff (by simp)).map _
  | true =>
    have lineFirst (line : Text) := (Text.ofInt_guarded limit o.column).map (line ++ ':' :: ·)
    have both : Guarded
        (Text.ofInt limit o.line >>= fun line =>
          Text.ofInt limit o.column >>= fun column => .ok (line ++ ':' :: column))
        (Text.Writable limit o.line ∧ Text.Writable limit o.column)
        (Text.decimal o.line ++ ':' :: Text.decimal o.column) ⟨limit.getD 0⟩ :=
      (Text.ofInt_guarded limit o.line).bind (lineFirst _)
    exact (both.of_iff (by simp)).map _

/-- A table has its rows unless a line or a column that is wanted cannot be written. -/
theorem rows_guarded (results : List FileResult) :
    Guarded (rows limit lineNumbers results) (PlacesFit limit lineNumbers results)
      ((found results).map fun (file, o) => row (valuesOf lineNumbers file o))
      ⟨limit.getD 0⟩ := by
  have inOrder : (found results).map (fun (file, o) => row (valuesOf lineNumbers file o)) =
      (results.map fun result => result.urls.map (valuesOf lineNumbers result.file)).flatten.map
        row := by
    simp only [found, List.map_flatMap, List.map_map, List.flatten_eq_flatMap, List.flatMap_map,
      Function.comp_def, id_eq]
  rw [inOrder]
  exact (mapM_places_guarded (values_guarded limit lineNumbers) results).map (·.flatten.map row)

end

/-- An occurrence comes behind those of all earlier files and the earlier ones of its own file. -/
theorem getElem?_found (before after : List FileResult) (file : Text) (first rest : List Occurrence)
    (occurrence : Occurrence) :
    (found (before ++ ⟨file, first ++ occurrence :: rest⟩ :: after))[
      (found before).length + first.length]? = some (file, occurrence) := by
  have whole : found (before ++ ⟨file, first ++ occurrence :: rest⟩ :: after) =
      found before ++ first.map (Prod.mk file) ++
        ((file, occurrence) :: (rest.map (Prod.mk file) ++ found after)) := by
    simp only [found, List.flatMap_append, List.flatMap_cons, List.map_append, List.map_cons,
      List.append_assoc, List.cons_append]
  have place : (found before ++ first.map (Prod.mk file)).length =
      (found before).length + first.length := by
    rw [List.length_append, List.length_map]
  rw [whole, ← place, List.getElem?_append_right (Nat.le_refl _), Nat.sub_self]
  rfl

/-! ## The table -/

theorem length_of_mem_frame {rows : List Text} {line : Text}
    (equal : ∀ row ∈ rows, row.length = separator.length) (member : line ∈ frame rows) :
    line.length = separator.length := by
  simp only [frame, List.cons_append, List.nil_append, List.mem_cons, List.mem_append,
    List.not_mem_nil, or_false] at member
  rcases member with rfl | rfl | rfl | inRows | rfl
  · rfl
  · exact length_row rfl
  · rfl
  · exact equal line inRows
  · rfl

/-- The rows stand behind the first three lines of a table. -/
theorem getElem?_frame {rows : List Text} {i : Nat} {row : Text} (place : rows[i]? = some row) :
    (frame rows)[3 + i]? = some row := by
  obtain ⟨inside, -⟩ := List.getElem?_eq_some_iff.mp place
  rw [Nat.add_comm]
  simp only [frame, List.cons_append, List.nil_append, List.getElem?_cons_succ]
  rw [List.getElem?_append_left inside, place]

/-- The table of a report with some occurrence is written unless a line or a column that is wanted
has more digits than may be written; then it ends with an error about this. Without a limit to the
digits it is always written.

It joins four lines and one for each occurrence, all of the same length whatever they show. The
lines of the occurrences stand in the order of the report behind the header. Each shows the path of
the file, its name, the line and the column unless they are not wanted, and the URL: with blanks
behind a value that fits into its column, and the beginning of a longer one with an ellipsis. -/
theorem render_lines (limit : Option Nat) (lineNumbers : Bool) {results : List FileResult}
    (someFound : found results ≠ []) :
    (PlacesFit limit lineNumbers results → ∃ lines : List Text,
      render limit lineNumbers results = .ok (Text.join ['\n'] lines) ∧
      lines.length = 4 + (found results).length ∧
      (∀ line ∈ lines, line.length = 178) ∧
      ∀ (i : Nat) (file : Text) (occurrence : Occurrence),
        (found results)[i]? = some (file, occurrence) →
        lines[3 + i]? = some (line [
          shown 50 file,
          shown 25 (Path.name (.parse file)),
          shown 10 (if lineNumbers then
            Text.decimal occurrence.line ++ ':' :: Text.decimal occurrence.column else []),
          shown 80 occurrence.url])) ∧
    (¬PlacesFit limit lineNumbers results →
      render limit lineNumbers results = .error ⟨limit.getD 0⟩) ∧
    (limit = none → PlacesFit limit lineNumbers results) := by
  have guarded := rows_guarded limit lineNumbers results
  refine ⟨fun fit => ?_, fun unfit => ?_,
    fun unlimited => unlimited ▸ placesFit_none lineNumbers results⟩
  · let rows := (found results).map fun (file, o) => row (valuesOf lineNumbers file o)
    have someRow : rows ≠ [] := mt List.map_eq_nil_iff.mp someFound
    refine ⟨frame rows, ?_, ?_, ?_, ?_⟩
    · obtain ⟨first, others, isRows⟩ := List.exists_cons_of_ne_nil someRow
      have written : Table.rows limit lineNumbers results = .ok (first :: others) :=
        (guarded.ok fit).trans (congrArg _ isRows)
      rw [render, written, isRows]
      rfl
    · simp only [rows, frame, List.length_append, List.length_cons, List.length_nil,
        List.length_map]
      omega
    · refine fun line member => length_of_mem_frame (fun row inRows => ?_) member
      obtain ⟨⟨file, occurrence⟩, -, rfl⟩ := List.mem_map.mp inRows
      exact length_row rfl
    · intro i file occurrence place
      refine getElem?_frame ?_
      rw [List.getElem?_map, place, Option.map_some]
      exact congrArg some (row_eq_line _)
  · rw [render, guarded.error unfit]
    rfl

/-- A file of a long name with two occurrences, the second of a long URL far down in the file. -/
def longReport : List FileResult :=
  let longUrl := "https://example.org/".toList ++ List.replicate 70 'a'
  [⟨"notes.txt".toList, []⟩,
   ⟨"a-rather-long-file-name.py".toList,
    [⟨"http://a.example".toList, 1, 7, 6, 22, [], .string, by decide⟩,
     ⟨longUrl, 123456, 1234, 900000, 900090, [], .comment, by decide⟩]⟩]

/-- With six digits the lines and columns can be written, with five digits they cannot. -/
theorem render_lines_long :
    (∃ lines : List Text, render (some 6) true longReport = .ok (Text.join ['\n'] lines) ∧
      lines.length = 6 ∧ (∀ line ∈ lines, line.length = 178) ∧
      lines[4]? = some (line [
        "a-rather-long-file-name.py".toList ++ List.replicate 24 ' ',
        "a-rather-long-file-nam...".toList,
        "123456:...".toList,
        "https://example.org/".toList ++ List.replicate 57 'a' ++ "...".toList])) ∧
    render (some 5) true longReport = .error ⟨5⟩ := by
  have someFound : found longReport ≠ [] := by decide
  have fit : PlacesFit (some 6) true longReport := by decide +kernel
  have unfit : ¬PlacesFit (some 5) true longReport := by decide +kernel
  obtain ⟨lines, joined, number, lengths, row⟩ := (render_lines (some 6) true someFound).1 fit
  exact ⟨⟨lines, joined, number, lengths, row 1 _ _ rfl⟩,
    (render_lines (some 5) true someFound).2.1 unfit⟩

end UrlScan.Report.Table
