import UrlScan.Occurrence
import UrlScan.Proofs.Text.WholeNumbers

/-!
# Places that can be written

A report that shows lines and columns is written if all of them can be. A report without them shows
no number, so it is always written, whatever the lines and columns are.
-/

namespace UrlScan.Report

section
variable (limit : Option Nat) (lineNumbers : Bool)

/-- The line and the column of an occurrence can be written, if they are wanted. -/
def PlaceFits (o : Occurrence) : Prop :=
  lineNumbers = true → Text.Writable limit o.line ∧ Text.Writable limit o.column

/-- The lines and columns of a report can be written, if they are wanted. -/
def PlacesFit (results : List FileResult) : Prop :=
  ∀ result ∈ results, ∀ o ∈ result.urls, PlaceFits limit lineNumbers o

instance (o : Occurrence) : Decidable (PlaceFits limit lineNumbers o) :=
  inferInstanceAs (Decidable (_ → _))

instance (results : List FileResult) : Decidable (PlacesFit limit lineNumbers results) :=
  inferInstanceAs (Decidable (∀ result ∈ results, ∀ o ∈ result.urls, _))

end

variable {limit : Option Nat} {lineNumbers : Bool}

theorem placesFit_none (lineNumbers : Bool) (results : List FileResult) :
    PlacesFit none lineNumbers results :=
  fun _ _ o _ _ => ⟨Text.writable_none o.line, Text.writable_none o.column⟩

/-- What is written for each occurrence is written for all of them if their places can be. -/
theorem mapM_places_guarded {α : Type} {step : Text → Occurrence → Except Text.TooManyDigits α}
    {written : Text → Occurrence → α} {e : Text.TooManyDigits}
    (guarded : ∀ file o, Guarded (step file o) (PlaceFits limit lineNumbers o) (written file o) e)
    (results : List FileResult) :
    Guarded (results.mapM fun result => result.urls.mapM (step result.file))
      (PlacesFit limit lineNumbers results)
      (results.map fun result => result.urls.map (written result.file)) e :=
  mapM_guarded fun result _ => mapM_guarded fun o _ => guarded result.file o

end UrlScan.Report
