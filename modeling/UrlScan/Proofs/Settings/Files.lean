import UrlScan.Proofs.Outcome
import UrlScan.Proofs.Settings.Decoding

/-!
# Configuration files

A configuration file is read by a reader, which takes its bytes for a value or finds a fault in them.
Here it is said, for any reader, what comes of a file: it cannot be passed over (`FileBreaks`), it
is passed over with a notice (`FileSkipped`), or its configuration is there. A reader may look at
all bytes first or stop at the first fault that it meets.

The reader of YAML looks at all bytes first. So the files that it cannot decode are those that are
not UTF-8, whatever else is wrong with them.

Results:
1. `readYaml_eq_ok_iff`, `readYaml_undecodable_iff`: the reader of YAML.
2. `readFileBy_breaks_iff`, `readFileBy_skips_iff`: what comes of a file.
3. `loadBy_read`, `loadBy_ok`: loading, if both files are read.
-/

namespace UrlScan.Settings

/-! ## The reader of YAML -/

theorem decodeFile_encode (t : Text) : decodeFile (Utf8.encode t) = .ok (Text.unifyLineEnds t) :=
  decodeFile_eq_ok_iff.mpr ⟨t, rfl, rfl⟩

theorem readYaml_encode (t : Text) :
    readYaml (Utf8.encode t) = (Yaml.read (Text.unifyLineEnds t)).mapError .ofYaml := by
  rw [readYaml, decodeFile_encode]

/-- A file is read if its bytes are those of a text that is. -/
theorem readYaml_eq_ok_iff {bytes : Bytes} {value : Value} :
    readYaml bytes = .ok value ↔
      ∃ t, bytes = Utf8.encode t ∧ Yaml.read (Text.unifyLineEnds t) = .ok value := by
  constructor
  · intro isRead
    unfold readYaml at isRead
    split at isRead
    next => cases isRead
    next t decoded =>
      obtain ⟨u, rfl, rfl⟩ := decodeFile_eq_ok_iff.mp decoded
      exact ⟨u, rfl, mapError_eq_ok_iff.mp isRead⟩
  · rintro ⟨t, rfl, isRead⟩
    rw [readYaml_encode, isRead]
    rfl

theorem readYaml_undecodable_iff {bytes : Bytes} :
    (∃ e, readYaml bytes = .error (.undecodable e)) ↔ ∀ t, bytes ≠ Utf8.encode t := by
  constructor
  · rintro ⟨e, undecodable⟩ t rfl
    rw [readYaml_encode] at undecodable
    obtain ⟨fault, -, same⟩ := mapError_eq_error_iff.mp undecodable
    cases fault <;> cases same
  · intro none
    unfold readYaml
    cases decoded : decodeFile bytes with
    | error e => exact ⟨e, rfl⟩
    | ok t =>
      obtain ⟨u, whole, -⟩ := decodeFile_eq_ok_iff.mp decoded
      exact absurd whole (none u)

/-! ## One file -/

/-- A configuration file that cannot be passed over: the system refuses to look for it, its bytes
cannot be decoded, or a scalar in it has no value. -/
inductive FileBreaks (reader : Reader) (fs : FileSystem) (path : Path) : SettingsError → Prop
  | refused {error : AccessError} : fs.pathExists path = .error error →
      FileBreaks reader fs path (.refused error)
  | undecodable {bytes : Bytes} {e : DecodeError} : fs.pathExists path = .ok true →
      fs.read path = .ok bytes → reader bytes = .error (.undecodable e) →
      FileBreaks reader fs path (.undecodable e)
  | scalar {bytes : Bytes} {fault : Yaml.ScalarFault} : fs.pathExists path = .ok true →
      fs.read path = .ok bytes → reader bytes = .error (.scalar fault) →
      FileBreaks reader fs path (.scalar fault)

/-- A configuration file that is passed over with a notice: it cannot be read, it is malformed, or
its value is something else than a mapping. -/
inductive FileSkipped (reader : Reader) (fs : FileSystem) (path : Path) :
    ConfigurationNotice → Prop
  | unreadable {fault : FileFault} : fs.pathExists path = .ok true → fs.read path = .error fault →
      FileSkipped reader fs path (.unreadable path fault.message)
  | malformed {bytes : Bytes} : fs.pathExists path = .ok true → fs.read path = .ok bytes →
      reader bytes = .error .malformed →
      FileSkipped reader fs path (.unreadable path malformed)
  | notMapping {bytes : Bytes} {value : Value} : fs.pathExists path = .ok true →
      fs.read path = .ok bytes → reader bytes = .ok value → value.isSet = true →
      (∀ entries, value ≠ .mapping entries) → FileSkipped reader fs path (.notMapping path)

section
variable {reader : Reader} {fs : FileSystem} {path : Path}

theorem readFileBy_breaks_iff {e : SettingsError} :
    readFileBy reader fs path = .error e ↔ FileBreaks reader fs path e := by
  constructor
  · intro failed
    unfold readFileBy at failed
    split at failed
    next error refused => cases failed; exact .refused refused
    next => cases failed
    next isThere =>
      split at failed
      next => cases failed
      next bytes isRead =>
        split at failed
        next => cases failed
        next e undecodable => cases failed; exact .undecodable isThere isRead undecodable
        next fault isFault => cases failed; exact .scalar isThere isRead isFault
        next => cases failed
        next => cases failed
  · intro broken
    cases broken with
    | refused refused => simp only [readFileBy, refused]
    | undecodable isThere isRead undecodable =>
      simp only [readFileBy, isThere, isRead, undecodable]
    | scalar isThere isRead isFault => simp only [readFileBy, isThere, isRead, isFault]

theorem readFileBy_skips_iff {notice : ConfigurationNotice} :
    readFileBy reader fs path = .ok ([], [notice]) ↔ FileSkipped reader fs path notice := by
  constructor
  · intro skipped
    unfold readFileBy at skipped
    split at skipped
    next => cases skipped
    next => cases skipped
    next isThere =>
      split at skipped
      next fault isFault => cases skipped; exact .unreadable isThere isFault
      next bytes isRead =>
        split at skipped
        next isMalformed => cases skipped; exact .malformed isThere isRead isMalformed
        next => cases skipped
        next => cases skipped
        next => cases skipped
        next value other isValue =>
          by_cases isSet : value.isSet = true
          · rw [if_pos isSet] at skipped
            cases skipped
            exact .notMapping isThere isRead isValue isSet other
          · rw [if_neg isSet] at skipped
            cases skipped
  · intro skipped
    cases skipped with
    | unreadable isThere isFault => simp only [readFileBy, isThere, isFault]
    | malformed isThere isRead isMalformed =>
      simp only [readFileBy, isThere, isRead, isMalformed]
    | @notMapping bytes value isThere isRead isValue isSet other =>
      cases value with
      | mapping entries => exact absurd rfl (other entries)
      | _ => simp only [readFileBy, isThere, isRead, isValue, isSet, if_true]

end

/-! ## Both files -/

section
variable {reader : Reader} {fs : FileSystem} {userFile projectDirectory : Path}
  {environment : Environment}

theorem loadBy_user_error {e : SettingsError} (failed : readFileBy reader fs userFile = .error e) :
    loadBy reader fs userFile projectDirectory environment = ⟨.error e, []⟩ := by
  simp only [loadBy, failed]

theorem loadBy_project_error {user : List (Scalar × Value)} {notices : List ConfigurationNotice}
    {e : SettingsError} (userRead : readFileBy reader fs userFile = .ok (user, notices))
    (failed : readFileBy reader fs (projectDirectory.child projectFile) = .error e) :
    loadBy reader fs userFile projectDirectory environment = ⟨.error e, notices⟩ := by
  simp only [loadBy, userRead, failed]

theorem loadBy_read {user project : List (Scalar × Value)}
    {userNotices projectNotices : List ConfigurationNotice}
    (userRead : readFileBy reader fs userFile = .ok (user, userNotices))
    (projectRead : readFileBy reader fs (projectDirectory.child projectFile) =
      .ok (project, projectNotices)) :
    loadBy reader fs userFile projectDirectory environment =
      ⟨ofLayers user project environment, userNotices ++ projectNotices⟩ := by
  simp only [loadBy, userRead, projectRead]

/-- Settings that are loaded are made of two configurations that are read. -/
theorem loadBy_ok {settings : Settings}
    (loaded : (loadBy reader fs userFile projectDirectory environment).settings = .ok settings) :
    ∃ user userNotices project projectNotices,
      readFileBy reader fs userFile = .ok (user, userNotices) ∧
      readFileBy reader fs (projectDirectory.child projectFile) = .ok (project, projectNotices) ∧
      ofLayers user project environment = .ok settings := by
  unfold loadBy at loaded
  split at loaded
  next => cases loaded
  next user userNotices userRead =>
    split at loaded
    next => cases loaded
    next project projectNotices projectRead =>
      exact ⟨user, userNotices, project, projectNotices, userRead, projectRead, loaded⟩

end

end UrlScan.Settings
