import WordMachine.Files.Reading
import WordMachine.Proofs.Files.System
import WordMachine.Proofs.LoadImage.Reading

namespace WordMachine

namespace FileTree

variable {t : FileTree} {path : Text}

theorem readFile_of_null (h : '\x00' ∈ path) : t.readFile path = .error .nullCharacter :=
  if_pos h

theorem readText_of_null (h : '\x00' ∈ path) : t.readText path = .error (.aborted .nullInPath) := by
  simp only [FileSystem.readText, readFile_eq, readFile_of_null h]

theorem readText_eq_error {f : Failure} (hpath : '\x00' ∉ path)
    (h : t.readText path = .error f) : ∃ cause, f = .reported cause none ∧ cause.kind = .io := by
  have hfile : t.readFile path ≠ .error .nullCharacter := checked_ne_nullCharacter hpath _
  rw [readText, FileSystem.readText, readFile_eq] at h
  split at h
  · next e _ =>
    cases h
    exact ⟨.cannotRead path e, Failure.report_of_numbers_eq_nil rfl none, rfl⟩
  · next hnull => exact absurd hnull hfile
  · split at h
    · cases h
    · next e _ =>
      cases h
      exact ⟨.cannotDecode path e, Failure.report_of_numbers_eq_nil rfl none, rfl⟩

end FileTree

namespace LoadImage

theorem readLines_eq_error {before : Nat} {lines : List Text} {f : Failure}
    (h : readLines before lines = .error f) :
    ∃ cause line, f = .reported cause (some line) ∧ cause.kind = .loadFile := by
  have houtcome := readOutcome before lines
  rw [h] at houtcome
  cases houtcome with
  | malformed _ _ _ hkind => exact ⟨_, _, rfl, hkind⟩

theorem ofFile_of_null {t : FileTree} {path : Text} (h : '\x00' ∈ path) :
    ofFile t path = .error (.aborted .nullInPath) := by
  rw [ofFile, FileTree.readText_of_null h]
  rfl

/-- A load file whose path holds no null character is read, or the failure is reported. -/
theorem ofFile_eq_error {t : FileTree} {path : Text} {f : Failure} (hpath : '\x00' ∉ path)
    (h : ofFile t path = .error f) :
    ∃ cause line?, f = .reported cause line? ∧ (cause.kind = .io ∨ cause.kind = .loadFile) := by
  obtain htext | ⟨text, -, h⟩ := bind_eq_error.1 h
  · obtain ⟨cause, rfl, hkind⟩ := FileTree.readText_eq_error hpath htext
    exact ⟨cause, none, rfl, .inl hkind⟩
  · obtain ⟨cause, line, rfl, hkind⟩ := readLines_eq_error h
    exact ⟨cause, some line, rfl, .inr hkind⟩

end LoadImage
end WordMachine
