import WordMachine.Proofs.LoadImage.Reading
import WordMachine.Text.Lines

namespace WordMachine

/-- The failure as it is reported where the text has that many more lines in front. -/
def Failure.below (lines : Nat) : Failure → Failure
  | .reported cause (some line) => .reported cause (some (line + lines))
  | failure => failure

namespace LoadImage

open Text (EndsLine)

section Lines

variable {before : Nat} {ls : List Text}

/-- The lines of a text that goes on are read after those of the text. -/
theorem readLines_append (ms : List Text) :
    readLines before (ls ++ ms) = readLines before ls >>= fun records =>
      (records ++ ·) <$> readLines (before + ls.length) ms := by
  induction ls generalizing before with
  | nil =>
    rw [List.nil_append, readLines, List.length_nil, Nat.add_zero]
    exact (id_map _).symm
  | cons line ls ih =>
    rw [List.cons_append]
    rcases malformed_or_wellFormed line with ⟨cause, h⟩ | h
    · rw [readLines_cons_of_malformed h, readLines_cons_of_malformed h]
      rfl
    · rw [readLines_cons_of_wellFormed h, readLines_cons_of_wellFormed h, ih,
        List.length_cons, show before + (ls.length + 1) = before + 1 + ls.length by omega]
      cases readLines (before + 1) ls with
      | error f => rfl
      | ok records =>
        cases readLines (before + 1 + ls.length) ms with
        | error f => rfl
        | ok more => exact congrArg Except.ok (List.append_assoc _ _ _).symm

/-- Lines in front of a text move the line that is reported and nothing else. -/
theorem readLines_add (lines : Nat) :
    readLines (before + lines) ls = (readLines before ls).mapError (Failure.below lines) := by
  induction ls generalizing before with
  | nil => rfl
  | cons line ls ih =>
    rcases malformed_or_wellFormed line with ⟨cause, h⟩ | h
    · rw [readLines_cons_of_malformed h, readLines_cons_of_malformed h, Except.mapError,
        Failure.below, ← Int.natCast_add, show before + 1 + lines = before + lines + 1 by omega]
    · rw [readLines_cons_of_wellFormed h, readLines_cons_of_wellFormed h,
        show before + lines + 1 = before + 1 + lines by omega, ih]
      cases readLines (before + 1) ls <;> rfl

end Lines

variable {a : Text}

theorem read_append (ha : EndsLine a) (b : Text) :
    read (a ++ b) = read a >>= fun records =>
      (records ++ ·) <$> (read b).mapError (Failure.below (Text.lines a).length) := by
  rw [read, Text.lines_append ha, readLines_append, readLines_add]
  rfl

/-- A load text that goes on is read as its parts are, and of any load text the first malformed line
is reported. -/
theorem read_append_located (ha : EndsLine a) (b : Text) :
    (∀ f, read a = .error f → read (a ++ b) = .error f) ∧
    (∀ records, read a = .ok records →
      (∀ cause line, read b = .error (.reported cause (some line)) →
        read (a ++ b) = .error (.reported cause (some (line + (Text.lines a).length)))) ∧
      ∀ more, read b = .ok more → read (a ++ b) = .ok (records ++ more)) ∧
    ∀ text, ReadOutcome 0 (Text.lines text) (read text) := by
  refine ⟨fun f hf => ?_, fun records hrecords => ⟨fun cause line hb => ?_, fun more hb => ?_⟩,
    fun text => readOutcome 0 (Text.lines text)⟩
  · rw [read_append ha, hf]
    rfl
  · rw [read_append ha, hrecords, hb]
    rfl
  · rw [read_append ha, hrecords, hb]
    rfl

/-- A record, a comment, and a further text with a malformed second line. -/
theorem read_append_malformed :
    EndsLine "6 1\n# c\n".toList ∧ read "6 1\n# c\n".toList = .ok [⟨6, 1⟩] ∧
    read "10 2\n7 x\n".toList = .error (.reported (.badRecord "x".toList) (some 2)) ∧
    read ("6 1\n# c\n".toList ++ "10 2\n7 x\n".toList) =
      .error (.reported (.badRecord "x".toList) (some 4)) := by
  have hends : EndsLine "6 1\n# c\n".toList := .inr rfl
  have ha : read "6 1\n# c\n".toList = .ok [⟨6, 1⟩] := rfl
  have hb : read "10 2\n7 x\n".toList = .error (.reported (.badRecord "x".toList) (some 2)) := rfl
  exact ⟨hends, ha, hb, ((read_append_located hends "10 2\n7 x\n".toList).2.1 _ ha).1 _ _ hb⟩

end LoadImage
end WordMachine
