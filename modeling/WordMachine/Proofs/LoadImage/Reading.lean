import WordMachine.LoadImage
import WordMachine.Proofs.Results
import WordMachine.Proofs.Text.Spread

namespace WordMachine.LoadImage

open Text (trim words)

/-- What is wrong with a line that is neither silent nor a record: it has too few fields, or one of
its first two is no number. The first that is none is named. -/
inductive Malformed (line : Text) : Cause → Prop
  | missingFields (hsilent : isSilent (trim line) = false) (hwords : (words line).length < 2) :
    Malformed line (.missingFields (trim line))
  | address {address word : Text} {rest : List Text} (hsilent : isSilent (trim line) = false)
    (hwords : words line = address :: word :: rest)
    (haddress : ∀ v, Numeral.readNumber address ≠ .ok v) : Malformed line (.badRecord address)
  | word {address word : Text} {rest : List Text} {v : Int} (hsilent : isSilent (trim line) = false)
    (hwords : words line = address :: word :: rest) (haddress : Numeral.readNumber address = .ok v)
    (hword : ∀ v, Numeral.readNumber word ≠ .ok v) : Malformed line (.badRecord word)

theorem Malformed.kind {line : Text} {cause : Cause} (h : Malformed line cause) :
    cause.kind = .loadFile := by
  cases h <;> rfl

theorem Malformed.numbers {line : Text} {cause : Cause} (h : Malformed line cause) :
    cause.numbers = [] := by
  cases h <;> rfl

def WellFormed (line : Text) : Prop := ∀ cause, ¬ Malformed line cause

theorem malformed_or_wellFormed (line : Text) :
    (∃ cause, Malformed line cause) ∨ WellFormed line := by
  rw [WellFormed, ← not_exists]
  exact Classical.em _

theorem number_eq_ok {token : Text} {v : Int} :
    number token = .ok v ↔ Numeral.readNumber token = .ok v :=
  mapError_eq_ok

theorem number_eq_error_iff {token : Text} {cause : Cause} :
    number token = .error cause ↔
      cause = .badRecord token ∧ ∀ v, Numeral.readNumber token ≠ .ok v := by
  constructor
  · intro h
    obtain ⟨e, he, rfl⟩ := mapError_eq_error.1 h
    refine ⟨rfl, fun v hv => ?_⟩
    rw [hv] at he
    cases he
  · rintro ⟨rfl, hnone⟩
    cases hread : Numeral.readNumber token with
    | ok v => exact absurd hread (hnone v)
    | error e =>
      rw [number, hread]
      rfl

section Line

variable {line : Text}

theorem readLine_of_isSilent (h : isSilent (trim line) = true) : readLine line = .ok none := by
  rw [readLine]
  exact if_pos h

theorem readLine_of_words {address word : Text} {rest : List Text}
    (hsilent : isSilent (trim line) = false) (hwords : words line = address :: word :: rest) :
    readLine line = do
      let address ← number address
      let word ← number word
      return some ⟨address, word⟩ := by
  rw [readLine]
  simp only [hsilent, Text.words_trim, hwords, Bool.false_eq_true, if_false]

theorem readLine_of_length_lt (hsilent : isSilent (trim line) = false)
    (hwords : (words line).length < 2) : readLine line = .error (.missingFields (trim line)) := by
  rw [readLine]
  simp only [hsilent, Text.words_trim, Bool.false_eq_true, if_false]
  match hw : words line with
  | [] | [_] => rfl
  | _ :: _ :: rest =>
    rw [hw, List.length_cons, List.length_cons] at hwords
    omega

/-- The lines that are no record are the malformed ones. -/
theorem readLine_eq_error_iff {cause : Cause} :
    readLine line = .error cause ↔ Malformed line cause := by
  constructor
  · intro h
    cases hsilent : isSilent (trim line) with
    | true =>
      rw [readLine_of_isSilent hsilent] at h
      cases h
    | false =>
      by_cases hlength : (words line).length < 2
      · rw [readLine_of_length_lt hsilent hlength] at h
        cases h
        exact .missingFields hsilent hlength
      · obtain ⟨address, word, rest, hwords⟩ :
            ∃ address word rest, words line = address :: word :: rest := by
          match hw : words line with
          | address :: word :: rest => exact ⟨address, word, rest, rfl⟩
          | [_] | [] => simp [hw] at hlength
        rw [readLine_of_words hsilent hwords] at h
        -- The address is read before the word.
        obtain haddress | ⟨v, hv, h⟩ := bind_eq_error.1 h
        · obtain ⟨rfl, hnone⟩ := number_eq_error_iff.1 haddress
          exact .address hsilent hwords hnone
        · obtain hword | ⟨_, -, h⟩ := bind_eq_error.1 h
          · obtain ⟨rfl, hnone⟩ := number_eq_error_iff.1 hword
            exact .word hsilent hwords (number_eq_ok.1 hv) hnone
          · cases h
  · intro h
    cases h with
    | missingFields hsilent hwords => exact readLine_of_length_lt hsilent hwords
    | address hsilent hwords haddress =>
      rw [readLine_of_words hsilent hwords, number_eq_error_iff.2 ⟨rfl, haddress⟩]
      rfl
    | word hsilent hwords haddress hword =>
      rw [readLine_of_words hsilent hwords, number_eq_ok.2 haddress,
        number_eq_error_iff.2 ⟨rfl, hword⟩]
      rfl

end Line

def recordsOf (line : Text) : LoadImage := ((readLine line).toOption.bind id).toList

section Lines

variable {before : Nat} {line : Text} {ls : List Text}

theorem readLines_cons_of_malformed {cause : Cause} (h : Malformed line cause) :
    readLines before (line :: ls) = .error (.reported cause (some (before + 1 : Nat))) := by
  have hline := readLine_eq_error_iff.2 h
  rw [readLines, hline, ← Failure.report_of_numbers_eq_nil h.numbers]
  rfl

theorem readLines_cons_of_wellFormed (h : WellFormed line) :
    readLines before (line :: ls) = (recordsOf line ++ ·) <$> readLines (before + 1) ls := by
  cases hline : readLine line with
  | error cause => exact absurd (readLine_eq_error_iff.1 hline) (h cause)
  | ok record? =>
    rw [readLines, recordsOf, hline]
    rfl

/-- What reading comes to: the records of all lines, or a report of the first malformed one. -/
inductive ReadOutcome (before : Nat) (ls : List Text) : Except Failure LoadImage → Prop
  | read (h : ∀ line ∈ ls, WellFormed line) :
    ReadOutcome before ls (.ok (ls.flatMap recordsOf))
  | malformed {wellFormed rest : List Text} {line : Text} {cause : Cause}
    (hls : ls = wellFormed ++ line :: rest)
    (hbefore : ∀ l ∈ wellFormed, WellFormed l) (h : Malformed line cause)
    (hkind : cause.kind = .loadFile) :
    ReadOutcome before ls (.error (.reported cause (some (before + wellFormed.length + 1 : Nat))))

theorem readOutcome (before : Nat) (ls : List Text) :
    ReadOutcome before ls (readLines before ls) := by
  induction ls generalizing before with
  | nil => exact .read (List.forall_mem_nil _)
  | cons line ls ih =>
    rcases malformed_or_wellFormed line with ⟨cause, h⟩ | h
    · rw [readLines_cons_of_malformed h]
      have hls : line :: ls = [] ++ line :: ls := rfl
      exact .malformed hls (List.forall_mem_nil _) h h.kind
    · rw [readLines_cons_of_wellFormed h]
      have hrest := ih (before + 1)
      generalize readLines (before + 1) ls = result at hrest
      cases hrest with
      | read hls => exact .read (List.forall_mem_cons.2 ⟨h, hls⟩)
      | @malformed wellFormed rest line' cause hls hbefore hline hkind =>
        have houtcome : ReadOutcome before (line :: ls) (.error (.reported cause
            (some (before + (line :: wellFormed).length + 1 : Nat)))) :=
          .malformed (by rw [hls]; rfl) (List.forall_mem_cons.2 ⟨h, hbefore⟩) hline hkind
        rw [List.length_cons, show before + (wellFormed.length + 1) + 1 =
          before + 1 + wellFormed.length + 1 by omega] at houtcome
        exact houtcome

theorem readLines_of_wellFormed (h : ∀ line ∈ ls, WellFormed line) :
    readLines before ls = .ok (ls.flatMap recordsOf) := by
  have houtcome := readOutcome before ls
  generalize readLines before ls = result at houtcome
  cases houtcome with
  | read _ => rfl
  | malformed hls _ hline _ => exact absurd hline (h _ (by rw [hls]; simp) _)

end Lines

end WordMachine.LoadImage
