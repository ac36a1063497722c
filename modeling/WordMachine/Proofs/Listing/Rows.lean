import WordMachine.Proofs.Assembly.Settled
import WordMachine.Proofs.Numeral.Columns
import WordMachine.Proofs.SourceLine.Writing

namespace WordMachine

/-- Whether a word names an operation of the machine rather than a directive or a data word. -/
def namesInstruction (op : Text) : Bool := !Layout.isLoc op && !Emission.isData op

theorem instructionAddress?_eq {line digits source : Text} (htake : line.take 6 = digits)
    (hdrop : line.drop 16 = source) :
    instructionAddress? line =
      if digits.length = 6 ∧ digits.all Numeral.isOctalDigit then
        ((operationWord? source).filter namesInstruction).map fun _ => Numeral.ofOctalDigits digits
      else none := by
  subst htake hdrop
  simp only [instructionAddress?]
  split
  · cases hw : operationWord? (line.drop 16) with
    | none => rfl
    | some op =>
      have hname : namesInstruction op = true ↔
          ¬(Text.upper op = "LOC".toList ∨ Text.upper op = "DATA".toList) := by
        simp [namesInstruction, Layout.isLoc, Emission.isData]
      by_cases h : Text.upper op = "LOC".toList ∨ Text.upper op = "DATA".toList
      · rw [Option.filter_some, if_neg fun hn => hname.1 hn h]
        exact if_pos h
      · rw [Option.filter_some, if_pos (hname.2 h)]
        exact if_neg h
  · rfl

namespace ListingRow

theorem take_text_columns {address word : Text} (source : Text) (ha : address.length ≤ 6) :
    (columns address word source).text.take 6 = Text.padRight 6 address := by
  have hl : (Text.padRight 6 address).length = 6 := by rw [Text.length_padRight]; omega
  rw [text, List.append_assoc, List.append_assoc, List.append_assoc, List.take_left' hl]

theorem drop_text_columns {address word : Text} (source : Text) (ha : address.length ≤ 6)
    (hw : word.length ≤ 6) : (columns address word source).text.drop 16 = source := by
  have hl : (Text.padRight 6 address ++ [' ', ' '] ++ Text.padRight 6 word ++ [' ', ' ']).length
      = 16 := by
    simp only [List.length_append, Text.length_padRight, List.length_cons, List.length_nil]
    omega
  rw [text, List.drop_left' hl]

/-- A row with an address shows it, unless its source is a directive or a data word. -/
theorem instructionAddress?_columns (address word : Int) (source : Text) :
    instructionAddress?
        (columns (Numeral.octalColumn address) (Numeral.octalColumn word) source).text =
      ((operationWord? source).filter namesInstruction).map fun _ =>
        (address % 0o1000000).toNat := by
  have hpad : Text.padRight 6 (Numeral.octalColumn address) = Numeral.octalColumn address := by
    simp [Text.padRight]
  have hvalue : Numeral.ofOctalDigits (Numeral.octalColumn address) =
      (address % 0o1000000).toNat := by
    rw [← Numeral.ofOctalDigits_octalColumn, Int.toNat_natCast]
  rw [instructionAddress?_eq (take_text_columns source (by simp))
    (drop_text_columns source (by simp) (by simp)), hpad, hvalue, if_pos]
  exact ⟨by simp, Numeral.all_isOctalDigit_octalColumn address⟩

theorem isLineBreak_eq_false_of_mem_text_columns {address word source : Text} {c : Char}
    (ha : ∀ c ∈ address, Text.isBlank c = false) (hw : ∀ c ∈ word, Text.isBlank c = false)
    (hs : ∀ c ∈ source, Text.isLineBreak c = false)
    (hc : c ∈ (columns address word source).text) : Text.isLineBreak c = false := by
  have hpad {t : Text} (ht : ∀ c ∈ t, Text.isBlank c = false) (hc : c ∈ Text.padRight 6 t) :
      Text.isLineBreak c = false := by
    rcases List.mem_append.1 hc with hc | hc
    · exact Text.isLineBreak_eq_false_of_isBlank (ht c hc)
    · rw [List.eq_of_mem_replicate hc]
      decide
  have hspaces (hc : c ∈ [' ', ' ']) : Text.isLineBreak c = false := by
    simp only [List.mem_cons, List.not_mem_nil, or_false, or_self] at hc
    rw [hc]
    decide
  simp only [text, List.mem_append] at hc
  rcases hc with (((hc | hc) | hc) | hc) | hc
  · exact hpad ha hc
  · exact hspaces hc
  · exact hpad hw hc
  · exact hspaces hc
  · exact hs c hc

theorem instructionAddress?_blank (source : Text) :
    instructionAddress? (columns [] [] source).text = none := by
  rw [instructionAddress?_eq (take_text_columns source (by simp)) rfl, if_neg]
  decide

end ListingRow

namespace PlacedLine

variable {p : PlacedLine}

theorem drop_text_row {op : Text} (h : p.line.op? = some op) :
    p.row.text.drop 16 = p.line.write op := by
  rw [row, h]
  cases p.record? with
  | none => exact ListingRow.drop_text_columns _ (by simp) (by simp)
  | some r => exact ListingRow.drop_text_columns _ (by simp) (by simp)

theorem text_row (h : p.line.op? = none) : p.row.text = p.line.text := by
  rw [row, h]
  rfl

end PlacedLine

namespace SourceLine

/-- The word that a listing is searched for is the operation that is read from a line. -/
theorem operationWord?_eq_op? (t : Text) : operationWord? t = (read t).op? := by
  rw [operationWord?, read_eq, codeWords]
  cases Text.words (Text.cut ';' t).1 with
  | nil => rfl
  | cons word rest =>
    by_cases hl : word.getLast? = some ':' <;> simp [splitLabel, hl]

theorem operationWord?_write {t op : Text} (h : (read t).op? = some op) :
    operationWord? ((read t).write op) = some op := by
  rw [operationWord?_eq_op?, read_write h (readable_read h), op?_canonical, h]

/-- The address in a decoy: a line without an operation that a reader of the listing takes for an
instruction. -/
def decoyAddress? (line : SourceLine) : Option Nat :=
  match line.op?, Text.cut ';' line.text with
  | none, (before, some after) =>
    if before.length < 16 ∧ (line.text.take 6).length = 6 ∧
        (line.text.take 6).all Numeral.isOctalDigit then
      ((operationWord? (after.drop (15 - before.length))).filter namesInstruction).map fun _ =>
        Numeral.ofOctalDigits (line.text.take 6)
    else none
  | _, _ => none

def LabelOnly (t : Text) : Prop :=
  (Text.words t).tail = [] ∧ ∀ w ∈ Text.words t, w.getLast? = some ':'

theorem LabelOnly.of_cons {c : Char} {t : Text} (h : LabelOnly (c :: t)) : LabelOnly t := by
  by_cases hc : Text.isBlank c = true
  · rwa [LabelOnly, Text.words_cons_of_isBlank t hc] at h
  · obtain ⟨p, ps, hp⟩ := List.exists_cons_of_ne_nil (Text.splitWhere_ne_nil Text.isBlank t)
    have hcons : Text.words (c :: t) = (c :: p) :: ps.filter (!·.isEmpty) := by
      simp [Text.words, Text.splitWhere, hc, hp]
    have hps : ps.filter (!·.isEmpty) = [] := by simpa [hcons] using h.1
    have hlast : (c :: p).getLast? = some ':' := h.2 _ (by simp [hcons])
    have hwords : Text.words t = if p.isEmpty then [] else [p] := by
      rw [Text.words, hp, List.filter_cons, hps]
      cases p <;> rfl
    rw [LabelOnly, hwords]
    cases p with
    | nil => simp
    | cons d p => simpa [List.getLast?_cons_cons] using hlast

theorem LabelOnly.drop {t : Text} (h : LabelOnly t) (n : Nat) : LabelOnly (t.drop n) := by
  induction n generalizing t with
  | zero => exact h
  | succ n ih =>
    cases t with
    | nil => exact h
    | cons c t => exact ih h.of_cons

theorem labelOnly_of_op? {t : Text} (h : (read t).op? = none) : LabelOnly (Text.cut ';' t).1 := by
  change (splitLabel (codeWords t)).2.head? = none at h
  rw [List.head?_eq_none_iff] at h
  change (codeWords t).tail = [] ∧ ∀ w ∈ codeWords t, w.getLast? = some ':'
  cases hw : codeWords t with
  | nil => simp
  | cons w ws =>
    rw [hw, splitLabel] at h
    split at h
    · next hl =>
      simp only at h
      subst h
      simp [hl]
    · cases h

theorem operationWord?_of_labelOnly {t : Text} (h : LabelOnly (Text.cut ';' t).1) :
    operationWord? t = none := by
  rw [operationWord?]
  cases hw : Text.words (Text.cut ';' t).1 with
  | nil => rfl
  | cons w ws =>
    have hws : ws = [] := by simpa [LabelOnly, hw] using h.1
    have hl : w.getLast? = some ':' := h.2 w (by simp [hw])
    simp [hl, hws]

/-- From column 16 on stands no operation if the comment begins there or later. -/
theorem operationWord?_drop_of_labelOnly {before rest : Text} (hb : LabelOnly before)
    (hs : ';' ∉ before) (hrest : (Text.cut ';' rest).1 = [])
    (hlen : 16 ≤ before.length ∨ rest = []) : operationWord? ((before ++ rest).drop 16) = none := by
  apply operationWord?_of_labelOnly
  have hdrop : (before ++ rest).drop 16 = before.drop 16 ++ rest := by
    rcases hlen with hlen | rfl
    · exact List.drop_append_of_le_length hlen
    · simp
  rw [hdrop, Text.cut_append_fst _ fun hc => hs (List.mem_of_mem_drop hc), hrest, List.append_nil]
  exact hb.drop 16

/-- A line without an operation is taken for an instruction exactly if it is a decoy. -/
theorem instructionAddress?_of_op? {t : Text} (h : (read t).op? = none) :
    instructionAddress? t = (read t).decoyAddress? := by
  have hlabel := labelOnly_of_op? h
  have hsemi := Text.not_mem_cut_fst ';' t
  have ht := Text.cut_eq ';' t
  -- The decoy of a line is told by the text that the line is read from.
  change _ = match (read t).op?, Text.cut ';' t with
    | none, (before, some after) =>
      if before.length < 16 ∧ (t.take 6).length = 6 ∧ (t.take 6).all Numeral.isOctalDigit then
        ((operationWord? (after.drop (15 - before.length))).filter namesInstruction).map fun _ =>
          Numeral.ofOctalDigits (t.take 6)
      else none
    | _, _ => none
  rw [h, instructionAddress?_eq rfl rfl]
  -- Column 16 is behind the line, inside its comment or before it.
  rcases hcut : Text.cut ';' t with ⟨before, _ | after⟩
  · rw [hcut] at ht hlabel hsemi
    have hnone := operationWord?_drop_of_labelOnly hlabel hsemi (Text.cut_nil ';') (.inr rfl)
    rw [← ht] at hnone
    simp [hnone]
  · rw [hcut] at ht hlabel hsemi
    simp only at ht hlabel hsemi
    by_cases hlen : before.length < 16
    · have hdrop : t.drop 16 = after.drop (15 - before.length) := by
        rw [ht, List.drop_append, List.drop_eq_nil_of_le (by omega), List.nil_append,
          show 16 - before.length = (15 - before.length) + 1 by omega, List.drop_succ_cons]
      simp [hlen, hdrop]
    · have hcut' : (Text.cut ';' (';' :: after)).1 = [] := by simp [Text.cut]
      have hnone := operationWord?_drop_of_labelOnly hlabel hsemi hcut'
        (.inl (Nat.le_of_not_lt hlen))
      rw [← ht] at hnone
      simp [hlen, hnone]

end SourceLine
end WordMachine
