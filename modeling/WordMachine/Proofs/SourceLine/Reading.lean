import WordMachine.Proofs.Text.Words
import WordMachine.SourceLine

namespace WordMachine.SourceLine

@[simp] theorem text_read (t : Text) : (read t).text = t := rfl

def codeWords (t : Text) : List Text := Text.words (Text.cut ';' t).1

theorem read_eq (t : Text) :
    read t = {
      text := t
      label? := (splitLabel (codeWords t)).1
      op? := (splitLabel (codeWords t)).2.head?
      operands := operandsOf (splitLabel (codeWords t)).2.tail
      comment? := (Text.cut ';' t).2.map Text.trim } := rfl

theorem mem_and_ne_of_mem_codeWords {t w : Text} {c : Char} (hw : w ∈ codeWords t) (hc : c ∈ w) :
    c ∈ t ∧ c ≠ ';' := by
  have h := Text.mem_of_mem_words hw hc
  refine ⟨Text.mem_of_mem_cut_fst h, ?_⟩
  rintro rfl
  exact Text.not_mem_cut_fst ';' t h

/-- The label and the operation of a line are its first words; without a label the operation does
not look like one. -/
theorem codeWords_of_op? {t op : Text} (h : (read t).op? = some op) :
    (∃ label rest, (read t).label? = some label ∧ codeWords t = (label ++ [':']) :: op :: rest) ∨
      (∃ rest, (read t).label? = none ∧ codeWords t = op :: rest ∧ op.getLast? ≠ some ':') := by
  change (splitLabel (codeWords t)).2.head? = some op at h
  change (∃ label rest, (splitLabel (codeWords t)).1 = some label ∧ _) ∨
    (∃ rest, (splitLabel (codeWords t)).1 = none ∧ _)
  cases hw : codeWords t with
  | nil => simp [hw, splitLabel] at h
  | cons w ws =>
    by_cases hl : w.getLast? = some ':'
    · obtain ⟨label, rfl⟩ := List.getLast?_eq_some_iff.1 hl
      simp only [hw, splitLabel, hl, if_true] at h
      obtain ⟨rest, rfl⟩ := List.head?_eq_some_iff.1 h
      exact .inl ⟨label, rest, by simp [splitLabel], by simp⟩
    · simp only [hw, splitLabel, hl, if_false, List.head?_cons, Option.some.injEq] at h
      subst h
      exact .inr ⟨ws, by simp [splitLabel, hl], rfl, hl⟩

theorem op_mem_codeWords {t op : Text} (h : (read t).op? = some op) : op ∈ codeWords t := by
  rcases codeWords_of_op? h with ⟨label, rest, -, hw⟩ | ⟨rest, -, hw, -⟩
  · simp [hw]
  · simp [hw]

theorem label_mem_codeWords {t label : Text} (h : (read t).label? = some label) :
    label ++ [':'] ∈ codeWords t := by
  change (splitLabel (codeWords t)).1 = some label at h
  cases hw : codeWords t with
  | nil => simp [hw, splitLabel] at h
  | cons w ws =>
    by_cases hl : w.getLast? = some ':'
    · obtain ⟨l, rfl⟩ := List.getLast?_eq_some_iff.1 hl
      have : l = label := by simpa [hw, splitLabel] using h
      simp [this]
    · simp [hw, splitLabel, hl] at h

theorem mem_of_mem_splitLabel {ws : List Text} {w : Text} (h : w ∈ (splitLabel ws).2) : w ∈ ws := by
  cases ws with
  | nil => exact h
  | cons v ws =>
    rw [splitLabel] at h
    split at h
    · exact List.mem_cons_of_mem v h
    · exact h

theorem mem_operand {t w : Text} {c : Char} (hw : w ∈ (read t).operands) (hc : c ∈ w) :
    c = ' ' ∨ c ∈ t ∧ c ≠ ';' := by
  obtain ⟨piece, hp, rfl⟩ := List.mem_map.1 (List.mem_filter.1 hw).1
  have hj := Text.mem_of_mem_splitWhere hp (Text.mem_of_mem_trim hc)
  rcases Text.mem_of_mem_join hj with hs | ⟨v, hv, hcv⟩
  · exact .inl (by simpa using hs)
  · right
    -- The words that operands are made of follow the operation.
    have hsub : v ∈ codeWords t := mem_of_mem_splitLabel (List.mem_of_mem_tail hv)
    exact mem_and_ne_of_mem_codeWords hsub hcv

theorem mem_comment {t comment : Text} {c : Char} (h : (read t).comment? = some comment)
    (hc : c ∈ comment) : c ∈ t := by
  obtain ⟨rest, hr, rfl⟩ := Option.map_eq_some_iff.1 h
  exact Text.mem_of_mem_cut_snd hr (Text.mem_of_mem_trim hc)

def tailText (line : SourceLine) : Text :=
  (if line.operands.isEmpty then [] else ' ' :: Text.join [','] line.operands) ++
  (match line.comment? with
    | some (c :: rest) => ' ' :: ';' :: c :: rest
    | _ => [])

theorem write_eq (line : SourceLine) (op : Text) :
    line.write op =
      (match line.label? with
        | some label => label ++ ':' :: ' ' :: (op ++ line.tailText)
        | none => op ++ line.tailText) := by
  obtain ⟨_, label?, _, operands, comment?⟩ := line
  rcases comment? with _ | _ | _ <;> cases label? <;> simp [write, tailText]

theorem mem_operandText {t : Text} {c : Char} (h : c ∈ Text.join [','] (read t).operands) :
    c ∈ t ∧ c ≠ ';' ∨ c ∈ [' ', ','] := by
  rcases Text.mem_of_mem_join h with hs | ⟨w, hw, hc⟩
  · exact .inr (by simp_all)
  · rcases mem_operand hw hc with rfl | hc
    · exact .inr (by simp)
    · exact .inl hc

theorem mem_tailText {t : Text} {c : Char} (h : c ∈ (read t).tailText) :
    c ∈ t ∨ c ∈ [' ', ',', ';'] := by
  rw [tailText, List.mem_append] at h
  rcases h with h | h
  · split at h
    · simp at h
    · rcases List.mem_cons.1 h with rfl | h
      · simp
      · rcases mem_operandText h with h | h
        · exact .inl h.1
        · exact .inr (by simp at h ⊢; rcases h with rfl | rfl <;> simp)
  · split at h
    · next d rest hcomment =>
      rcases List.mem_cons.1 h with rfl | h
      · simp
      · rcases List.mem_cons.1 h with rfl | h
        · simp
        · exact .inl (mem_comment hcomment h)
    · simp at h

theorem mem_write {t op : Text} {c : Char} (hop : (read t).op? = some op)
    (h : c ∈ (read t).write op) : c ∈ t ∨ c ∈ [' ', ':', ',', ';'] := by
  have hrest : c ∈ op ++ (read t).tailText → c ∈ t ∨ c ∈ [' ', ':', ',', ';'] := by
    intro hc
    rcases List.mem_append.1 hc with hc | hc
    · exact .inl (mem_and_ne_of_mem_codeWords (op_mem_codeWords hop) hc).1
    · rcases mem_tailText hc with hc | hc
      · exact .inl hc
      · exact .inr (by simp at hc ⊢; tauto)
  rw [write_eq] at h
  split at h
  · next label hlabel =>
    rcases List.mem_append.1 h with hc | hc
    · have hw := label_mem_codeWords hlabel
      exact .inl (mem_and_ne_of_mem_codeWords hw (List.mem_append_left _ hc)).1
    · rcases List.mem_cons.1 hc with rfl | hc
      · simp
      · rcases List.mem_cons.1 hc with rfl | hc
        · simp
        · exact hrest hc
  · exact hrest h

theorem isLineBreak_eq_false_of_mem_write {t op : Text} (hop : (read t).op? = some op)
    (ht : ∀ c ∈ t, Text.isLineBreak c = false) :
    ∀ c ∈ (read t).write op, Text.isLineBreak c = false := by
  intro c hc
  rcases mem_write hop hc with hc | hc
  · exact ht c hc
  · simp only [List.mem_cons, List.not_mem_nil, or_false] at hc
    rcases hc with rfl | rfl | rfl | rfl <;> decide

end WordMachine.SourceLine
