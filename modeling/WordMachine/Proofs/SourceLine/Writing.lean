import WordMachine.Proofs.SourceLine.Reading
import WordMachine.Proofs.Text.Spacing

namespace WordMachine.SourceLine

structure IsCodeWord (w : Text) : Prop where
  ne_nil : w ≠ []
  blank : ∀ c ∈ w, Text.isBlank c = false
  semicolon : ';' ∉ w

theorem isCodeWord_of_all {w : Text} (hne : w ≠ [])
    (h : w.all (fun c => !Text.isBlank c && c != ';') = true) : IsCodeWord w := by
  have hall : ∀ c ∈ w, Text.isBlank c = false ∧ c ≠ ';' := by simpa using h
  exact ⟨hne, fun c hc => (hall c hc).1, fun hc => (hall ';' hc).2 rfl⟩

theorem isCodeWord_of_mem_codeWords {t w : Text} (h : w ∈ codeWords t) : IsCodeWord w where
  ne_nil := Text.ne_nil_of_mem_words h
  blank _ hc := Text.isBlank_eq_false_of_mem_words h hc
  semicolon hc := (mem_and_ne_of_mem_codeWords h hc).2 rfl

/-- A line with the operation `op` whose parts are told apart when they are written in a row. -/
structure Readable (line : SourceLine) (op : Text) : Prop where
  colon : line.label? = none → op.getLast? ≠ some ':'
  label : ∀ label ∈ line.label?, IsCodeWord (label ++ [':'])
  operation : IsCodeWord op
  singleSpaced : ∀ w ∈ line.operands, Text.SingleSpaced w
  separators : ∀ w ∈ line.operands, ',' ∉ w ∧ ';' ∉ w
  comment : ∀ c ∈ line.comment?, Text.trim c = c

theorem readable_read {t op : Text} (h : (read t).op? = some op) : (read t).Readable op where
  label label hlabel := isCodeWord_of_mem_codeWords (label_mem_codeWords hlabel)
  operation := isCodeWord_of_mem_codeWords (op_mem_codeWords h)
  colon hnone := by
    rcases codeWords_of_op? h with ⟨label, rest, hlabel, -⟩ | ⟨rest, -, -, hcolon⟩
    · rw [hnone] at hlabel
      cases hlabel
    · exact hcolon
  singleSpaced w hw := by
    obtain ⟨hpiece, hne⟩ := List.mem_filter.1 hw
    obtain ⟨piece, hp, rfl⟩ := List.mem_map.1 hpiece
    -- The piece is cut out of the words that follow the operation.
    apply Text.singleSpaced_trim (fun v hv => ?_) (Text.isInfix_of_mem_splitWhere hp)
    · simpa using hne
    · have hword := isCodeWord_of_mem_codeWords (mem_of_mem_splitLabel (List.mem_of_mem_tail hv))
      exact ⟨hword.ne_nil, hword.blank⟩
  separators w hw := by
    obtain ⟨piece, hp, rfl⟩ := List.mem_map.1 (List.mem_filter.1 hw).1
    constructor
    · intro hcomma
      have hsep := Text.sep_eq_false_of_mem_splitWhere hp (Text.mem_of_mem_trim hcomma)
      cases hsep
    · intro hsemi
      rcases mem_operand hw hsemi with hspace | ⟨-, hne⟩
      · cases hspace
      · exact hne rfl
  comment c hc := by
    obtain ⟨rest, -, rfl⟩ := Option.map_eq_some_iff.1 hc
    exact Text.trim_trim rest

def keptComment? (line : SourceLine) : Option Text := line.comment?.filter (!·.isEmpty)

def codeText (line : SourceLine) (op : Text) : Text :=
  (match line.label? with
    | some label => label ++ [':', ' ']
    | none => []) ++ op ++
  (if line.operands.isEmpty then [] else ' ' :: Text.join [','] line.operands)

theorem write_eq_codeText (line : SourceLine) (op : Text) :
    line.write op = line.codeText op ++
      match line.keptComment? with
      | some comment => ' ' :: ';' :: comment
      | none => [] := by
  obtain ⟨_, _, _, _, comment?⟩ := line
  rcases comment? with _ | _ | _ <;> rfl

/-- What can stand before the comment of a line: no other blank than a space. -/
def IsCodeChar (c : Char) : Prop := c = ' ' ∨ Text.isBlank c = false ∧ c ≠ ';'

theorem IsCodeWord.isCodeChar {w : Text} (h : IsCodeWord w) : ∀ c ∈ w, IsCodeChar c :=
  fun c hc => .inr ⟨h.blank c hc, fun he => h.semicolon (he ▸ hc)⟩

theorem IsCodeChar.isLineBreak_eq_false {c : Char} (h : IsCodeChar c) :
    Text.isLineBreak c = false := by
  rcases h with rfl | ⟨hblank, -⟩
  · decide
  · exact Text.isLineBreak_eq_false_of_isBlank hblank

theorem isCodeChar_of_mem_codeText {line : SourceLine} {op : Text}
    (hlabel : ∀ label ∈ line.label?, IsCodeWord (label ++ [':'])) (hop : ∀ c ∈ op, IsCodeChar c)
    (hoperands : ∀ w ∈ line.operands, ∀ c ∈ w, IsCodeChar c) :
    ∀ c ∈ line.codeText op, IsCodeChar c := by
  intro c hc
  rw [codeText, List.mem_append, List.mem_append] at hc
  rcases hc with (hc | hc) | hc
  · split at hc
    · next label h =>
      rw [show label ++ [':', ' '] = (label ++ [':']) ++ [' '] by simp, List.mem_append] at hc
      rcases hc with hc | hc
      · exact (hlabel label h).isCodeChar c hc
      · exact .inl (List.mem_singleton.1 hc)
    · cases hc
  · exact hop c hc
  · split at hc
    · cases hc
    · rcases List.mem_cons.1 hc with rfl | hc
      · exact .inl rfl
      · rcases Text.mem_of_mem_join hc with hc | ⟨w, hw, hc⟩
        · rw [List.mem_singleton.1 hc]
          exact .inr (by decide)
        · exact hoperands w hw c hc

theorem cut_write {line : SourceLine} {op : Text} (h : ∀ c ∈ line.codeText op, IsCodeChar c) :
    codeWords (line.write op) = Text.words (line.codeText op) ∧
      (Text.cut ';' (line.write op)).2 = line.keptComment? := by
  have hcode : ';' ∉ line.codeText op := by
    intro hc
    rcases h ';' hc with hspace | ⟨-, hne⟩
    · cases hspace
    · exact hne rfl
  rw [codeWords, write_eq_codeText]
  cases line.keptComment? with
  | none =>
    rw [List.append_nil, Text.cut_of_not_mem hcode]
    exact ⟨rfl, rfl⟩
  | some comment =>
    have hblank : ';' ∉ line.codeText op ++ [' '] := by simp [hcode]
    simp only
    rw [List.append_cons, Text.cut_append_cons comment hblank]
    refine ⟨?_, rfl⟩
    rw [Text.words_append_blank _ [] (by decide), Text.words_nil, List.append_nil]

theorem map_trim_keptComment? {line : SourceLine} (h : ∀ c ∈ line.comment?, Text.trim c = c) :
    line.keptComment?.map Text.trim = line.keptComment? := by
  rw [keptComment?]
  cases hc : line.comment? with
  | none => rfl
  | some comment =>
    have htrim := h comment hc
    cases comment <;> simp [Option.filter_some, htrim]

namespace Readable

variable {line : SourceLine} {op : Text}

theorem isCodeChar_of_mem_codeText (h : line.Readable op) :
    ∀ c ∈ line.codeText op, IsCodeChar c := by
  apply SourceLine.isCodeChar_of_mem_codeText h.label h.operation.isCodeChar
  intro w hw c hc
  by_cases hblank : Text.isBlank c = true
  · exact .inl ((h.singleSpaced w hw).space c hc hblank)
  · exact .inr ⟨by simpa using hblank, fun he => (h.separators w hw).2 (he ▸ hc)⟩

theorem operandsOf_words (h : line.Readable op) :
    operandsOf (Text.words (Text.join [','] line.operands)) = line.operands := by
  by_cases hnil : line.operands = []
  · rw [hnil]
    rfl
  · have hjoin : Text.SingleSpaced (Text.join [','] line.operands) :=
      .join_mark (by decide) hnil h.singleSpaced
    have hcommas : ∀ w ∈ line.operands, ',' ∉ w := fun w hw => (h.separators w hw).1
    have htrim : line.operands.map Text.trim = line.operands :=
      (List.map_congr_left fun w hw => (h.singleSpaced w hw).trim_eq).trans (List.map_id _)
    rw [operandsOf, hjoin.join_words, Text.splitOn_join hcommas hnil, htrim]
    apply List.filter_eq_self.2
    intro w hw
    simpa using (h.singleSpaced w hw).ne_nil

theorem words_codeText (h : line.Readable op) :
    Text.words (line.codeText op) =
      (match line.label? with
        | some label => [label ++ [':']]
        | none => []) ++ op :: Text.words (Text.join [','] line.operands) := by
  have hop : Text.words (op ++
      (if line.operands.isEmpty then [] else ' ' :: Text.join [','] line.operands)) =
      op :: Text.words (Text.join [','] line.operands) := by
    by_cases hnil : line.operands = []
    · rw [hnil]
      simp [Text.words_of_forall h.operation.ne_nil h.operation.blank, Text.join]
    · rw [if_neg (by simpa using hnil),
        Text.words_append_cons _ h.operation.ne_nil h.operation.blank (by decide)]
  rw [codeText, List.append_assoc]
  cases hlabel : line.label? with
  | none => exact hop
  | some label =>
    have hword := h.label label hlabel
    simp only
    rw [show label ++ [':', ' '] = (label ++ [':']) ++ [' '] by simp, List.append_assoc,
      List.singleton_append, Text.words_append_cons _ hword.ne_nil hword.blank (by decide), hop,
      List.singleton_append]

theorem splitLabel_words_codeText (h : line.Readable op) :
    splitLabel (Text.words (line.codeText op)) =
      (line.label?, op :: Text.words (Text.join [','] line.operands)) := by
  rw [h.words_codeText]
  cases hlabel : line.label? with
  | none => exact if_neg (h.colon hlabel)
  | some label => simp [splitLabel]

end Readable

def canonical (line : SourceLine) : SourceLine :=
  match line.op? with
  | some op => { line with text := line.write op, comment? := line.keptComment? }
  | none => line

/-- A line written anew shows the parts that it was written from. -/
theorem read_write {line : SourceLine} {op : Text} (hop : line.op? = some op)
    (h : line.Readable op) : read (line.write op) = line.canonical := by
  obtain ⟨hwords, hcomment⟩ := cut_write h.isCodeChar_of_mem_codeText
  have hkept := map_trim_keptComment? h.comment
  rw [read_eq, hwords, hcomment, hkept, h.splitLabel_words_codeText, canonical, hop]
  simp [h.operandsOf_words]

section Canonical

variable (line : SourceLine)

@[simp] theorem op?_canonical : line.canonical.op? = line.op? := by
  unfold canonical
  split <;> rfl

@[simp] theorem label?_canonical : line.canonical.label? = line.label? := by
  unfold canonical
  split <;> rfl

@[simp] theorem operands_canonical : line.canonical.operands = line.operands := by
  unfold canonical
  split <;> rfl

theorem canonical_of_op? {line : SourceLine} (h : line.op? = none) : line.canonical = line := by
  rw [canonical, h]

@[simp] theorem write_canonical (op : Text) : line.canonical.write op = line.write op := by
  obtain ⟨_, _, op?, _, comment?⟩ := line
  rcases op? with _ | op
  · rfl
  · rcases comment? with _ | _ | _ <;> rfl

end Canonical

/-- A line written anew, or as it is if it has no operation. -/
def rewrite (t : Text) : Text := (read t).source?.getD t

theorem rewrite_of_op? {t op : Text} (h : (read t).op? = some op) :
    rewrite t = (read t).write op := by
  rw [rewrite, source?, h]
  rfl

theorem rewrite_of_op?_none {t : Text} (h : (read t).op? = none) : rewrite t = t := by
  rw [rewrite, source?, h]
  rfl

theorem read_rewrite (t : Text) : read (rewrite t) = (read t).canonical := by
  cases h : (read t).op? with
  | none => rw [rewrite_of_op?_none h, canonical_of_op? h]
  | some op => rw [rewrite_of_op? h, read_write h (readable_read h)]

theorem rewrite_rewrite (t : Text) : rewrite (rewrite t) = rewrite t := by
  cases h : (read t).op? with
  | none => rw [rewrite_of_op?_none h, rewrite_of_op?_none h]
  | some op =>
    have hop : (read (rewrite t)).op? = some op := by rw [read_rewrite, op?_canonical, h]
    rw [rewrite_of_op? hop, read_rewrite, write_canonical, rewrite_of_op? h]

theorem isLineBreak_eq_false_of_mem_rewrite {t : Text}
    (ht : ∀ c ∈ t, Text.isLineBreak c = false) :
    ∀ c ∈ rewrite t, Text.isLineBreak c = false := by
  cases h : (read t).op? with
  | none => rwa [rewrite_of_op?_none h]
  | some op =>
    rw [rewrite_of_op? h]
    exact isLineBreak_eq_false_of_mem_write h ht

end WordMachine.SourceLine
