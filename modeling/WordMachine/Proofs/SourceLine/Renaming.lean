import Mathlib.Data.List.Forall2
import Mathlib.Logic.Embedding.Basic
import WordMachine.Proofs.SourceLine.Writing

namespace WordMachine

/-- What can name a label and, as an operand, is neither cut nor trimmed nor taken for a number. -/
structure IsIdentifier (t : Text) : Prop where
  ne_nil : t ≠ []
  char : ∀ c ∈ t, Text.isBlank c = false ∧ c ≠ ',' ∧ c ≠ ';' ∧ c ≠ ':'
  literal : Numeral.isDecimalLiteral t = false

theorem isIdentifier_iff (t : Text) :
    (!t.isEmpty && t.all (fun c => !Text.isBlank c && c != ',' && c != ';' && c != ':') &&
      !Numeral.isDecimalLiteral t) = true ↔ IsIdentifier t := by
  simp only [Bool.and_eq_true, Bool.not_eq_true', List.isEmpty_eq_false_iff, List.all_eq_true,
    bne_iff_ne, and_assoc]
  exact ⟨fun h => ⟨h.1, h.2.1, h.2.2⟩, fun h => ⟨h.1, h.2, h.3⟩⟩

instance : DecidablePred IsIdentifier := fun t => decidable_of_iff _ (isIdentifier_iff t)

abbrev Identifier := {t : Text // IsIdentifier t}

/-- A renaming gives different names to different identifiers. -/
abbrev Renaming := Identifier ↪ Identifier

namespace IsIdentifier

variable {t : Text}

theorem isCodeWord_label (h : IsIdentifier t) : SourceLine.IsCodeWord (t ++ [':']) where
  ne_nil := by simp
  blank c hc := by
    rcases List.mem_append.1 hc with hc | hc
    · exact (h.char c hc).1
    · rw [List.mem_singleton.1 hc]
      decide
  semicolon hc := by
    rcases List.mem_append.1 hc with hc | hc
    · exact (h.char ';' hc).2.2.1 rfl
    · simp at hc

theorem singleSpaced (h : IsIdentifier t) : Text.SingleSpaced t :=
  Text.singleSpaced_of_forall h.ne_nil fun c hc => (h.char c hc).1

theorem separators (h : IsIdentifier t) : ',' ∉ t ∧ ';' ∉ t :=
  ⟨fun hc => (h.char ',' hc).2.1 rfl, fun hc => (h.char ';' hc).2.2.1 rfl⟩

end IsIdentifier

namespace Renaming

variable (σ : Renaming) {t u : Text}

/-- The new name of an identifier. Any other text is left alone. -/
def apply (t : Text) : Text := if h : IsIdentifier t then (σ ⟨t, h⟩).val else t

theorem apply_of_not (h : ¬ IsIdentifier t) : σ.apply t = t := dif_neg h

theorem apply_of_isIdentifier (h : IsIdentifier t) : σ.apply t = (σ ⟨t, h⟩).val := dif_pos h

theorem isIdentifier_apply (h : IsIdentifier t) : IsIdentifier (σ.apply t) := by
  rw [σ.apply_of_isIdentifier h]
  exact (σ ⟨t, h⟩).property

theorem apply_induction {P : Text → Prop} (h : P t) (hidentifier : ∀ u, IsIdentifier u → P u) :
    P (σ.apply t) := by
  by_cases ht : IsIdentifier t
  · exact hidentifier _ (σ.isIdentifier_apply ht)
  · rwa [σ.apply_of_not ht]

/-- No identifier gets the name of a text that is left alone, since that one is no identifier. -/
theorem apply_injective : Function.Injective σ.apply := by
  intro t u h
  by_cases ht : IsIdentifier t
  · by_cases hu : IsIdentifier u
    · rw [σ.apply_of_isIdentifier ht, σ.apply_of_isIdentifier hu] at h
      exact congrArg Subtype.val (σ.injective (Subtype.ext h))
    · rw [σ.apply_of_not hu] at h
      exact absurd (h ▸ σ.isIdentifier_apply ht) hu
  · by_cases hu : IsIdentifier u
    · rw [σ.apply_of_not ht] at h
      exact absurd (h.symm ▸ σ.isIdentifier_apply hu) ht
    · rwa [σ.apply_of_not ht, σ.apply_of_not hu] at h

theorem apply_of_isDecimalLiteral (h : Numeral.isDecimalLiteral t = true) : σ.apply t = t := by
  apply σ.apply_of_not
  intro ht
  rw [ht.literal] at h
  cases h

@[simp] theorem isDecimalLiteral_apply (t : Text) :
    Numeral.isDecimalLiteral (σ.apply t) = Numeral.isDecimalLiteral t := by
  by_cases h : IsIdentifier t
  · rw [(σ.isIdentifier_apply h).literal, h.literal]
  · rw [σ.apply_of_not h]

end Renaming

namespace SourceLine

/-- Two lines of which the second one has the new names. Comments and spacing are not compared. -/
structure Renames (σ : Renaming) (line line' : SourceLine) : Prop where
  label? : line'.label? = line.label?.map σ.apply
  op? : line'.op? = line.op?
  operands : line'.operands = line.operands.map σ.apply

def rename (σ : Renaming) (line : SourceLine) : SourceLine :=
  { line with
    label? := line.label?.map σ.apply
    operands := line.operands.map σ.apply }

def renameText (σ : Renaming) (t : Text) : Text :=
  ((read t).rename σ).write ((read t).op?.getD [])

variable {σ : Renaming} {line : SourceLine} {op t : Text}

theorem isCodeWord_rename (h : ∀ label ∈ line.label?, IsCodeWord (label ++ [':'])) :
    ∀ label ∈ (line.rename σ).label?, IsCodeWord (label ++ [':']) := by
  intro label hlabel
  obtain ⟨old, hold, rfl⟩ := Option.map_eq_some_iff.1 hlabel
  exact σ.apply_induction (P := fun l => IsCodeWord (l ++ [':'])) (h old hold)
    fun u hu => hu.isCodeWord_label

theorem Readable.rename (h : line.Readable op) (σ : Renaming) : (line.rename σ).Readable op where
  colon hnone := h.colon (Option.map_eq_none_iff.1 hnone)
  label := isCodeWord_rename h.label
  operation := h.operation
  singleSpaced w hw := by
    obtain ⟨v, hv, rfl⟩ := List.mem_map.1 hw
    exact σ.apply_induction (h.singleSpaced v hv) fun u hu => hu.singleSpaced
  separators w hw := by
    obtain ⟨v, hv, rfl⟩ := List.mem_map.1 hw
    exact σ.apply_induction (P := fun w => ',' ∉ w ∧ ';' ∉ w) (h.separators v hv)
      fun u hu => hu.separators
  comment := h.comment

/-- A line without an operation whose label and comment are told apart when they are written. -/
structure Bare (line : SourceLine) : Prop where
  op? : line.op? = none
  operands : line.operands = []
  label : ∀ label ∈ line.label?, IsCodeWord (label ++ [':'])
  comment : ∀ c ∈ line.comment?, Text.trim c = c

theorem bare_read (h : (read t).op? = none) : (read t).Bare where
  op? := h
  operands := by
    change (splitLabel (codeWords t)).2.head? = none at h
    change operandsOf (splitLabel (codeWords t)).2.tail = []
    rw [List.head?_eq_none_iff.1 h]
    rfl
  label label hlabel := isCodeWord_of_mem_codeWords (label_mem_codeWords hlabel)
  comment c hc := by
    obtain ⟨rest, -, rfl⟩ := Option.map_eq_some_iff.1 hc
    exact Text.trim_trim rest

namespace Bare

theorem rename (h : line.Bare) (σ : Renaming) : (line.rename σ).Bare where
  op? := h.op?
  operands := List.map_eq_nil_iff.2 h.operands
  label := isCodeWord_rename h.label
  comment := h.comment

theorem isCodeChar_of_mem_codeText (h : line.Bare) : ∀ c ∈ line.codeText [], IsCodeChar c := by
  apply SourceLine.isCodeChar_of_mem_codeText h.label (List.forall_mem_nil _)
  rw [h.operands]
  exact List.forall_mem_nil _

theorem words_codeText (h : line.Bare) :
    Text.words (line.codeText []) =
      match line.label? with
      | some label => [label ++ [':']]
      | none => [] := by
  rw [codeText, h.operands]
  cases hlabel : line.label? with
  | none => rfl
  | some label =>
    have hword := h.label label hlabel
    have hwords := Text.words_append_cons [] hword.ne_nil hword.blank (c := ' ') (by decide)
    simpa using hwords

theorem read_write (h : line.Bare) :
    read (line.write []) =
      { line with text := line.write [], comment? := line.keptComment? } := by
  obtain ⟨hwords, hcomment⟩ := cut_write h.isCodeChar_of_mem_codeText
  have hkept := map_trim_keptComment? h.comment
  have hnone : operandsOf [] = [] := rfl
  rw [read_eq, hwords, hcomment, hkept, h.words_codeText, h.op?, h.operands]
  cases line.label? with
  | none => rfl
  | some label => simp [splitLabel, hnone]

end Bare

theorem renames_renameText (σ : Renaming) (t : Text) :
    (read t).Renames σ (read (renameText σ t)) := by
  cases h : (read t).op? with
  | none =>
    have hbare := (bare_read h).rename σ
    rw [renameText, h, Option.getD_none, hbare.read_write]
    exact ⟨rfl, rfl, rfl⟩
  | some op =>
    have hread : read (((read t).rename σ).write op) = ((read t).rename σ).canonical :=
      read_write h ((readable_read h).rename σ)
    rw [renameText, h, Option.getD_some, hread]
    exact ⟨label?_canonical _, op?_canonical _, operands_canonical _⟩

theorem isLineBreak_eq_false_of_mem_renameText (σ : Renaming)
    (ht : ∀ c ∈ t, Text.isLineBreak c = false) :
    ∀ c ∈ renameText σ t, Text.isLineBreak c = false := by
  have hcode : ∀ c ∈ ((read t).rename σ).codeText ((read t).op?.getD []), IsCodeChar c := by
    cases h : (read t).op? with
    | none => exact ((bare_read h).rename σ).isCodeChar_of_mem_codeText
    | some op => exact ((readable_read h).rename σ).isCodeChar_of_mem_codeText
  intro c hc
  rw [renameText, write_eq_codeText, List.mem_append] at hc
  rcases hc with hc | hc
  · exact (hcode c hc).isLineBreak_eq_false
  · split at hc
    · next comment hkept =>
      rcases List.mem_cons.1 hc with rfl | hc
      · decide
      · rcases List.mem_cons.1 hc with rfl | hc
        · decide
        · exact ht c (mem_comment (Option.filter_eq_some_iff.1 hkept).1 hc)
    · cases hc

end SourceLine

namespace Renaming

variable (σ : Renaming)

/-- Two programs of which the second one has the new names: line by line it has the renamed label,
the same operation and the renamed operands. -/
def Relates (text text' : Text) : Prop :=
  List.Forall₂ (fun t t' => (SourceLine.read t).Renames σ (SourceLine.read t'))
    (Text.lines text) (Text.lines text')

def renamed (text : Text) : Text :=
  Text.unlines ((Text.lines text).map (SourceLine.renameText σ))

theorem lines_renamed (text : Text) :
    Text.lines (σ.renamed text) = (Text.lines text).map (SourceLine.renameText σ) := by
  apply Text.lines_unlines
  intro l hl
  obtain ⟨t, ht, rfl⟩ := List.mem_map.1 hl
  exact SourceLine.isLineBreak_eq_false_of_mem_renameText σ fun c hc =>
    Text.isLineBreak_eq_false_of_mem_lines ht hc

theorem relates_renamed (text : Text) : σ.Relates text (σ.renamed text) := by
  rw [Relates, lines_renamed, List.forall₂_map_right_iff, List.forall₂_same]
  exact fun t _ => SourceLine.renames_renameText σ t

end Renaming
end WordMachine
