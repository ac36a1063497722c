import WordMachine.Proofs.SourceLine.Writing
import WordMachine.Proofs.Text.Spread

namespace WordMachine.SourceLine

open Text (IsBlankRun IsWord Spread)

inductive LabelText : Option Text → Text → Prop
  | none : LabelText none []
  | label {l g : Text} (hblank : ∀ c ∈ l, Text.isBlank c = false) (hsemicolon : ';' ∉ l)
    (hg : IsBlankRun g) (hne : g ≠ []) : LabelText (some l) (l ++ ':' :: g)

/-- Operands beside the pieces between the commas: an operand is one or more words with single
spaces between them, and its piece has any blanks between them and around them. Any other piece is
blank. -/
inductive Pieces : List Text → List Text → Prop
  | nil : Pieces [] []
  | blank {b : Text} {operands pieces : List Text} (hb : IsBlankRun b)
    (h : Pieces operands pieces) : Pieces operands (b :: pieces)
  | operand {ws operands pieces : List Text} {p : Text} (hne : ws ≠ [])
    (hwords : ∀ w ∈ ws, ',' ∉ w ∧ ';' ∉ w) (hp : Spread ws p) (h : Pieces operands pieces) :
    Pieces (Text.join [' '] ws :: operands) (p :: pieces)

inductive OperandText : List Text → Text → Prop
  | none : OperandText [] []
  | pieces {g : Text} {operands pieces : List Text} (hg : IsBlankRun g) (hblank : g ≠ [])
    (hne : pieces ≠ []) (h : Pieces operands pieces) :
    OperandText operands (g ++ Text.join [','] pieces)

inductive CommentText : Option Text → Text → Prop
  | none : CommentText none []
  | comment (c : Text) : CommentText (some c) (';' :: c)

theorem IsCodeWord.isWord {w : Text} (h : IsCodeWord w) : IsWord w := ⟨h.ne_nil, h.blank⟩

theorem semicolon_not_mem_of_isBlankRun {b : Text} (hb : IsBlankRun b) : ';' ∉ b :=
  fun hc => absurd (hb ';' hc) (by decide)

namespace Pieces

variable {operands pieces : List Text}

theorem separators (h : Pieces operands pieces) : ∀ p ∈ pieces, ',' ∉ p ∧ ';' ∉ p := by
  induction h with
  | nil => exact nofun
  | blank hb h ih =>
    refine List.forall_mem_cons.2 ⟨⟨fun hc => ?_, semicolon_not_mem_of_isBlankRun hb⟩, ih⟩
    exact absurd (hb ',' hc) (by decide)
  | operand hne hwords hp h ih =>
    refine List.forall_mem_cons.2 ⟨⟨fun hc => ?_, fun hc => ?_⟩, ih⟩
    · rcases Text.mem_of_mem_spread hp hc with hblank | ⟨w, hw, hc⟩
      · cases hblank
      · exact (hwords w hw).1 hc
    · rcases Text.mem_of_mem_spread hp hc with hblank | ⟨w, hw, hc⟩
      · cases hblank
      · exact (hwords w hw).2 hc

/-- The pieces that are not blank are the operands, once they are spaced anew. -/
theorem filter_respaced (h : Pieces operands pieces) :
    (pieces.map Text.respaced).filter (!·.isEmpty) = operands := by
  induction h with
  | nil => rfl
  | blank hb h ih =>
    have hempty : Text.respaced _ = [] :=
      congrArg (Text.join [' ']) (Text.words_of_isBlankRun hb)
    rw [List.map_cons, hempty, List.filter_cons_of_neg (by simp), ih]
  | @operand ws _ _ p hne hwords hp h ih =>
    have hspaced : Text.respaced p = Text.join [' '] ws :=
      congrArg (Text.join [' ']) (Text.words_of_spread hp)
    have hkept : Text.respaced p ≠ [] := by
      intro hnil
      have hws := Text.words_of_spread hp
      rw [← Text.words_respaced, hnil] at hws
      exact hne hws.symm
    rw [List.map_cons, List.filter_cons_of_pos (by simpa using hkept), ih, hspaced]

/-- The operands of a line are its pieces between commas, spaced anew, but for the blank ones. -/
theorem operandsOf_join (h : Pieces operands pieces) (hne : pieces ≠ []) :
    operandsOf (Text.words (Text.join [','] pieces)) = operands := by
  have hsplit := Text.splitOn_join (fun p hp => (h.separators p hp).1) hne
  have hcomma : Text.isBlank ',' = false := by decide
  have htrim := Text.map_trim_splitOn_respaced hcomma (Text.join [','] pieces)
  rw [hsplit] at htrim
  rw [operandsOf, ← h.filter_respaced, ← htrim]
  rfl

end Pieces

namespace OperandText

variable {operands : List Text} {t : Text}

theorem operandsOf_words (h : OperandText operands t) : operandsOf (Text.words t) = operands := by
  cases h with
  | none => rfl
  | pieces hg hblank hne h => rw [Text.words_blankRun_append _ hg, h.operandsOf_join hne]

theorem semicolon_not_mem (h : OperandText operands t) : ';' ∉ t := by
  cases h with
  | none => exact List.not_mem_nil
  | pieces hg hblank hne h =>
    intro hc
    rcases List.mem_append.1 hc with hc | hc
    · exact semicolon_not_mem_of_isBlankRun hg hc
    · rcases Text.mem_of_mem_join hc with hc | ⟨p, hp, hc⟩
      · cases List.mem_singleton.1 hc
      · exact (h.separators p hp).2 hc

theorem isBlank_of_mem_head? (h : OperandText operands t) :
    ∀ c ∈ t.head?, Text.isBlank c = true := by
  cases h with
  | none => exact nofun
  | pieces hg hblank hne h =>
    intro c hc
    rw [List.head?_append_of_ne_nil _ hblank] at hc
    exact hg c (List.mem_of_mem_head? hc)

end OperandText

theorem LabelText.semicolon_not_mem {label? : Option Text} {t : Text} (h : LabelText label? t) :
    ';' ∉ t := by
  cases h with
  | none => exact List.not_mem_nil
  | label hblank hsemicolon hg hne =>
    intro hc
    rcases List.mem_append.1 hc with hc | hc
    · exact hsemicolon hc
    · rcases List.mem_cons.1 hc with hc | hc
      · cases hc
      · exact semicolon_not_mem_of_isBlankRun hg hc

/-- The label and the operation are told apart by the colon. -/
theorem splitLabel_words {label? : Option Text} {blanks labelText op t : Text}
    (hblanks : IsBlankRun blanks) (hlabel : LabelText label? labelText) (hop : IsCodeWord op)
    (hcolon : label? = none → op.getLast? ≠ some ':')
    (ht : ∀ c ∈ t.head?, Text.isBlank c = true) :
    splitLabel (Text.words (blanks ++ labelText ++ op ++ t)) = (label?, op :: Text.words t) := by
  have hwords := Text.words_word_append hop.isWord ht
  rw [List.append_assoc, List.append_assoc, Text.words_blankRun_append _ hblanks]
  cases hlabel with
  | none =>
    rw [List.nil_append, hwords]
    exact if_neg (hcolon rfl)
  | @label l g hblank hsemicolon hg hne =>
    have hword : IsWord (l ++ [':']) := by
      refine ⟨by simp, fun c hc => ?_⟩
      rcases List.mem_append.1 hc with hc | hc
      · exact hblank c hc
      · rw [List.mem_singleton.1 hc]
        decide
    -- A blank ends the label.
    have hsep : ∀ c ∈ (g ++ (op ++ t)).head?, Text.isBlank c = true := by
      intro c hc
      rw [List.head?_append_of_ne_nil _ hne] at hc
      exact hg c (List.mem_of_mem_head? hc)
    rw [List.append_cons, List.append_assoc, Text.words_word_append hword hsep,
      Text.words_blankRun_append _ hg, hwords, splitLabel, if_pos (by simp), List.dropLast_concat]

theorem cut_append_commentText {code t : Text} {comment? : Option Text} (hcode : ';' ∉ code)
    (h : CommentText comment? t) : Text.cut ';' (code ++ t) = (code, comment?) := by
  cases h with
  | none => rw [List.append_nil, Text.cut_of_not_mem hcode]
  | comment c => exact Text.cut_append_cons c hcode

/-- A line is read as the label, the operation, the operands and the comment that it was spelled
from. -/
theorem read_spelled {label? comment? : Option Text} {operands : List Text}
    {line blanks labelText op operandText commentText : Text}
    (hline : line = blanks ++ labelText ++ op ++ operandText ++ commentText)
    (hblanks : IsBlankRun blanks) (hlabel : LabelText label? labelText) (hop : IsCodeWord op)
    (hcolon : label? = none → op.getLast? ≠ some ':') (hoperands : OperandText operands operandText)
    (hcomment : CommentText comment? commentText) :
    read line = {
      text := line
      label?
      op? := some op
      operands
      comment? := comment?.map Text.trim } := by
  have hcode : ';' ∉ blanks ++ labelText ++ op ++ operandText := by
    simp only [List.mem_append, not_or]
    exact ⟨⟨⟨semicolon_not_mem_of_isBlankRun hblanks, hlabel.semicolon_not_mem⟩, hop.semicolon⟩,
      hoperands.semicolon_not_mem⟩
  have hcut : Text.cut ';' line = (blanks ++ labelText ++ op ++ operandText, comment?) := by
    rw [hline, cut_append_commentText hcode hcomment]
  have hsplit := splitLabel_words hblanks hlabel hop hcolon hoperands.isBlank_of_mem_head?
  rw [read_eq, codeWords, hcut, hsplit, List.tail_cons, hoperands.operandsOf_words]
  rfl

/-- A label, an operand of two words, empty operands around it and a comment with a semicolon in it,
with blanks of several kinds. -/
def looseLine : Text := "\t Loop:  LDX\u3000 1 ,, End \t of,\t; twice ; \u00A0".toList

theorem looseLine_read :
    read looseLine = {
      text := looseLine
      label? := some "Loop".toList
      op? := some "LDX".toList
      operands := ["1".toList, "End of".toList]
      comment? := some "twice ;".toList } := by
  have hlabel : LabelText (some "Loop".toList) "Loop:  ".toList :=
    .label (l := "Loop".toList) (g := "  ".toList) (Text.eq_false_of_all (by decide)) (by decide)
      (by decide) (by decide)
  have hop : IsCodeWord "LDX".toList := isCodeWord_of_all (by decide) (by decide)
  have hone : Spread ["1".toList] " 1 ".toList := by decide
  have htwo : Spread ["End".toList, "of".toList] " End \t of".toList := by decide
  have hpieces : Pieces ["1".toList, "End of".toList]
      [" 1 ".toList, [], " End \t of".toList, "\t".toList] :=
    .operand (by decide) (by decide) hone (.blank (by decide)
      (.operand (by decide) (by decide) htwo (.blank (by decide) .nil)))
  have hoperands : OperandText _ "\u3000 1 ,, End \t of,\t".toList :=
    .pieces (g := "\u3000".toList) (by decide) (by decide) (by decide) hpieces
  have hblanks : IsBlankRun "\t ".toList := by decide
  have hcomment : CommentText _ "; twice ; \u00A0".toList := .comment " twice ; \u00A0".toList
  have htrim : Text.trim " twice ; \u00A0".toList = "twice ;".toList := by decide
  rw [read_spelled (by decide) hblanks hlabel hop nofun hoperands hcomment, Option.map_some, htrim]

end WordMachine.SourceLine
