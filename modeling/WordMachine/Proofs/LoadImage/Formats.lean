import WordMachine.Proofs.LoadImage.Reading
import WordMachine.Proofs.Numeral.Written
import WordMachine.Proofs.Text.Pieces

namespace WordMachine.LoadImage

open Numeral (Written)
open Text (IsBlankRun IsWord Spread isLineBreak trim)

def commentMarks : List Text := ["#".toList, "//".toList, ";".toList]

/-- A line that shows nothing: blanks, or a comment with or without blanks in front. -/
inductive SilentLine : Text → Prop
  | blank {line : Text} (h : IsBlankRun line) : SilentLine line
  | comment {blanks mark : Text} (rest : Text) (hblanks : IsBlankRun blanks)
    (hmark : mark ∈ commentMarks) : SilentLine (blanks ++ mark ++ rest)

inductive ShownLine : List (Nat × Nat) → Text → Prop
  | silent {line : Text} (h : SilentLine line) : ShownLine [] line
  | record {address word : Nat} {first second line : Text} {extra : List Text}
    (hfirst : Written address first) (hsecond : Written word second)
    (hline : Spread (first :: second :: extra) line) : ShownLine [(address, word)] line

/-- A text with the pairs that it shows line by line. A carriage return and a line feed together are
two breaks around an empty line. -/
inductive Shown : List (Nat × Nat) → Text → Prop
  | last {pairs : List (Nat × Nat)} {line : Text} (hline : ShownLine pairs line)
    (hbreaks : ∀ c ∈ line, isLineBreak c = false) : Shown pairs line
  | line {pairs rest : List (Nat × Nat)} {line text : Text} {mark : Char}
    (hline : ShownLine pairs line) (hbreaks : ∀ c ∈ line, isLineBreak c = false)
    (hmark : isLineBreak mark = true) (htext : Shown rest text) :
    Shown (pairs ++ rest) (line ++ mark :: text)

def recordOfPair (p : Nat × Nat) : LoadRecord := ⟨p.1, p.2⟩

section Line

variable {line : Text}

theorem isWord_of_mem_commentMarks {mark : Text} (h : mark ∈ commentMarks) : IsWord mark := by
  have hwords : ∀ m ∈ commentMarks, m ≠ [] ∧ m.all (!Text.isBlank ·) = true := by decide
  exact ⟨(hwords mark h).1, Text.eq_false_of_all (hwords mark h).2⟩

theorem isSilent_of_mem_commentMarks {mark : Text} (h : mark ∈ commentMarks) (rest : Text) :
    isSilent (mark ++ rest) = true := by
  simp only [commentMarks, List.mem_cons, List.not_mem_nil, or_false] at h
  rcases h with rfl | rfl | rfl <;> rfl

theorem isSilent_trim (h : SilentLine line) : isSilent (trim line) = true := by
  cases h with
  | blank h =>
    have htrim : trim line = [] := by
      rw [trim, Text.trimLeft, List.dropWhile_eq_nil_iff.2 h]
      rfl
    rw [htrim]
    rfl
  | comment rest hblanks hmark =>
    rw [Text.trim_blankRun_append rest hblanks (isWord_of_mem_commentMarks hmark),
      isSilent_of_mem_commentMarks hmark]

theorem isSilent_written_append {n : Nat} {token : Text} (h : Written n token) (rest : Text) :
    isSilent (token ++ rest) = false := by
  obtain ⟨c, digits, rfl⟩ := List.exists_cons_of_ne_nil h.ne_nil
  have hdigit := h.isDecimalDigit_of_mem_head? c rfl
  refine isSilent_cons _ fun hmark => ?_
  have hnone : ∀ d ∈ ['#', ';', '/'], Numeral.isDecimalDigit d = false :=
    Text.eq_false_of_all (by decide)
  rw [hnone c hmark] at hdigit
  cases hdigit

theorem number_of_written {n : Nat} {token : Text} (h : Written n token) : number token = .ok n :=
  number_eq_ok.2 h.readNumber_eq

theorem readLine_of_shownLine {pairs : List (Nat × Nat)} (h : ShownLine pairs line) :
    ∃ record?, readLine line = .ok record? ∧ record?.toList = pairs.map recordOfPair := by
  cases h with
  | silent h => exact ⟨none, readLine_of_isSilent (isSilent_trim h), rfl⟩
  | @record address word _ _ _ _ hfirst hsecond hline =>
    have hwords := Text.words_of_spread hline
    have hsilent : isSilent (trim line) = false := by
      cases hline with
      | cons hblanks hword hsep hrest =>
        rw [Text.trim_blankRun_append _ hblanks hword, isSilent_written_append hfirst]
    refine ⟨some ⟨address, word⟩, ?_, rfl⟩
    rw [readLine_of_words hsilent hwords, number_of_written hfirst, number_of_written hsecond]
    rfl

theorem recordsOf_of_shownLine {pairs : List (Nat × Nat)} (h : ShownLine pairs line) :
    recordsOf line = pairs.map recordOfPair := by
  obtain ⟨record?, hline, hpairs⟩ := readLine_of_shownLine h
  rw [recordsOf, hline]
  exact hpairs

theorem wellFormed_of_shownLine {pairs : List (Nat × Nat)} (h : ShownLine pairs line) :
    WellFormed line := by
  intro cause hmalformed
  obtain ⟨record?, hline, -⟩ := readLine_of_shownLine h
  rw [readLine_eq_error_iff.2 hmalformed] at hline
  cases hline

end Line

section Text

variable {text : Text}

/-- Each piece of a text between line breaks shows pairs, and these are the pairs of the text. -/
theorem pieces_of_shown {pairs : List (Nat × Nat)} (h : Shown pairs text) :
    (∀ piece ∈ Text.splitWhere isLineBreak text, ∃ own, ShownLine own piece) ∧
      (Text.splitWhere isLineBreak text).flatMap recordsOf = pairs.map recordOfPair := by
  induction h with
  | @last pairs line hline hbreaks =>
    rw [Text.splitWhere_of_forall hbreaks, List.flatMap_singleton]
    exact ⟨List.forall_mem_singleton.2 ⟨pairs, hline⟩, recordsOf_of_shownLine hline⟩
  | @line pairs rest line text mark hline hbreaks hmark htext ih =>
    rw [Text.splitWhere_append_cons text hbreaks hmark, List.flatMap_cons, List.map_append, ih.2,
      recordsOf_of_shownLine hline]
    exact ⟨List.forall_mem_cons.2 ⟨⟨pairs, hline⟩, ih.1⟩, rfl⟩

/-- A text is read as the pairs that it shows. -/
theorem read_shown {pairs : List (Nat × Nat)} (h : Shown pairs text) :
    ∃ image, read text = .ok image ∧ image = pairs.map recordOfPair ∧
      image.firstAddress? = pairs.head?.map fun p => (p.1 : Int) := by
  obtain ⟨hpieces, hrecords⟩ := pieces_of_shown h
  have hempty : ShownLine [] [] := .silent (.blank (List.forall_mem_nil _))
  have hlines : ∀ line ∈ Text.lines text, WellFormed line := by
    intro line hline
    by_cases hne : line = []
    · exact wellFormed_of_shownLine (hne ▸ hempty)
    · obtain ⟨own, hown⟩ := hpieces line (Text.mem_splitWhere_of_mem_lines hline hne)
      exact wellFormed_of_shownLine hown
  have hread : read text = .ok (pairs.map recordOfPair) := by
    rw [read, readLines_of_wellFormed hlines, Text.flatMap_lines (recordsOf_of_shownLine hempty),
      hrecords]
  refine ⟨pairs.map recordOfPair, hread, rfl, ?_⟩
  rw [firstAddress?, List.head?_map, Option.map_map]
  rfl

def mixedText : Text := "# c\n 006 0XfF more\r\n//\n\t19 7 \n".toList

theorem mixedText_read :
    Shown [(6, 255), (19, 7)] mixedText ∧
      ∃ image, read mixedText = .ok image ∧ image = [⟨6, 255⟩, ⟨19, 7⟩] ∧
        image.firstAddress? = some 6 := by
  have hcomment : ShownLine [] ([] ++ "#".toList ++ " c".toList) :=
    .silent (.comment _ (by decide) (by decide))
  have hmark : ShownLine [] ([] ++ "//".toList ++ []) :=
    .silent (.comment _ (by decide) (by decide))
  have hempty : ShownLine [] [] := .silent (.blank (by decide))
  have hsix : Written 6 "006".toList := .octal 2
  have hfull : Written 255 "0XfF".toList := .hexadecimal 0 (by decide) (by decide)
  have hnineteen : Written 19 "19".toList := .decimal 0 (by decide) (by decide)
  have hseven : Written 7 "7".toList := .octal 0
  have hfirst : Spread ["006".toList, "0XfF".toList, "more".toList] " 006 0XfF more".toList := by
    decide
  have hsecond : Spread ["19".toList, "7".toList] "\t19 7 ".toList := by decide
  have hshown : Shown [(6, 255), (19, 7)] mixedText :=
    .line hcomment (Text.eq_false_of_all (by decide)) (by decide)
      (.line (.record hsix hfull hfirst) (Text.eq_false_of_all (by decide)) (by decide)
        (.line hempty nofun (by decide)
          (.line hmark (Text.eq_false_of_all (by decide)) (by decide)
            (.line (.record hnineteen hseven hsecond) (Text.eq_false_of_all (by decide))
              (by decide) (.last hempty nofun)))))
  exact ⟨hshown, read_shown hshown⟩

end Text

end WordMachine.LoadImage
