import WordMachine.Text.Basic

namespace WordMachine.Text

def lineBreakRanges : List (Nat × Nat) := [
  (0x0A, 0x0D), (0x1C, 0x1E), (0x85, 0x85), (0x2028, 0x2029)]

def isLineBreak (c : Char) : Bool := inRanges lineBreakRanges c

/-- The lines of a text, without their breaks. A carriage return and a line feed are one break
together, and the last line need not have one. -/
def lines : Text → List Text
  | [] => []
  | '\r' :: '\n' :: rest => [] :: lines rest
  | c :: rest =>
    if isLineBreak c then [] :: lines rest
    else match lines rest with
      | [] => [[c]]
      | line :: others => (c :: line) :: others

def unlines (ls : List Text) : Text := ls.flatMap (· ++ ['\n'])

/-- Carriage returns, with or without a line feed after them, become line feeds. -/
def unifyLineBreaks : Text → Text
  | [] => []
  | '\r' :: '\n' :: rest => '\n' :: unifyLineBreaks rest
  | c :: rest => (if c = '\r' then '\n' else c) :: unifyLineBreaks rest

@[simp] theorem lines_nil : lines [] = [] := by simp [lines]

theorem lines_cons_of_isLineBreak {c : Char} {t : Text} (h : isLineBreak c = true)
    (ht : c = '\r' → t.head? ≠ some '\n') : lines (c :: t) = [] :: lines t := by
  rw [lines.eq_3 _ _ (by rintro r rfl rfl; exact ht rfl rfl)]
  simp [h]

theorem lines_cons_of_not_isLineBreak {c : Char} (t : Text) (h : isLineBreak c = false) :
    lines (c :: t) = match lines t with
      | [] => [[c]]
      | line :: others => (c :: line) :: others := by
  rw [lines.eq_3 _ _ (by rintro r rfl; simp [isLineBreak, inRanges, lineBreakRanges] at h)]
  simp only [h, Bool.false_eq_true, if_false]

theorem lines_cons_lineFeed (t : Text) : lines ('\n' :: t) = [] :: lines t :=
  lines_cons_of_isLineBreak (by decide) (by simp)

theorem lines_eq_nil_iff {t : Text} : lines t = [] ↔ t = [] := by
  constructor
  · intro h
    cases t with
    | nil => rfl
    | cons c t =>
      by_cases hr : c = '\r' ∧ t.head? = some '\n'
      · obtain ⟨rfl, ht⟩ := hr
        cases t with
        | nil => simp at ht
        | cons d t => simp at ht; subst ht; simp [lines] at h
      · by_cases hc : isLineBreak c = true
        · rw [lines_cons_of_isLineBreak hc (fun e ht => hr ⟨e, ht⟩)] at h
          simp at h
        · rw [lines_cons_of_not_isLineBreak t (by simpa using hc)] at h
          split at h <;> simp at h
  · rintro rfl; simp

theorem lines_append_lineFeed (a b : Text) :
    lines (a ++ '\n' :: b) = lines (a ++ ['\n']) ++ lines b := by
  induction a using lines.induct with
  | case1 => simp [lines_cons_lineFeed]
  | case2 rest ih => simpa [lines] using ih
  | case3 c rest hr hc ih =>
    cases rest with
    | nil =>
      -- A carriage return at the end of `a` makes one break with the line feed.
      by_cases h : c = '\r'
      · subst h; simp [lines]
      · have e (s : Text) : lines (c :: '\n' :: s) = [] :: lines ('\n' :: s) :=
          lines_cons_of_isLineBreak hc (fun e => absurd e h)
        simp [e, lines_cons_lineFeed]
    | cons d rest =>
      have hd : c = '\r' → d ≠ '\n' := by rintro rfl rfl; exact hr rest rfl rfl
      have e (s : Text) : lines (c :: d :: s) = [] :: lines (d :: s) :=
        lines_cons_of_isLineBreak hc (by simpa using hd)
      simp only [List.cons_append] at ih ⊢
      simp [e, ih]
  | case4 c rest hr hc h ih | case5 c rest hr hc l ls h ih =>
    have hc : isLineBreak c = false := by simpa using hc
    simp only [List.cons_append, lines_cons_of_not_isLineBreak _ hc, ih]
    cases e : lines (rest ++ ['\n']) with
    | nil => simp [lines_eq_nil_iff] at e
    | cons l ls => simp

theorem lines_append_lineFeed_of_forall {l : Text} (b : Text)
    (h : ∀ c ∈ l, isLineBreak c = false) : lines (l ++ '\n' :: b) = l :: lines b := by
  induction l with
  | nil => exact lines_cons_lineFeed b
  | cons c l ih =>
    rw [List.cons_append, lines_cons_of_not_isLineBreak _ (h c (by simp)),
      ih fun d hd => h d (by simp [hd])]

/-- Lines without breaks in them are read back from the text that they make. -/
theorem lines_unlines {ls : List Text} (h : ∀ l ∈ ls, ∀ c ∈ l, isLineBreak c = false) :
    lines (unlines ls) = ls := by
  induction ls with
  | nil => simp [unlines]
  | cons l ls ih =>
    have := ih fun m hm => h m (by simp [hm])
    simp only [unlines, List.flatMap_cons, List.append_assoc, List.singleton_append] at this ⊢
    rw [lines_append_lineFeed_of_forall _ (h l (by simp)), this]

theorem isLineBreak_eq_false_of_mem_lines {t l : Text} {c : Char} (hl : l ∈ lines t) (hc : c ∈ l) :
    isLineBreak c = false := by
  induction t using lines.induct generalizing l with
  | case1 => simp at hl
  | case2 rest ih =>
    simp only [lines, List.mem_cons] at hl
    rcases hl with rfl | hl
    · simp at hc
    · exact ih hl hc
  | case3 d rest hr hd ih =>
    rw [lines_cons_of_isLineBreak hd (by cases rest <;> simp_all)] at hl
    rcases List.mem_cons.1 hl with rfl | hl
    · simp at hc
    · exact ih hl hc
  | case4 d rest hr hd h ih =>
    rw [lines_cons_of_not_isLineBreak _ (by simpa using hd), h] at hl
    simp_all
  | case5 d rest hr hd m ms h ih =>
    rw [lines_cons_of_not_isLineBreak _ (by simpa using hd), h] at hl
    rcases List.mem_cons.1 hl with rfl | hl
    · rcases List.mem_cons.1 hc with rfl | hc
      · simpa using hd
      · exact ih (l := m) (by simp [h]) hc
    · exact ih (by simp [h, hl]) hc
/-- What follows the text begins on a line of its own. -/
def EndsLine (t : Text) : Prop := t = [] ∨ t.getLast? = some '\n'

theorem lines_append {a : Text} (h : EndsLine a) (b : Text) :
    lines (a ++ b) = lines a ++ lines b := by
  rcases h with rfl | hlast
  · rw [lines_nil]
    rfl
  · obtain ⟨a', rfl⟩ := List.getLast?_eq_some_iff.1 hlast
    rw [List.append_assoc, List.singleton_append, lines_append_lineFeed]

theorem unlines_append (ls ms : List Text) : unlines (ls ++ ms) = unlines ls ++ unlines ms :=
  List.flatMap_append

theorem unlines_prefix {ls ms : List Text} (h : ls <+: ms) : unlines ls <+: unlines ms := by
  obtain ⟨rest, rfl⟩ := h
  rw [unlines_append]
  exact List.prefix_append _ _

end WordMachine.Text
