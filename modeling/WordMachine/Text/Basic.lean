namespace WordMachine

/-- A text is a list of Unicode scalar values. The code point of a surrogate does not stand in one. -/
abbrev Text := List Char

namespace Text

def inRanges (ranges : List (Nat × Nat)) (c : Char) : Bool :=
  ranges.any fun r => r.1 ≤ c.toNat && c.toNat ≤ r.2

/-- The pieces between the characters that satisfy `sep`, empty ones included. -/
def splitWhere (sep : Char → Bool) : Text → List Text
  | [] => [[]]
  | c :: rest =>
    if sep c then [] :: splitWhere sep rest
    else match splitWhere sep rest with
      | [] => [[c]]
      | piece :: pieces => (c :: piece) :: pieces

@[simp] theorem splitWhere_ne_nil (sep : Char → Bool) (t : Text) : splitWhere sep t ≠ [] := by
  cases t with
  | nil => simp [splitWhere]
  | cons c t =>
    simp only [splitWhere]
    split
    · simp
    · split <;> simp

theorem splitWhere_of_forall {sep : Char → Bool} {t : Text} (h : ∀ c ∈ t, sep c = false) :
    splitWhere sep t = [t] := by
  induction t with
  | nil => rfl
  | cons c t ih =>
    have hc : sep c = false := h c (by simp)
    have ht := ih fun d hd => h d (by simp [hd])
    simp [splitWhere, hc, ht]

theorem splitWhere_append_cons {sep : Char → Bool} {a : Text} {c : Char} (b : Text)
    (ha : ∀ d ∈ a, sep d = false) (hc : sep c = true) :
    splitWhere sep (a ++ c :: b) = a :: splitWhere sep b := by
  induction a with
  | nil => simp [splitWhere, hc]
  | cons d a ih =>
    have hd : sep d = false := ha d (by simp)
    have := ih fun e he => ha e (by simp [he])
    simp [splitWhere, hd, this]

/-- The characters of the pieces are those of the text that do not separate. -/
theorem mem_and_of_mem_splitWhere {sep : Char → Bool} {t p : Text} {c : Char}
    (hp : p ∈ splitWhere sep t) (hc : c ∈ p) : c ∈ t ∧ sep c = false := by
  induction t generalizing p with
  | nil =>
    rw [splitWhere, List.mem_singleton] at hp
    cases hp ▸ hc
  | cons d t ih =>
    have hrest {q : Text} (hq : q ∈ splitWhere sep t) (hc : c ∈ q) : c ∈ d :: t ∧ sep c = false :=
      (ih hq hc).imp_left (List.mem_cons_of_mem d)
    simp only [splitWhere] at hp
    split at hp
    · rcases List.mem_cons.1 hp with rfl | hp
      · cases hc
      · exact hrest hp hc
    · next hd =>
      split at hp
      · next h => exact absurd h (splitWhere_ne_nil sep t)
      · next q qs h =>
        rcases List.mem_cons.1 hp with rfl | hp
        · rcases List.mem_cons.1 hc with rfl | hc
          · exact ⟨List.mem_cons_self, eq_false_of_ne_true hd⟩
          · exact hrest (h ▸ List.mem_cons_self) hc
        · exact hrest (h ▸ List.mem_cons_of_mem q hp) hc

theorem sep_eq_false_of_mem_splitWhere {sep : Char → Bool} {t p : Text} {c : Char}
    (hp : p ∈ splitWhere sep t) (hc : c ∈ p) : sep c = false :=
  (mem_and_of_mem_splitWhere hp hc).2

def splitOn (sep : Char) (t : Text) : List Text := splitWhere (· == sep) t

def join (sep : Text) (pieces : List Text) : Text := List.intercalate sep pieces

/-- What stands before the first `mark`, and what stands after it if there is one. -/
def cut (mark : Char) : Text → Text × Option Text
  | [] => ([], none)
  | c :: rest =>
    if c = mark then ([], some rest)
    else ((c :: (cut mark rest).1), (cut mark rest).2)

theorem cut_append {mark : Char} {a : Text} (b : Text) (h : mark ∉ a) :
    cut mark (a ++ b) = (a ++ (cut mark b).1, (cut mark b).2) := by
  induction a with
  | nil => rfl
  | cons c a ih =>
    simp only [List.mem_cons, not_or] at h
    have hc : c ≠ mark := fun e => h.1 e.symm
    simp [cut, hc, ih h.2]

theorem cut_of_not_mem {mark : Char} {t : Text} (h : mark ∉ t) : cut mark t = (t, none) := by
  simpa [cut] using cut_append [] h

theorem cut_append_cons {mark : Char} {a : Text} (b : Text) (h : mark ∉ a) :
    cut mark (a ++ mark :: b) = (a, some b) := by
  simpa [cut] using cut_append (mark :: b) h

theorem not_mem_cut_fst (mark : Char) (t : Text) : mark ∉ (cut mark t).1 := by
  induction t with
  | nil => simp [cut]
  | cons c t ih =>
    by_cases hc : c = mark
    · simp [cut, hc]
    · simp only [cut, hc, if_false, List.mem_cons, not_or]
      exact ⟨fun e => hc e.symm, ih⟩

/-- Fills up with spaces on the right; a text that is wide enough stays as it is. -/
def padRight (width : Nat) (t : Text) : Text := t ++ List.replicate (width - t.length) ' '

theorem length_padRight (width : Nat) (t : Text) :
    (padRight width t).length = max width t.length := by
  simp only [padRight, List.length_append, List.length_replicate]
  omega

def dropRightWhile (p : Char → Bool) (t : Text) : Text := (t.reverse.dropWhile p).reverse

/-- The white space of every script. -/
def blankRanges : List (Nat × Nat) := [
  (0x09, 0x0D), (0x1C, 0x20), (0x85, 0x85), (0xA0, 0xA0), (0x1680, 0x1680), (0x2000, 0x200A),
  (0x2028, 0x2029), (0x202F, 0x202F), (0x205F, 0x205F), (0x3000, 0x3000)]

def isBlank (c : Char) : Bool := inRanges blankRanges c

def trimLeft (t : Text) : Text := t.dropWhile isBlank

def trimRight (t : Text) : Text := dropRightWhile isBlank t

def trim (t : Text) : Text := trimRight (trimLeft t)

def words (t : Text) : List Text := (splitWhere isBlank t).filter (!·.isEmpty)

/-- What follows the first word, without the blanks around it. -/
def afterFirstWord (t : Text) : Text := trim ((trimLeft t).dropWhile (!isBlank ·))

end Text
end WordMachine
