import Mathlib.Data.List.DropRight
import WordMachine.Text.Basic
import WordMachine.Text.Lines

namespace WordMachine.Text

theorem splitWhere_append_sep {sep : Char → Bool} {c : Char} (a b : Text) (hc : sep c = true) :
    splitWhere sep (a ++ c :: b) = splitWhere sep a ++ splitWhere sep b := by
  induction a with
  | nil => simp [splitWhere, hc]
  | cons d a ih =>
    by_cases hd : sep d = true
    · simp [splitWhere, hd, ih]
    · obtain ⟨p, ps, h⟩ := List.exists_cons_of_ne_nil (splitWhere_ne_nil sep a)
      simp [splitWhere, hd, ih, h]

theorem mem_of_mem_splitWhere {sep : Char → Bool} {t p : Text} {c : Char}
    (hp : p ∈ splitWhere sep t) (hc : c ∈ p) : c ∈ t :=
  (mem_and_of_mem_splitWhere hp hc).1

theorem cut_nil (mark : Char) : (cut mark []).1 = [] := rfl

theorem mem_of_mem_cut_fst {mark c : Char} {t : Text} (h : c ∈ (cut mark t).1) : c ∈ t := by
  induction t with
  | nil => simp [cut] at h
  | cons d t ih =>
    by_cases hd : d = mark
    · simp [cut, hd] at h
    · simp only [cut, hd, if_false, List.mem_cons] at h ⊢
      exact h.imp_right ih

theorem mem_of_mem_cut_snd {mark c : Char} {t rest : Text} (h : (cut mark t).2 = some rest)
    (hc : c ∈ rest) : c ∈ t := by
  induction t with
  | nil => simp [cut] at h
  | cons d t ih =>
    by_cases hd : d = mark
    · simp only [cut, hd, if_true, Option.some.injEq] at h
      exact List.mem_cons_of_mem d (h ▸ hc)
    · simp only [cut, hd, if_false] at h
      exact List.mem_cons_of_mem d (ih h)

theorem cut_eq (mark : Char) (t : Text) :
    t = (cut mark t).1 ++
      match (cut mark t).2 with
      | some rest => mark :: rest
      | none => [] := by
  induction t with
  | nil => rfl
  | cons c t ih =>
    by_cases hc : c = mark
    · simp [cut, hc]
    · simp only [cut, hc, if_false, List.cons_append]
      exact congrArg (c :: ·) ih

theorem cut_append_fst {mark : Char} {a : Text} (b : Text) (h : mark ∉ a) :
    (cut mark (a ++ b)).1 = a ++ (cut mark b).1 :=
  congrArg Prod.fst (cut_append b h)

theorem mem_of_mem_join {sep : Text} {pieces : List Text} {c : Char} (h : c ∈ join sep pieces) :
    c ∈ sep ∨ ∃ p ∈ pieces, c ∈ p := by
  induction pieces with
  | nil => simp [join, List.intercalate] at h
  | cons p pieces ih =>
    cases pieces with
    | nil => exact .inr ⟨p, by simp, by simpa [join, List.intercalate] using h⟩
    | cons q pieces =>
      rw [join, List.intercalate_cons_cons, List.append_assoc, List.mem_append, List.mem_append] at h
      rcases h with h | h | h
      · exact .inr ⟨p, by simp, h⟩
      · exact .inl h
      · exact (ih h).imp_right fun ⟨r, hr, hc⟩ => ⟨r, List.mem_cons_of_mem p hr, hc⟩

theorem mem_of_mem_trim {t : Text} {c : Char} (h : c ∈ trim t) : c ∈ t :=
  (List.dropWhile_sublist isBlank).subset ((List.rdropWhile_prefix isBlank (trimLeft t)).subset h)

theorem trim_of_ends {t : Text} (hl : ∀ c ∈ t.head?, isBlank c = false)
    (hr : ∀ c ∈ t.getLast?, isBlank c = false) : trim t = t := by
  have hleft : trimLeft t = t := by
    cases t with
    | nil => rfl
    | cons c t => exact List.dropWhile_cons_of_neg (by simpa using hl c rfl)
  rw [trim, hleft]
  rcases List.eq_nil_or_concat' t with rfl | ⟨t, c, rfl⟩
  · rfl
  · exact List.rdropWhile_concat_neg isBlank t c (by simpa using hr c (by simp))

theorem trim_of_forall {t : Text} (h : ∀ c ∈ t, isBlank c = false) : trim t = t :=
  trim_of_ends (fun c hc => h c (List.mem_of_mem_head? hc))
    (fun c hc => h c (List.mem_of_mem_getLast? hc))

theorem eq_false_of_all {p : Char → Bool} {t : Text} (h : t.all (!p ·) = true) :
    ∀ c ∈ t, p c = false := by
  simpa using h

@[simp] theorem words_nil : words [] = [] := rfl

theorem words_of_forall {w : Text} (hw : w ≠ []) (hb : ∀ d ∈ w, isBlank d = false) :
    words w = [w] := by
  simp [words, splitWhere_of_forall hb, hw]

/-- A blank ends a word, so the words before it and after it are read apart. -/
theorem words_append_blank {c : Char} (a b : Text) (hc : isBlank c = true) :
    words (a ++ c :: b) = words a ++ words b := by
  rw [words, splitWhere_append_sep a b hc, List.filter_append]
  rfl

theorem words_cons_of_isBlank {c : Char} (t : Text) (hc : isBlank c = true) :
    words (c :: t) = words t :=
  words_append_blank [] t hc

theorem words_append_cons {w : Text} {c : Char} (t : Text) (hw : w ≠ [])
    (hb : ∀ d ∈ w, isBlank d = false) (hc : isBlank c = true) :
    words (w ++ c :: t) = w :: words t := by
  rw [words_append_blank w t hc, words_of_forall hw hb, List.singleton_append]

theorem ne_nil_of_mem_words {t w : Text} (h : w ∈ words t) : w ≠ [] := by
  have hw := (List.mem_filter.1 h).2
  simpa using hw

theorem isBlank_eq_false_of_mem_words {t w : Text} {c : Char} (h : w ∈ words t) (hc : c ∈ w) :
    isBlank c = false :=
  sep_eq_false_of_mem_splitWhere (List.mem_filter.1 h).1 hc

theorem mem_of_mem_words {t w : Text} {c : Char} (h : w ∈ words t) (hc : c ∈ w) : c ∈ t :=
  mem_of_mem_splitWhere (List.mem_filter.1 h).1 hc

theorem isBlank_eq_false_of_ascii {c : Char} (hlow : 0x20 < c.toNat) (hhigh : c.toNat < 0x80) :
    isBlank c = false := by
  simp only [isBlank, inRanges, blankRanges, List.any_cons, List.any_nil, Bool.or_false,
    Bool.or_eq_false_iff, Bool.and_eq_false_iff, decide_eq_false_iff_not]
  omega

theorem isBlank_of_isLineBreak {c : Char} (h : isLineBreak c = true) : isBlank c = true := by
  simp only [isLineBreak, isBlank, inRanges, lineBreakRanges, blankRanges, List.any_cons,
    List.any_nil, Bool.or_false, Bool.or_eq_true, Bool.and_eq_true, decide_eq_true_eq] at h ⊢
  omega

theorem isLineBreak_eq_false_of_isBlank {c : Char} (h : isBlank c = false) :
    isLineBreak c = false := by
  cases hb : isLineBreak c with
  | false => rfl
  | true => rw [isBlank_of_isLineBreak hb] at h; cases h

theorem unifyLineBreaks_of_not_mem {t : Text} (h : '\r' ∉ t) : unifyLineBreaks t = t := by
  induction t with
  | nil => rfl
  | cons c t ih =>
    simp only [List.mem_cons, not_or] at h
    have hc : c ≠ '\r' := fun e => h.1 e.symm
    rw [unifyLineBreaks.eq_3 _ _ fun _ e _ => hc e, if_neg hc, ih h.2]

theorem carriageReturn_not_mem_unlines {ls : List Text}
    (h : ∀ l ∈ ls, ∀ c ∈ l, isLineBreak c = false) : '\r' ∉ unlines ls := by
  intro hc
  obtain ⟨l, hl, hc⟩ := List.mem_flatMap.1 hc
  rcases List.mem_append.1 hc with hc | hc
  · exact absurd (h l hl _ hc) (by decide)
  · exact absurd (List.mem_singleton.1 hc) (by decide)

end WordMachine.Text
