import WordMachine.Proofs.Text.Pieces
import WordMachine.Proofs.Text.Spacing

namespace WordMachine.Text

def IsBlankRun (b : Text) : Prop := ∀ c ∈ b, isBlank c = true

instance (b : Text) : Decidable (IsBlankRun b) :=
  decidable_of_iff (b.all isBlank = true) List.all_eq_true

structure IsWord (w : Text) : Prop where
  ne_nil : w ≠ []
  blank : ∀ c ∈ w, isBlank c = false

/-- Words with blanks between them, and with or without blanks around them. -/
inductive Spread : List Text → Text → Prop
  | nil {b : Text} (hb : IsBlankRun b) : Spread [] b
  | cons {b w t : Text} {ws : List Text} (hb : IsBlankRun b) (hw : IsWord w)
    (hsep : ∀ c ∈ t.head?, isBlank c = true) (ht : Spread ws t) : Spread (w :: ws) (b ++ w ++ t)

theorem words_blankRun_append {b : Text} (t : Text) (hb : IsBlankRun b) :
    words (b ++ t) = words t := by
  induction b with
  | nil => rfl
  | cons c b ih =>
    obtain ⟨hc, hb⟩ := List.forall_mem_cons.1 hb
    rw [List.cons_append, words_cons_of_isBlank _ hc, ih hb]

theorem words_of_isBlankRun {b : Text} (hb : IsBlankRun b) : words b = [] := by
  rw [← List.append_nil b, words_blankRun_append [] hb, words_nil]

/-- A word ends where a blank follows or where the text ends. -/
theorem words_word_append {w t : Text} (hw : IsWord w) (hsep : ∀ c ∈ t.head?, isBlank c = true) :
    words (w ++ t) = w :: words t := by
  cases t with
  | nil => rw [List.append_nil, words_nil, words_of_forall hw.ne_nil hw.blank]
  | cons c t =>
    have hc := hsep c rfl
    rw [words_append_cons t hw.ne_nil hw.blank hc, words_cons_of_isBlank t hc]

/-- The words of a text are the ones that are spread over it. -/
theorem words_of_spread {ws : List Text} {t : Text} (h : Spread ws t) : words t = ws := by
  induction h with
  | nil hb => exact words_of_isBlankRun hb
  | cons hb hw hsep ht ih =>
    rw [List.append_assoc, words_blankRun_append _ hb, words_word_append hw hsep, ih]

theorem Spread.blank_cons {ws : List Text} {t : Text} {c : Char} (hc : isBlank c = true)
    (h : Spread ws t) : Spread ws (c :: t) := by
  cases h with
  | nil hb => exact .nil (List.forall_mem_cons.2 ⟨hc, hb⟩)
  | cons hb hw hsep ht => exact .cons (List.forall_mem_cons.2 ⟨hc, hb⟩) hw hsep ht

theorem Spread.word_cons {ws : List Text} {t : Text} {c : Char} (hc : isBlank c = false)
    (h : Spread ws t) : ∃ ws', Spread ws' (c :: t) := by
  have hnew {s : Text} (hsep : ∀ d ∈ s.head?, isBlank d = true) (hs : Spread ws s) :
      Spread ([c] :: ws) (c :: s) :=
    .cons (b := []) nofun ⟨nofun, List.forall_mem_singleton.2 hc⟩ hsep hs
  cases h with
  | nil hb => exact ⟨_, hnew (fun d hd => hb d (List.mem_of_mem_head? hd)) (.nil hb)⟩
  | @cons b w t ws hb hw hsep ht =>
    cases b with
    | nil =>
      have hcw : IsWord (c :: w) := ⟨nofun, List.forall_mem_cons.2 ⟨hc, hw.blank⟩⟩
      exact ⟨_, .cons (b := []) nofun hcw hsep ht⟩
    | cons d b =>
      refine ⟨_, hnew (fun e he => ?_) (.cons hb hw hsep ht)⟩
      rw [← Option.some.inj he]
      exact hb d List.mem_cons_self

theorem exists_spread (t : Text) : ∃ ws, Spread ws t := by
  induction t with
  | nil => exact ⟨[], .nil nofun⟩
  | cons c t ih =>
    obtain ⟨ws, h⟩ := ih
    cases hc : isBlank c with
    | true => exact ⟨ws, h.blank_cons hc⟩
    | false => exact h.word_cons hc

theorem spread_iff {ws : List Text} {t : Text} : Spread ws t ↔ words t = ws := by
  constructor
  · exact words_of_spread
  · rintro rfl
    obtain ⟨ws, h⟩ := exists_spread t
    rwa [words_of_spread h]

instance (ws : List Text) (t : Text) : Decidable (Spread ws t) :=
  decidable_of_iff (words t = ws) spread_iff.symm

theorem mem_of_mem_spread {ws : List Text} {t : Text} {c : Char} (h : Spread ws t) (hc : c ∈ t) :
    isBlank c = true ∨ ∃ w ∈ ws, c ∈ w := by
  induction h with
  | nil hb => exact .inl (hb c hc)
  | cons hb hw hsep ht ih =>
    rcases List.mem_append.1 hc with hc | hc
    · rcases List.mem_append.1 hc with hc | hc
      · exact .inl (hb c hc)
      · exact .inr ⟨_, List.mem_cons_self, hc⟩
    · exact (ih hc).imp_right fun ⟨w, hw, hc⟩ => ⟨w, List.mem_cons_of_mem _ hw, hc⟩

theorem words_trim (t : Text) : words (trim t) = words t := by
  have hright : words (trim t) = words (trimLeft t) :=
    apply_trimRight (fun t _ hc => words_concat_of_isBlank t hc) (trimLeft t)
  have hleft : IsBlankRun (t.takeWhile isBlank) := fun c hc => List.mem_takeWhile_imp hc
  rw [hright, ← words_blankRun_append (trimLeft t) hleft, trimLeft, List.takeWhile_append_dropWhile]

theorem trimRight_word_append {w : Text} (t : Text) (hw : IsWord w) :
    trimRight (w ++ t) = w ++ trimRight t := by
  induction t using List.reverseRecOn with
  | nil =>
    obtain ⟨v, c, rfl⟩ := (List.eq_nil_or_concat' w).resolve_left hw.ne_nil
    have hc : ¬ isBlank c = true := Bool.eq_false_iff.1 (hw.blank c (by simp))
    rw [List.append_nil]
    exact (List.rdropWhile_concat_neg isBlank v c hc).trans (List.append_nil _).symm
  | append_singleton t c ih =>
    rw [← List.append_assoc]
    by_cases hc : isBlank c = true
    · have hwhole : trimRight (w ++ t ++ [c]) = trimRight (w ++ t) :=
        List.rdropWhile_concat_pos isBlank (w ++ t) c hc
      have hend : trimRight (t ++ [c]) = trimRight t := List.rdropWhile_concat_pos isBlank t c hc
      rw [hwhole, hend, ih]
    · have hwhole : trimRight (w ++ t ++ [c]) = w ++ t ++ [c] :=
        List.rdropWhile_concat_neg isBlank (w ++ t) c hc
      have hend : trimRight (t ++ [c]) = t ++ [c] := List.rdropWhile_concat_neg isBlank t c hc
      rw [hwhole, hend, List.append_assoc]

theorem trim_blankRun_append {b w : Text} (t : Text) (hb : IsBlankRun b) (hw : IsWord w) :
    trim (b ++ w ++ t) = w ++ trimRight t := by
  have hleft : trimLeft (b ++ w ++ t) = w ++ t := by
    obtain ⟨c, v, rfl⟩ := List.exists_cons_of_ne_nil hw.ne_nil
    have hc : ¬ isBlank c = true := Bool.eq_false_iff.1 (hw.blank c List.mem_cons_self)
    rw [trimLeft, List.append_assoc, List.dropWhile_append_of_pos hb, List.cons_append,
      List.dropWhile_cons_of_neg hc]
  rw [trim, hleft, trimRight_word_append t hw]

theorem words_join {xs : List Text} (h : ∀ x ∈ xs, ∀ c ∈ x, isBlank c = false) :
    words (join [' '] xs) = xs.filter (!·.isEmpty) := by
  induction xs with
  | nil => rfl
  | cons x xs ih =>
    have hrest := ih fun y hy => h y (List.mem_cons_of_mem x hy)
    have hx : words x = [x].filter (!·.isEmpty) := by
      rw [words, splitWhere_of_forall (h x List.mem_cons_self)]
    cases xs with
    | nil => rw [join_singleton, hx]
    | cons y ys =>
      rw [join_cons_cons, List.append_assoc, List.singleton_append,
        words_append_blank x _ (by decide), hrest, hx, ← List.filter_append, List.singleton_append]

/-- A text with single spaces between its words and no other blanks. -/
def respaced (t : Text) : Text := join [' '] (words t)

theorem words_respaced (t : Text) : words (respaced t) = words t := by
  rw [respaced, words_join fun w hw c hc => isBlank_eq_false_of_mem_words hw hc]
  exact List.filter_eq_self.2 fun w hw => by simpa using ne_nil_of_mem_words hw

theorem trim_eq_respaced {p t : Text} (hp : p <:+: respaced t) : trim p = respaced p := by
  by_cases hne : trim p = []
  · rw [hne, respaced, ← words_trim, hne]
    rfl
  · have hspaced : SingleSpaced (trim p) := by
      refine singleSpaced_trim (fun w hw => ?_) hp hne
      exact ⟨ne_nil_of_mem_words hw, fun c hc => isBlank_eq_false_of_mem_words hw hc⟩
    rw [respaced, ← words_trim, hspaced.join_words]

/-- The last piece of a text and the first piece of what is put after it become one. -/
theorem splitWhere_append {sep : Char → Bool} {a b p q : Text} {ps qs : List Text}
    (ha : splitWhere sep a = ps ++ [p]) (hb : splitWhere sep b = q :: qs) :
    splitWhere sep (a ++ b) = ps ++ (p ++ q) :: qs := by
  induction a generalizing ps p with
  | nil =>
    obtain ⟨rfl, hp⟩ : ps = [] ∧ [p] = [[]] := by
      cases ps with
      | nil => exact ⟨rfl, ha.symm⟩
      | cons r rs => simp [splitWhere] at ha
    obtain rfl := List.singleton_inj.1 hp
    exact hb
  | cons c a ih =>
    obtain ⟨r, rs, hr⟩ := List.exists_cons_of_ne_nil (splitWhere_ne_nil sep a)
    -- A separator puts an empty piece in front, and any other character joins the first piece.
    cases hc : sep c with
    | true =>
      rw [splitWhere, if_pos hc] at ha
      cases ps with
      | nil =>
        rw [hr] at ha
        cases ha
      | cons s ss =>
        obtain ⟨rfl, hrest⟩ := List.cons.inj ha
        rw [List.cons_append, splitWhere, if_pos hc, ih hrest, List.cons_append]
    | false =>
      rw [splitWhere_cons_of_not_sep hc hr] at ha
      cases ps with
      | nil =>
        obtain ⟨rfl, rfl⟩ := List.cons.inj ha
        have hrest : splitWhere sep (a ++ b) = [] ++ (r ++ q) :: qs := ih hr
        exact splitWhere_cons_of_not_sep hc hrest
      | cons s ss =>
        obtain ⟨rfl, rfl⟩ := List.cons.inj ha
        have hrest : splitWhere sep (a ++ b) = (r :: ss) ++ (p ++ q) :: qs := ih hr
        exact splitWhere_cons_of_not_sep hc hrest

theorem join_append_mark (sep : Text) (xs ys : List Text) (p q : Text) (mark : Char) :
    join sep (xs ++ (p ++ mark :: q) :: ys) = join sep (xs ++ [p]) ++ mark :: join sep (q :: ys) := by
  induction xs with
  | nil =>
    cases ys with
    | nil => simp [join_singleton]
    | cons y ys => simp [join_singleton, join_cons_cons]
  | cons x xs ih =>
    cases xs with
    | nil =>
      simp only [List.nil_append] at ih
      simp [join_cons_cons, join_singleton, ih]
    | cons x' xs =>
      simp only [List.cons_append] at ih
      simp [join_cons_cons, ih]

variable {mark : Char}

theorem exists_respaced_append_mark (hmark : isBlank mark = false) (a b : Text) :
    ∃ l r, respaced (a ++ mark :: b) = l ++ mark :: r ∧ words l = words a ∧
      (∀ c ∈ l, c = ' ' ∨ c ∈ a) ∧ (r = respaced b ∨ r = ' ' :: respaced b) := by
  obtain ⟨ps, p, hps, -⟩ := exists_splitWhere_concat isBlank a
  obtain ⟨q, qs, hqs⟩ := List.exists_cons_of_ne_nil (splitWhere_ne_nil isBlank b)
  -- The mark makes one word of the last piece `p` of `a` and the first piece `q` of `b`.
  have hwords : words (a ++ mark :: b) =
      ps.filter (!·.isEmpty) ++ (p ++ mark :: q) :: qs.filter (!·.isEmpty) := by
    rw [words, splitWhere_append hps (splitWhere_cons_of_not_sep hmark hqs), List.filter_append,
      List.filter_cons_of_pos (by simp)]
  have hleft {x : Text} (hx : x ∈ ps.filter (!·.isEmpty) ++ [p]) : x ∈ splitWhere isBlank a := by
    rw [hps]
    exact (List.mem_append.1 hx).elim
      (fun hx => List.mem_append_left _ (List.mem_of_mem_filter hx)) (List.mem_append_right ps)
  refine ⟨join [' '] (ps.filter (!·.isEmpty) ++ [p]), join [' '] (q :: qs.filter (!·.isEmpty)),
    ?_, ?_, ?_, ?_⟩
  · rw [respaced, hwords, join_append_mark]
  · rw [words_join fun x hx c hc => sep_eq_false_of_mem_splitWhere (hleft hx) hc, words, hps,
      List.filter_append, List.filter_append, List.filter_filter]
    simp
  · intro c hc
    rcases mem_of_mem_join hc with hc | ⟨x, hx, hc⟩
    · exact .inl (List.mem_singleton.1 hc)
    · exact .inr (mem_of_mem_splitWhere (hleft hx) hc)
  · rw [respaced, words, hqs]
    -- Where `b` starts with a blank, `q` is empty and a space stands after the mark.
    cases q with
    | nil =>
      rw [List.filter_cons_of_neg (by simp)]
      cases qs.filter (!·.isEmpty) with
      | nil => exact .inl rfl
      | cons y ys => exact .inr (by rw [join_cons_cons]; rfl)
    | cons c q => exact .inl (by rw [List.filter_cons_of_pos (by simp)])

theorem splitOn_of_not_mem {t : Text} (h : mark ∉ t) : splitOn mark t = [t] :=
  splitWhere_of_forall fun _ hc => beq_eq_false_iff_ne.2 fun e => h (e ▸ hc)

theorem splitOn_append_cons {a : Text} (b : Text) (h : mark ∉ a) :
    splitOn mark (a ++ mark :: b) = a :: splitOn mark b :=
  splitWhere_append_cons b (fun _ hc => beq_eq_false_iff_ne.2 fun e => h (e ▸ hc)) (beq_self_eq_true _)

theorem map_words_splitOn_cons {c : Char} (hc : isBlank c = true) (hne : c ≠ mark) (t : Text) :
    (splitOn mark (c :: t)).map words = (splitOn mark t).map words := by
  obtain ⟨p, ps, hp⟩ := List.exists_cons_of_ne_nil (splitWhere_ne_nil (· == mark) t)
  rw [splitOn, splitOn, splitWhere_cons_of_not_sep (by simpa using hne) hp, hp, List.map_cons,
    List.map_cons, words_cons_of_isBlank p hc]

/-- Spacing a text anew changes the words of no piece. The induction is along the marks. -/
theorem map_words_splitOn_respaced (hmark : isBlank mark = false) (t : Text) :
    (splitOn mark (respaced t)).map words = (splitOn mark t).map words := by
  induction hn : t.length using Nat.strongRecOn generalizing t with
  | ind n ih =>
    by_cases ht : mark ∈ t
    · obtain ⟨a, b, rfl, ha⟩ := List.eq_append_cons_of_mem ht
      obtain ⟨l, r, hlr, hwords, hl, hr⟩ := exists_respaced_append_mark hmark a b
      have hspace : ' ' ≠ mark := by
        rintro rfl
        cases hmark
      have hlmark : mark ∉ l := fun hc => (hl mark hc).elim hspace.symm ha
      have hlt : b.length < n := by
        rw [← hn, List.length_append, List.length_cons]
        omega
      have hrest := ih b.length hlt b rfl
      rw [hlr, splitOn_append_cons r hlmark, splitOn_append_cons b ha, List.map_cons, List.map_cons,
        hwords]
      rcases hr with rfl | rfl
      · rw [hrest]
      · rw [map_words_splitOn_cons (by decide) hspace, hrest]
    · have hspaced : mark ∉ respaced t := by
        intro hc
        rcases mem_of_mem_join hc with hc | ⟨w, hw, hc⟩
        · rw [List.mem_singleton.1 hc] at hmark
          cases hmark
        · exact ht (mem_of_mem_words hw hc)
      rw [splitOn_of_not_mem hspaced, splitOn_of_not_mem ht, List.map_singleton, List.map_singleton,
        words_respaced]

theorem map_trim_splitOn_respaced (hmark : isBlank mark = false) (t : Text) :
    (splitOn mark (respaced t)).map trim = (splitOn mark t).map respaced := by
  have htrim : ∀ p ∈ splitOn mark (respaced t), trim p = respaced p :=
    fun p hp => trim_eq_respaced (isInfix_of_mem_splitWhere hp)
  have hwords := congrArg (List.map (join [' '])) (map_words_splitOn_respaced hmark t)
  rw [List.map_map, List.map_map] at hwords
  rw [List.map_congr_left htrim]
  exact hwords

end WordMachine.Text
