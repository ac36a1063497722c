import WordMachine.Proofs.Text.Words

namespace WordMachine.Text

theorem flatMap_splitWhere {sep sep' : Char → Bool} (h : ∀ c, sep c = true → sep' c = true)
    (t : Text) : (splitWhere sep t).flatMap (splitWhere sep') = splitWhere sep' t := by
  induction t with
  | nil => rfl
  | cons c t ih =>
    by_cases hc : sep c = true
    · rw [splitWhere, splitWhere, if_pos hc, if_pos (h c hc), List.flatMap_cons, ih]
      rfl
    · obtain ⟨p, ps, hps⟩ := List.exists_cons_of_ne_nil (splitWhere_ne_nil sep t)
      rw [hps, List.flatMap_cons] at ih
      rw [splitWhere, if_neg hc, hps, List.flatMap_cons, splitWhere, splitWhere, ← ih]
      by_cases hc' : sep' c = true
      · rw [if_pos hc', if_pos hc', List.cons_append]
      · obtain ⟨q, qs, hqs⟩ := List.exists_cons_of_ne_nil (splitWhere_ne_nil sep' p)
        rw [if_neg hc', if_neg hc', hqs]
        rfl

/-- What is put after a text that holds no separator belongs to its last piece. -/
theorem exists_splitWhere_concat (sep : Char → Bool) (t : Text) :
    ∃ ps p, splitWhere sep t = ps ++ [p] ∧
      ∀ c, sep c = false → splitWhere sep (t ++ [c]) = ps ++ [p ++ [c]] := by
  induction t with
  | nil =>
    refine ⟨[], [], rfl, fun c hc => ?_⟩
    exact splitWhere_of_forall fun d hd => List.mem_singleton.1 hd ▸ hc
  | cons d t ih =>
    obtain ⟨ps, p, hps, hlast⟩ := ih
    by_cases hd : sep d = true
    · refine ⟨[] :: ps, p, ?_, fun c hc => ?_⟩
      · rw [splitWhere, if_pos hd, hps, List.cons_append]
      · rw [List.cons_append, splitWhere, if_pos hd, hlast c hc, List.cons_append]
    · -- The character belongs to the first piece, which is the last one if there are no others.
      cases ps with
      | nil =>
        refine ⟨[], d :: p, ?_, fun c hc => ?_⟩
        · rw [splitWhere, if_neg hd, hps]
          rfl
        · rw [List.cons_append, splitWhere, if_neg hd, hlast c hc]
          rfl
      | cons q ps =>
        refine ⟨(d :: q) :: ps, p, ?_, fun c hc => ?_⟩
        · rw [splitWhere, if_neg hd, hps]
          rfl
        · rw [List.cons_append, splitWhere, if_neg hd, hlast c hc]
          rfl

theorem exists_splitWhere_cut {sep : Char → Bool} {mark : Char} {t p : Text} {ps : List Text}
    (h : splitWhere sep t = p :: ps) (hmark : mark ∉ p) :
    ∃ qs, splitWhere sep (cut mark t).1 = p :: qs := by
  induction t generalizing p ps with
  | nil => exact ⟨ps, h⟩
  | cons c t ih =>
    rw [splitWhere] at h
    by_cases hsep : sep c = true
    · rw [if_pos hsep] at h
      obtain ⟨rfl, -⟩ := List.cons.inj h
      by_cases hc : c = mark
      · exact ⟨[], by rw [cut, if_pos hc, splitWhere]⟩
      · exact ⟨_, by rw [cut, if_neg hc, splitWhere, if_pos hsep]⟩
    · obtain ⟨q, qs, hq⟩ := List.exists_cons_of_ne_nil (splitWhere_ne_nil sep t)
      rw [if_neg hsep, hq] at h
      obtain ⟨rfl, -⟩ := List.cons.inj h
      obtain ⟨hne, hmark⟩ := not_or.1 (List.mem_cons.not.1 hmark)
      obtain ⟨rs, hrs⟩ := ih hq hmark
      refine ⟨rs, ?_⟩
      rw [cut, if_neg (Ne.symm hne), splitWhere, if_neg hsep, hrs]

theorem exists_words_cut {mark : Char} {t w : Text} {ws : List Text} (h : words t = w :: ws)
    (hblank : isBlank mark = false) (hmark : mark ∉ w) :
    ∃ ws', words (cut mark t).1 = w :: ws' := by
  induction t with
  | nil => cases h
  | cons c t ih =>
    by_cases hc : isBlank c = true
    · rw [words_cons_of_isBlank t hc] at h
      have hne : c ≠ mark := by
        rintro rfl
        rw [hblank] at hc
        cases hc
      obtain ⟨ws', hws⟩ := ih h
      exact ⟨ws', by rw [cut, if_neg hne, words_cons_of_isBlank _ hc, hws]⟩
    · obtain ⟨p, ps, hp⟩ := List.exists_cons_of_ne_nil (splitWhere_ne_nil isBlank (c :: t))
      -- The first piece has a character, so it is the first word.
      have hne : p ≠ [] := by
        rintro rfl
        simp only [splitWhere, if_neg hc] at hp
        split at hp <;> cases hp
      have hfilter (qs : List Text) :
          (p :: qs).filter (!·.isEmpty) = p :: qs.filter (!·.isEmpty) :=
        List.filter_cons_of_pos (by simpa using hne)
      rw [words, hp, hfilter] at h
      obtain ⟨rfl, -⟩ := List.cons.inj h
      obtain ⟨qs, hqs⟩ := exists_splitWhere_cut hp hmark
      exact ⟨qs.filter (!·.isEmpty), by rw [words, hqs, hfilter]⟩

/-- The lines of a text beside its pieces: the first line is the first piece, and the others are the
other pieces but for empty ones. -/
inductive LinesAsPieces (t : Text) : Prop
  | nil (h : t = [])
  | cons {l : Text} {ls ps : List Text} (hlines : lines t = l :: ls)
    (hpieces : splitWhere isLineBreak t = l :: ps)
    (hothers : ls.filter (!·.isEmpty) = ps.filter (!·.isEmpty))

theorem LinesAsPieces.filter_lines {t : Text} (h : LinesAsPieces t) :
    (lines t).filter (!·.isEmpty) = (splitWhere isLineBreak t).filter (!·.isEmpty) := by
  cases h with
  | nil h =>
    subst h
    rw [lines_nil]
    rfl
  | cons hlines hpieces hothers =>
    rw [hlines, hpieces, List.filter_cons, List.filter_cons, hothers]

theorem linesAsPieces (t : Text) : LinesAsPieces t := by
  induction t using lines.induct with
  | case1 => exact .nil rfl
  | case2 rest ih =>
    -- Between a carriage return and its line feed is an empty piece, but no line.
    have hpieces : splitWhere isLineBreak ('\r' :: '\n' :: rest) =
        [] :: [] :: splitWhere isLineBreak rest := rfl
    exact .cons (by rw [lines]) hpieces ih.filter_lines
  | case3 c rest hr hc ih =>
    have hhead : c = '\r' → rest.head? ≠ some '\n' := by
      rintro rfl hhead
      obtain ⟨r, rfl⟩ := List.head?_eq_some_iff.1 hhead
      exact hr r rfl rfl
    refine .cons (lines_cons_of_isLineBreak hc hhead) ?_ ih.filter_lines
    rw [splitWhere, if_pos hc]
  | case4 c rest hr hc hrest ih =>
    obtain rfl := lines_eq_nil_iff.1 hrest
    refine .cons (l := [c]) (lines_cons_of_not_isLineBreak [] (by simpa using hc)) ?_ rfl
    rw [splitWhere, if_neg hc]
    rfl
  | case5 c rest hr hc l ls hrest ih =>
    cases ih with
    | nil h =>
      subst h
      cases hrest
    | cons hlines hpieces hothers =>
      obtain ⟨rfl, rfl⟩ := List.cons.inj (hrest.symm.trans hlines)
      refine .cons (l := c :: l) ?_ ?_ hothers
      · rw [lines_cons_of_not_isLineBreak rest (by simpa using hc), hrest]
      · rw [splitWhere, if_neg hc, hpieces]

/-- Only an empty line is no piece between two line breaks. -/
theorem mem_splitWhere_of_mem_lines {t l : Text} (h : l ∈ lines t) (hne : l ≠ []) :
    l ∈ splitWhere isLineBreak t := by
  have hline : l ∈ (lines t).filter (!·.isEmpty) := List.mem_filter.2 ⟨h, by simpa using hne⟩
  rw [(linesAsPieces t).filter_lines] at hline
  exact (List.mem_filter.1 hline).1

/-- Where nothing is made of an empty line, the lines of a text give what its pieces between single
line breaks give. -/
theorem flatMap_lines {α : Type} {f : Text → List α} (hf : f [] = []) (t : Text) :
    (lines t).flatMap f = (splitWhere isLineBreak t).flatMap f := by
  have hfilter (ts : List Text) : (ts.filter (!·.isEmpty)).flatMap f = ts.flatMap f := by
    induction ts with
    | nil => rfl
    | cons t ts ih =>
      cases t with
      | nil => rw [List.filter_cons_of_neg (by simp), List.flatMap_cons, hf, ih, List.nil_append]
      | cons c t => rw [List.filter_cons_of_pos (by simp), List.flatMap_cons, List.flatMap_cons, ih]
  rw [← hfilter, (linesAsPieces t).filter_lines, hfilter]

theorem flatMap_words_lines (t : Text) : (lines t).flatMap words = words t := by
  rw [flatMap_lines words_nil, words, ← flatMap_splitWhere (fun _ => isBlank_of_isLineBreak) t,
    List.filter_flatMap]
  rfl

theorem exists_line_of_words {t w : Text} {ws : List Text} (h : words t = w :: ws) :
    ∃ l ∈ lines t, ∃ ws', words l = w :: ws' := by
  rw [← flatMap_words_lines] at h
  generalize lines t = ls at h ⊢
  induction ls with
  | nil => cases h
  | cons l ls ih =>
    rw [List.flatMap_cons] at h
    cases hl : words l with
    | nil =>
      rw [hl, List.nil_append] at h
      obtain ⟨l', hl', hws⟩ := ih h
      exact ⟨l', List.mem_cons_of_mem l hl', hws⟩
    | cons v vs =>
      rw [hl] at h
      obtain ⟨rfl, -⟩ := List.cons.inj h
      exact ⟨l, List.mem_cons_self, vs, hl⟩

theorem words_concat_of_isBlank {c : Char} (t : Text) (hc : isBlank c = true) :
    words (t ++ [c]) = words t := by
  rw [words_append_blank t [] hc, words_nil, List.append_nil]

theorem cut_concat_fst (mark c : Char) (t : Text) :
    (cut mark (t ++ [c])).1 = (cut mark t).1 ∨ (cut mark (t ++ [c])).1 = (cut mark t).1 ++ [c] := by
  induction t with
  | nil =>
    by_cases hc : c = mark
    · exact .inl (by simp [cut, hc])
    · exact .inr (by simp [cut, hc])
  | cons d t ih =>
    by_cases hd : d = mark
    · exact .inl (by simp [cut, hd])
    · simpa [cut, hd] using ih

theorem apply_trimRight {α : Type} {f : Text → α}
    (hf : ∀ t c, isBlank c = true → f (t ++ [c]) = f t) (t : Text) : f (trimRight t) = f t := by
  induction t using List.reverseRecOn with
  | nil => rfl
  | append_singleton t c ih =>
    by_cases hc : isBlank c = true
    · have htrim : trimRight (t ++ [c]) = trimRight t := List.rdropWhile_concat_pos isBlank t c hc
      rw [htrim, ih, hf t c hc]
    · exact congrArg f (List.rdropWhile_concat_neg isBlank t c hc)

end WordMachine.Text
