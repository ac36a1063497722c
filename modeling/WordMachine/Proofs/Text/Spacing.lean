import Mathlib.Data.List.Chain
import WordMachine.Proofs.Text.Words

namespace WordMachine.Text

theorem join_singleton (sep p : Text) : join sep [p] = p := List.intercalate_singleton

theorem join_cons_cons (sep p q : Text) (ps : List Text) :
    join sep (p :: q :: ps) = p ++ sep ++ join sep (q :: ps) :=
  List.intercalate_cons_cons

theorem splitWhere_eq_splitOnP (sep : Char → Bool) (t : Text) :
    splitWhere sep t = t.splitOnP sep := by
  induction t with
  | nil => rfl
  | cons c t ih =>
    obtain ⟨p, ps, h⟩ := List.exists_cons_of_ne_nil (splitWhere_ne_nil sep t)
    rw [List.splitOnP_cons_eq_if_modifyHead, ← ih, splitWhere, h]
    rfl

theorem splitOn_join {mark : Char} {pieces : List Text} (h : ∀ p ∈ pieces, mark ∉ p)
    (hne : pieces ≠ []) : splitOn mark (join [mark] pieces) = pieces := by
  rw [splitOn, splitWhere_eq_splitOnP]
  exact List.splitOn_intercalate mark h hne

theorem join_splitOn (mark : Char) (t : Text) : join [mark] (splitOn mark t) = t := by
  rw [splitOn, splitWhere_eq_splitOnP]
  exact List.intercalate_splitOn mark

theorem splitWhere_congr {sep sep' : Char → Bool} {t : Text} (h : ∀ c ∈ t, sep c = sep' c) :
    splitWhere sep t = splitWhere sep' t := by
  induction t with
  | nil => rfl
  | cons c t ih =>
    have hc := h c List.mem_cons_self
    have ht := ih fun d hd => h d (List.mem_cons_of_mem c hd)
    rw [splitWhere, splitWhere, hc, ht]

theorem splitWhere_cons_of_not_sep {sep : Char → Bool} {c : Char} {t p : Text} {ps : List Text}
    (hc : sep c = false) (h : splitWhere sep t = p :: ps) :
    splitWhere sep (c :: t) = (c :: p) :: ps := by
  rw [splitWhere, hc, h]
  rfl

theorem isInfix_of_splitWhere {sep : Char → Bool} {t p : Text} {ps : List Text}
    (h : splitWhere sep t = p :: ps) : p <+: t ∧ ∀ q ∈ ps, q <:+: t := by
  induction t generalizing p ps with
  | nil =>
    cases h
    exact ⟨List.nil_prefix, nofun⟩
  | cons c t ih =>
    obtain ⟨r, rs, hr⟩ := List.exists_cons_of_ne_nil (splitWhere_ne_nil sep t)
    obtain ⟨hfirst, hothers⟩ := ih hr
    simp only [splitWhere, hr] at h
    split at h
    · cases h
      refine ⟨List.nil_prefix, List.forall_mem_cons.2 ⟨?_, fun q hq => ?_⟩⟩
      · exact List.infix_cons hfirst.isInfix
      · exact List.infix_cons (hothers q hq)
    · cases h
      exact ⟨List.prefix_cons_inj c |>.2 hfirst, fun q hq => List.infix_cons (hothers q hq)⟩

theorem isInfix_of_mem_splitWhere {sep : Char → Bool} {t p : Text} (h : p ∈ splitWhere sep t) :
    p <:+: t := by
  obtain ⟨q, qs, hq⟩ := List.exists_cons_of_ne_nil (splitWhere_ne_nil sep t)
  obtain ⟨hfirst, hothers⟩ := isInfix_of_splitWhere hq
  rw [hq] at h
  rcases List.mem_cons.1 h with rfl | h
  · exact hfirst.isInfix
  · exact hothers p h

theorem trim_isInfix (t : Text) : trim t <:+: t :=
  (List.rdropWhile_prefix isBlank (trimLeft t)).isInfix.trans
    (List.dropWhile_suffix isBlank).isInfix

theorem isBlank_eq_false_of_mem_head?_trim {t : Text} {c : Char} (h : c ∈ (trim t).head?) :
    isBlank c = false := by
  obtain ⟨rest, hrest⟩ := List.rdropWhile_prefix isBlank (trimLeft t)
  change trim t ++ rest = trimLeft t at hrest
  have hleft : (trimLeft t).head? = some c := by
    rw [← hrest, List.head?_append, Option.mem_def.1 h]
    rfl
  have hne : trimLeft t ≠ [] := by
    intro hnil
    rw [hnil] at hleft
    cases hleft
  have hhead := List.head_dropWhile_not isBlank hne
  change isBlank ((trimLeft t).head hne) = false at hhead
  rw [List.head?_eq_some_head hne, Option.some.injEq] at hleft
  rwa [hleft] at hhead

theorem isBlank_eq_false_of_mem_getLast?_trim {t : Text} {c : Char} (h : c ∈ (trim t).getLast?) :
    isBlank c = false := by
  have hne : trim t ≠ [] := by
    intro hnil
    rw [hnil] at h
    cases h
  have hlast := List.rdropWhile_last_not isBlank (trimLeft t) hne
  change ¬ isBlank ((trim t).getLast hne) = true at hlast
  rw [Option.mem_def, List.getLast?_eq_some_getLast hne, Option.some.injEq] at h
  rw [h] at hlast
  exact Bool.eq_false_iff.2 hlast

theorem trim_trim (t : Text) : trim (trim t) = trim t :=
  trim_of_ends (fun _ hc => isBlank_eq_false_of_mem_head?_trim hc)
    (fun _ hc => isBlank_eq_false_of_mem_getLast?_trim hc)

def NoDoubleBlank (t : Text) : Prop := t.IsChain fun c d => isBlank c = true → isBlank d = false

/-- Words with single spaces between them. -/
structure SingleSpaced (t : Text) : Prop where
  ne_nil : t ≠ []
  space : ∀ c ∈ t, isBlank c = true → c = ' '
  noDoubleBlank : NoDoubleBlank t
  head : ∀ c ∈ t.head?, isBlank c = false
  last : ∀ c ∈ t.getLast?, isBlank c = false

theorem noDoubleBlank_of_forall {t : Text} (h : ∀ c ∈ t, isBlank c = false) : NoDoubleBlank t := by
  induction t with
  | nil => exact List.IsChain.nil
  | cons c t ih =>
    refine List.isChain_cons.2 ⟨fun d hd _ => ?_, ih fun d hd => h d (List.mem_cons_of_mem c hd)⟩
    exact h d (List.mem_cons_of_mem c (List.mem_of_mem_head? hd))

theorem NoDoubleBlank.append {a b : Text} (ha : NoDoubleBlank a) (hb : NoDoubleBlank b)
    (h : (∀ c ∈ a.getLast?, isBlank c = false) ∨ ∀ c ∈ b.head?, isBlank c = false) :
    NoDoubleBlank (a ++ b) := by
  refine List.isChain_append.2 ⟨ha, hb, fun c hc d hd hblank => ?_⟩
  rcases h with h | h
  · rw [h c hc] at hblank
    cases hblank
  · exact h d hd

theorem singleSpaced_of_forall {t : Text} (hne : t ≠ []) (h : ∀ c ∈ t, isBlank c = false) :
    SingleSpaced t where
  ne_nil := hne
  space c hc hblank := by
    rw [h c hc] at hblank
    cases hblank
  noDoubleBlank := noDoubleBlank_of_forall h
  head c hc := h c (List.mem_of_mem_head? hc)
  last c hc := h c (List.mem_of_mem_getLast? hc)

theorem noDoubleBlank_join {ws : List Text}
    (h : ∀ w ∈ ws, w ≠ [] ∧ ∀ c ∈ w, isBlank c = false) : NoDoubleBlank (join [' '] ws) := by
  induction ws with
  | nil => exact List.IsChain.nil
  | cons w ws ih =>
    obtain ⟨-, hw⟩ := h w List.mem_cons_self
    have hrest := ih fun v hv => h v (List.mem_cons_of_mem w hv)
    cases ws with
    | nil =>
      rw [join_singleton]
      exact noDoubleBlank_of_forall hw
    | cons v vs =>
      obtain ⟨hv, hvb⟩ := h v (by simp)
      have hspace : NoDoubleBlank (w ++ [' ']) := by
        apply (noDoubleBlank_of_forall hw).append (List.IsChain.singleton _)
        exact .inl fun c hc => hw c (List.mem_of_mem_getLast? hc)
      -- What follows the space starts with the next word.
      have hhead : (join [' '] (v :: vs)).head? = v.head? := by
        cases vs with
        | nil => rw [join_singleton]
        | cons u us =>
          rw [join_cons_cons, List.append_assoc, List.head?_append_of_ne_nil _ hv]
      rw [join_cons_cons]
      refine hspace.append hrest (.inr fun c hc => hvb c ?_)
      rw [hhead] at hc
      exact List.mem_of_mem_head? hc

theorem singleSpaced_trim {ws : List Text} {p : Text}
    (h : ∀ w ∈ ws, w ≠ [] ∧ ∀ c ∈ w, isBlank c = false) (hp : p <:+: join [' '] ws)
    (hne : trim p ≠ []) : SingleSpaced (trim p) where
  ne_nil := hne
  space c hc hblank := by
    have hmem : c ∈ join [' '] ws := hp.subset ((trim_isInfix p).subset hc)
    rcases mem_of_mem_join hmem with hs | ⟨w, hw, hcw⟩
    · exact List.mem_singleton.1 hs
    · rw [(h w hw).2 c hcw] at hblank
      cases hblank
  noDoubleBlank := List.IsChain.infix (noDoubleBlank_join h) ((trim_isInfix p).trans hp)
  head _ hc := isBlank_eq_false_of_mem_head?_trim hc
  last _ hc := isBlank_eq_false_of_mem_getLast?_trim hc

namespace SingleSpaced

variable {t a b : Text}

theorem trim_eq (h : SingleSpaced t) : trim t = t := trim_of_ends h.head h.last

theorem append_mark {mark : Char} (ha : SingleSpaced a) (hb : SingleSpaced b)
    (hmark : isBlank mark = false) : SingleSpaced (a ++ mark :: b) where
  ne_nil := by simp
  space c hc hblank := by
    rcases List.mem_append.1 hc with hc | hc
    · exact ha.space c hc hblank
    · rcases List.mem_cons.1 hc with rfl | hc
      · rw [hmark] at hblank
        cases hblank
      · exact hb.space c hc hblank
  noDoubleBlank := by
    have hright : NoDoubleBlank (mark :: b) := by
      apply (noDoubleBlank_of_forall (t := [mark]) (by simpa using hmark)).append hb.noDoubleBlank
      exact .inr hb.head
    exact ha.noDoubleBlank.append hright (.inl ha.last)
  head c hc := by
    rw [List.head?_append_of_ne_nil _ ha.ne_nil] at hc
    exact ha.head c hc
  last c hc := by
    rw [List.append_cons, List.getLast?_append_of_ne_nil _ hb.ne_nil] at hc
    exact hb.last c hc

theorem join_mark {mark : Char} {pieces : List Text} (hmark : isBlank mark = false)
    (hne : pieces ≠ []) (h : ∀ p ∈ pieces, SingleSpaced p) : SingleSpaced (join [mark] pieces) := by
  induction pieces with
  | nil => exact absurd rfl hne
  | cons p ps ih =>
    have hp := h p List.mem_cons_self
    cases ps with
    | nil =>
      rw [join_singleton]
      exact hp
    | cons q qs =>
      have hrest := ih (by simp) fun r hr => h r (List.mem_cons_of_mem p hr)
      rw [join_cons_cons, List.append_assoc]
      exact hp.append_mark hrest hmark

/-- Behind the first blank no piece is empty, since another blank or the end would follow it. -/
theorem ne_nil_of_mem_tail_splitWhere {t : Text} (h : NoDoubleBlank t)
    (hlast : ∀ c ∈ t.getLast?, isBlank c = false) :
    ∀ p ∈ (splitWhere isBlank t).tail, p ≠ [] := by
  induction t with
  | nil => exact nofun
  | cons c t ih =>
    obtain ⟨hnext, hchain⟩ := List.isChain_cons.1 h
    -- What follows the first character has the same end, if there is any.
    have hrest : t ≠ [] → ∀ p ∈ (splitWhere isBlank t).tail, p ≠ [] := by
      intro hne
      apply ih hchain
      intro d hd
      apply hlast d
      rwa [List.getLast?_cons_of_ne_nil hne]
    cases t with
    | nil =>
      have hc : isBlank c = false := hlast c rfl
      simp [splitWhere, hc]
    | cons d t =>
      have hrest := hrest (by simp)
      obtain ⟨p, ps, hp⟩ := List.exists_cons_of_ne_nil (splitWhere_ne_nil isBlank t)
      cases hc : isBlank c with
      | false =>
        obtain ⟨q, qs, hq⟩ := List.exists_cons_of_ne_nil (splitWhere_ne_nil isBlank (d :: t))
        rw [hq] at hrest
        rw [splitWhere, hc, hq]
        exact hrest
      | true =>
        -- No blank follows a blank, so the next character begins a piece.
        have hsplit := splitWhere_cons_of_not_sep (hnext d rfl hc) hp
        rw [hsplit] at hrest
        rw [splitWhere, hc, hsplit]
        exact List.forall_mem_cons.2 ⟨by simp, hrest⟩

theorem join_words (h : SingleSpaced t) : join [' '] (words t) = t := by
  have hpieces : ∀ p ∈ splitWhere isBlank t, p ≠ [] := by
    obtain ⟨c, t', rfl⟩ := List.exists_cons_of_ne_nil h.ne_nil
    obtain ⟨p, ps, hp⟩ := List.exists_cons_of_ne_nil (splitWhere_ne_nil isBlank t')
    have htail := ne_nil_of_mem_tail_splitWhere h.noDoubleBlank h.last
    rw [splitWhere_cons_of_not_sep (h.head c rfl) hp] at htail ⊢
    exact List.forall_mem_cons.2 ⟨by simp, htail⟩
  have hspaces : splitWhere isBlank t = splitOn ' ' t := by
    apply splitWhere_congr
    intro c hc
    by_cases hblank : isBlank c = true
    · rw [h.space c hc hblank]
      decide
    · have hne : c ≠ ' ' := by
        rintro rfl
        exact hblank (by decide)
      simp [hblank, hne]
  have hwords : words t = splitWhere isBlank t := by
    apply List.filter_eq_self.2
    intro p hp
    simp [hpieces p hp]
  rw [hwords, hspaces, join_splitOn]

end SingleSpaced
end WordMachine.Text
