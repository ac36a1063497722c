import Mathlib.Data.List.DropRight
import WordMachine.Files.Path
import WordMachine.Files.Tree
import WordMachine.Proofs.Text.Words

namespace WordMachine.Path

/-- A directory as it is cut out of a path: without slashes at its end, unless it is nothing
else. -/
def trimSlashes (d : Text) : Text :=
  if d.all (· == '/') then d else Text.dropRightWhile (· == '/') d

/-- A directory with a slash after it, unless it is empty or ends in one. -/
def withSlash (d : Text) : Text := if d = [] ∨ d.getLast? = some '/' then d else d ++ ['/']

/-- A name that a file may have: longer than the two that stand for directories, and without
slashes. -/
structure IsName (name : Text) : Prop where
  long : 2 < name.length
  noSlash : '/' ∉ name

namespace IsName

variable {name : Text}

theorem ne_nil (h : IsName name) : name ≠ [] :=
  List.ne_nil_of_length_pos (Nat.lt_trans (by decide) h.long)

theorem ne_dot (h : IsName name) : name ≠ ['.'] := by
  rintro rfl
  exact absurd h.long (by decide)

theorem ne_dots (h : IsName name) : name ≠ ['.', '.'] := by
  rintro rfl
  exact absurd h.long (by decide)

theorem head?_ne (h : IsName name) : name.head? ≠ some '/' :=
  fun hh => h.noSlash (List.mem_of_mem_head? hh)

theorem bne_of_mem_reverse (h : IsName name) : ∀ c ∈ name.reverse, (c != '/') = true := by
  intro c hc
  have hne : c ≠ '/' := fun e => h.noSlash (e ▸ List.mem_reverse.1 hc)
  simpa using hne

theorem append {suffix : Text} (h : IsName suffix) {s : Text} (hs : '/' ∉ s) :
    IsName (s ++ suffix) where
  long := by
    have hlong := h.long
    rw [List.length_append]
    omega
  noSlash := by simp [hs, h.noSlash]

end IsName

theorem isName_listingSuffix : IsName listingSuffix := ⟨by decide, by decide⟩

theorem isName_loadSuffix : IsName loadSuffix := ⟨by decide, by decide⟩

theorem join_eq (d : Text) {name : Text} (h : IsName name) :
    join d name = withSlash d ++ name := by
  rw [join, if_neg h.head?_ne, withSlash]
  split
  · rfl
  · rw [List.append_assoc, List.singleton_append]

theorem isPrefixOf_join (d : Text) {name : Text} (h : IsName name) : d <+: join d name := by
  rw [join_eq d h, withSlash]
  split
  · exact List.prefix_append d name
  · rw [List.append_assoc]
    exact List.prefix_append d _

theorem withSlash_eq_nil_or_getLast? (d : Text) :
    withSlash d = [] ∨ (withSlash d).getLast? = some '/' := by
  unfold withSlash
  split
  · next h => exact h.imp_left fun hd => hd
  · exact .inr (by simp)

theorem withSlash_append_slash (d : Text) : withSlash (d ++ ['/']) = d ++ ['/'] :=
  if_pos (.inr List.getLast?_concat)

theorem withSlash_append_of_ne (d : Text) {c : Char} (hc : c ≠ '/') :
    withSlash (d ++ [c]) = d ++ [c] ++ ['/'] := by
  refine if_neg (not_or.2 ⟨by simp, ?_⟩)
  rw [List.getLast?_concat]
  exact fun hlast => hc (Option.some.inj hlast)

theorem dropRightWhile_join (d : Text) {name : Text} (h : IsName name) :
    Text.dropRightWhile (· != '/') (join d name) = withSlash d := by
  rw [join_eq d h, Text.dropRightWhile, List.reverse_append,
    List.dropWhile_append_of_pos h.bne_of_mem_reverse]
  rcases withSlash_eq_nil_or_getLast? d with hd | hd
  · rw [hd]
    rfl
  · obtain ⟨e, he⟩ := List.getLast?_eq_some_iff.1 hd
    rw [he]
    simp

theorem baseName_join (d : Text) {name : Text} (h : IsName name) :
    baseName (join d name) = name := by
  rw [baseName, join_eq d h, List.reverse_append,
    List.takeWhile_append_of_pos h.bne_of_mem_reverse]
  rcases withSlash_eq_nil_or_getLast? d with hd | hd
  · rw [hd]
    simp
  · obtain ⟨e, he⟩ := List.getLast?_eq_some_iff.1 hd
    rw [he]
    simp

theorem dropRightWhile_append_slash (d : Text) :
    Text.dropRightWhile (· == '/') (d ++ ['/']) = Text.dropRightWhile (· == '/') d :=
  List.rdropWhile_concat_pos (· == '/') d '/' (by decide)

theorem dropRightWhile_append_of_ne (d : Text) {c : Char} (hc : c ≠ '/') :
    Text.dropRightWhile (· == '/') (d ++ [c]) = d ++ [c] :=
  List.rdropWhile_concat_neg (· == '/') d c (by simpa using hc)

theorem directory_join (d : Text) {name : Text} (h : IsName name) :
    directory (join d name) = trimSlashes d := by
  rw [directory, dropRightWhile_join d h, trimSlashes, withSlash]
  by_cases hd : d = [] ∨ d.getLast? = some '/'
  · rw [if_pos hd]
  · -- A slash is put after the directory, so it is neither empty nor made of slashes alone.
    have hne : d ≠ [] := fun e => hd (.inl e)
    have hlast : d.getLast hne ≠ '/' :=
      fun e => hd (.inr (by rw [List.getLast?_eq_some_getLast hne, e]))
    have hall : ¬ d.all (· == '/') = true := by
      intro hall
      have hslash := List.all_eq_true.1 hall _ (List.getLast_mem hne)
      exact hlast (by simpa using hslash)
    have hall' : ¬ (d ++ ['/']).all (· == '/') = true := by
      rw [List.all_append]
      simpa using hall
    rw [if_neg hd, if_neg hall, if_neg hall', dropRightWhile_append_slash]

theorem slash_not_mem_baseName (p : Text) : '/' ∉ baseName p := by
  intro h
  have hc := List.mem_takeWhile_imp (List.mem_reverse.1 h)
  simp at hc

theorem baseName_subset (p : Text) : baseName p ⊆ p := by
  intro c hc
  exact List.mem_reverse.1 ((List.takeWhile_prefix _).subset (List.mem_reverse.1 hc))

theorem stem_subset (name : Text) : stem name ⊆ name := by
  simp only [stem]
  split
  · exact List.Subset.refl name
  · exact List.Subset.trans (List.dropLast_sublist _).subset
      (List.rdropWhile_prefix (· != '.') name).subset

theorem slash_not_mem_stem {name : Text} (h : '/' ∉ name) : '/' ∉ stem name :=
  fun hc => h (stem_subset name hc)

theorem isName_output {suffix : Text} (h : IsName suffix) (source : Text) :
    IsName (stem (baseName source) ++ suffix) :=
  h.append (slash_not_mem_stem (slash_not_mem_baseName source))

/-- The extension of a load file and its mark are dropped again. -/
theorem dropLoadMark_stem (s : Text) : dropLoadMark (stem (s ++ loadSuffix)) = s := by
  have hbody : (Text.dropRightWhile (· != '.') (s ++ loadSuffix)).dropLast =
      s ++ "_load".toList := by
    have hrev : (s ++ loadSuffix).reverse = "txt".toList ++ '.' :: "daol_".toList ++ s.reverse := by
      rw [List.reverse_append]
      rfl
    rw [Text.dropRightWhile, hrev]
    simp
  have hall : (s ++ "_load".toList).all (· == '.') = false := by simp
  rw [stem, hbody]
  simp only [hall, Bool.false_eq_true, if_false]
  rw [dropLoadMark]
  have hsuffix : ("_load".toList).isSuffixOf (s ++ "_load".toList) = true :=
    List.isSuffixOf_iff_suffix.2 (List.suffix_append _ _)
  rw [if_pos hsuffix]
  simp

/-- The listing beside a load file that was written has the name of the listing that was written
with it. -/
theorem siblingListing_outputs (source d : Text) :
    siblingListing (outputs source d).2 =
      join (trimSlashes d) (stem (baseName source) ++ listingSuffix) := by
  have hname := isName_output isName_loadSuffix source
  change join (directory (join d _)) (dropLoadMark (stem (baseName (join d _))) ++ _) = _
  rw [directory_join d hname, baseName_join d hname, dropLoadMark_stem]

/-- The parts of a path between its slashes, empty ones left out. -/
def parts (p : Text) : List Text := (Text.splitOn '/' p).filter (!·.isEmpty)

theorem parts_append_slash (a b : Text) : parts (a ++ '/' :: b) = parts a ++ parts b := by
  rw [parts, Text.splitOn, Text.splitWhere_append_sep a b (by decide), List.filter_append]
  rfl

theorem parts_of_not_mem {name : Text} (hne : name ≠ []) (h : '/' ∉ name) :
    parts name = [name] := by
  have hsep : ∀ c ∈ name, (c == '/') = false := by
    intro c hc
    have hne : c ≠ '/' := fun e => h (e ▸ hc)
    simpa using hne
  simp [parts, Text.splitOn, Text.splitWhere_of_forall hsep, hne]

theorem parts_of_isName {name : Text} (h : IsName name) : parts name = [name] :=
  parts_of_not_mem h.ne_nil h.noSlash

theorem parts_dropRightWhile (d : Text) :
    parts (Text.dropRightWhile (· == '/') d) = parts d := by
  induction d using List.reverseRecOn with
  | nil => rfl
  | append_singleton d c ih =>
    by_cases hc : c = '/'
    · subst hc
      rw [dropRightWhile_append_slash, ih, parts_append_slash]
      exact (List.append_nil _).symm
    · rw [dropRightWhile_append_of_ne d hc]

theorem parts_trimSlashes (d : Text) : parts (trimSlashes d) = parts d := by
  unfold trimSlashes
  split
  · rfl
  · exact parts_dropRightWhile d

theorem parts_join (d : Text) {name : Text} (h : IsName name) :
    parts (join d name) = parts d ++ [name] := by
  rw [join_eq d h, withSlash]
  split
  · next hd =>
    rcases hd with rfl | hd
    · exact parts_of_isName h
    · obtain ⟨e, rfl⟩ := List.getLast?_eq_some_iff.1 hd
      rw [List.append_assoc, List.singleton_append, parts_append_slash, parts_append_slash,
        parts_of_isName h]
      exact congrArg (· ++ [name]) (List.append_nil _).symm
  · rw [List.append_assoc, List.singleton_append, parts_append_slash, parts_of_isName h]

theorem withSlash_dropRightWhile_isPrefixOf (d : Text) :
    withSlash (Text.dropRightWhile (· == '/') d) <+: withSlash d := by
  induction d using List.reverseRecOn with
  | nil => exact List.prefix_rfl
  | append_singleton d c ih =>
    by_cases hc : c = '/'
    · subst hc
      rw [dropRightWhile_append_slash, withSlash_append_slash]
      refine ih.trans ?_
      unfold withSlash
      split
      · exact List.prefix_append d ['/']
      · exact List.prefix_rfl
    · have hkeep := congrArg withSlash (dropRightWhile_append_of_ne d hc)
      exact ⟨[], (List.append_nil _).trans hkeep⟩

theorem withSlash_trimSlashes_isPrefixOf (d : Text) :
    withSlash (trimSlashes d) <+: withSlash d := by
  unfold trimSlashes
  split
  · exact List.prefix_rfl
  · exact withSlash_dropRightWhile_isPrefixOf d

theorem head?_join (d : Text) {name : Text} (h : IsName name) :
    (join d name).head? = some '/' ↔ d.head? = some '/' := by
  rw [join_eq d h]
  cases d with
  | nil => simpa [withSlash] using h.head?_ne
  | cons c d =>
    have hhead : (withSlash (c :: d) ++ name).head? = some c := by
      unfold withSlash
      split <;> rfl
    rw [hhead, List.head?_cons]

theorem head?_trimSlashes (d : Text) : (trimSlashes d).head? = d.head? := by
  unfold trimSlashes
  split
  · rfl
  · next hall =>
    have hne : Text.dropRightWhile (· == '/') d ≠ [] :=
      fun e => hall (List.all_eq_true.2 (List.rdropWhile_eq_nil_iff.1 e))
    obtain ⟨rest, hrest⟩ := List.rdropWhile_prefix (· == '/') d
    obtain ⟨c, e, hc⟩ := List.exists_cons_of_ne_nil hne
    have hd : d = c :: (e ++ rest) := by
      rw [← hrest]
      exact congrArg (· ++ rest) hc
    rw [hc, hd]
    rfl

theorem getLast?_join_ne (d : Text) {name : Text} (h : IsName name) :
    (join d name).getLast? ≠ some '/' := by
  rw [join_eq d h, List.getLast?_append_of_ne_nil _ h.ne_nil]
  exact fun hlast => h.noSlash (List.mem_of_mem_getLast? hlast)

theorem not_mem_output {source d suffix : Text} {c : Char} (hsuffix : IsName suffix) (hc : c ≠ '/')
    (hsource : c ∉ source) (hd : c ∉ d) (h : c ∉ suffix) :
    c ∉ join d (stem (baseName source) ++ suffix) := by
  have hstem : c ∉ stem (baseName source) :=
    fun hmem => hsource (baseName_subset source (stem_subset _ hmem))
  have hslash : c ∉ withSlash d := by
    unfold withSlash
    split
    · exact hd
    · simp [hd, hc]
  simp only [join_eq d (isName_output hsuffix source), List.mem_append, hslash, hstem, h, or_self,
    not_false_eq_true]

theorem not_mem_siblingListing {source d : Text} {c : Char} (h : c ∉ (outputs source d).1) :
    c ∉ siblingListing (outputs source d).2 := by
  rw [siblingListing_outputs]
  have hname := isName_output isName_listingSuffix source
  change c ∉ join d (stem (baseName source) ++ listingSuffix) at h
  rw [join_eq _ hname, List.mem_append, not_or] at h ⊢
  exact ⟨fun hc => h.1 ((withSlash_trimSlashes_isPrefixOf d).subset hc), h.2⟩

theorem trimSlashes_isPrefixOf (d : Text) : trimSlashes d <+: d := by
  unfold trimSlashes
  split
  · exact List.prefix_rfl
  · exact List.rdropWhile_prefix (· == '/') d

theorem dropRightWhile_append_baseName (p : Text) :
    Text.dropRightWhile (· != '/') p ++ baseName p = p :=
  List.rdropWhile_append_rtakeWhile

theorem dropRightWhile_eq_nil_or_append (mark : Char) (p : Text) :
    Text.dropRightWhile (· != mark) p = [] ∨
      ∃ q, Text.dropRightWhile (· != mark) p = q ++ [mark] := by
  induction p using List.reverseRecOn with
  | nil => exact .inl rfl
  | append_singleton p c ih =>
    have hcut : Text.dropRightWhile (· != mark) (p ++ [c]) =
        if (c != mark) = true then Text.dropRightWhile (· != mark) p else p ++ [c] :=
      List.rdropWhile_concat (· != mark) p c
    rw [hcut]
    split
    · exact ih
    · next hc =>
      obtain rfl : c = mark := by simpa using hc
      exact .inr ⟨p, rfl⟩

theorem baseName_ne_nil {p : Text} (hne : p ≠ []) (hlast : p.getLast? ≠ some '/') :
    baseName p ≠ [] := by
  intro hname
  have hp := dropRightWhile_append_baseName p
  rw [hname, List.append_nil] at hp
  rcases dropRightWhile_eq_nil_or_append '/' p with hq | ⟨q, hq⟩
  · exact hne (hp.symm.trans hq)
  · rw [← hp, hq, List.getLast?_concat] at hlast
    exact hlast rfl

theorem directory_isPrefixOf (p : Text) : directory p <+: p :=
  (trimSlashes_isPrefixOf _).trans (List.rdropWhile_prefix (· != '/') p)

theorem parts_directory_append (p : Text) :
    parts (directory p) ++ parts (baseName p) = parts p := by
  have hp := dropRightWhile_append_baseName p
  have hdirectory : parts (directory p) = parts (Text.dropRightWhile (· != '/') p) :=
    parts_trimSlashes _
  rw [hdirectory]
  rcases dropRightWhile_eq_nil_or_append '/' p with hq | ⟨q, hq⟩
  · rw [hq, List.nil_append] at hp
    rw [hq, hp]
    rfl
  · rw [hq, List.append_assoc, List.singleton_append] at hp
    rw [hq, ← hp, parts_append_slash, parts_append_slash, hp]
    exact congrArg (· ++ _) (List.append_nil _)

theorem getLast?_parts {p : Text} (hne : p ≠ []) (hlast : p.getLast? ≠ some '/') :
    (parts p).getLast? = some (baseName p) := by
  rw [← parts_directory_append, parts_of_not_mem (baseName_ne_nil hne hlast)
    (slash_not_mem_baseName p), List.getLast?_concat]

theorem parts_directory_isPrefixOf (p : Text) : parts (directory p) <+: parts p :=
  ⟨parts (baseName p), parts_directory_append p⟩

theorem parent_isPrefixOf (p : Text) : (parent p).1 <+: p := by
  unfold parent
  split
  · exact (directory_isPrefixOf _).trans (directory_isPrefixOf p)
  · exact directory_isPrefixOf p

theorem parts_parent_isPrefixOf (p : Text) : parts (parent p).1 <+: parts p := by
  unfold parent
  split
  · exact (parts_directory_isPrefixOf _).trans (parts_directory_isPrefixOf p)
  · exact parts_directory_isPrefixOf p

theorem head?_of_isPrefixOf {p q : Text} (h : p <+: q) (hp : p ≠ []) : p.head? = q.head? := by
  obtain ⟨c, p, rfl⟩ := List.exists_cons_of_ne_nil hp
  obtain ⟨rest, rfl⟩ := h
  rfl

theorem head?_of_parts_eq_nil {p : Text} (hne : p ≠ []) (h : parts p = []) :
    p.head? = some '/' := by
  obtain ⟨c, p, rfl⟩ := List.exists_cons_of_ne_nil hne
  by_cases hc : c = '/'
  · rw [hc, List.head?_cons]
  · obtain ⟨q, qs, hq⟩ := List.exists_cons_of_ne_nil (Text.splitWhere_ne_nil (· == '/') p)
    have hc : (c == '/') = false := by simpa using hc
    simp [parts, Text.splitOn, Text.splitWhere, hc, hq] at h

/-- An output file does not have the name of its source: what is put after the stem does not start
with a dot. -/
theorem stem_append_ne {name suffix : Text} (hne : suffix ≠ []) (hdot : suffix.head? ≠ some '.') :
    stem name ++ suffix ≠ name := by
  obtain ⟨c, suffix, rfl⟩ := List.exists_cons_of_ne_nil hne
  simp only [stem]
  split
  · intro h
    have hlength := congrArg List.length h
    simp at hlength
  · next hall =>
    rcases dropRightWhile_eq_nil_or_append '.' name with hq | ⟨q, hq⟩
    · rw [hq] at hall
      exact absurd rfl hall
    · obtain ⟨rest, hrest⟩ := List.rdropWhile_prefix (· != '.') name
      have hname : q ++ '.' :: rest = name := by
        rw [← hrest, ← List.singleton_append, ← List.append_assoc]
        exact congrArg (· ++ rest) hq.symm
      rw [hq, List.dropLast_concat]
      intro h
      have htail := List.append_cancel_left (h.trans hname.symm)
      exact hdot (congrArg some (List.cons.inj htail).1)

end WordMachine.Path
