import WordMachine.Proofs.Files.Paths

namespace WordMachine.Path

theorem length_withSlash_le (d : Text) : (withSlash d).length ≤ d.length + 1 := by
  unfold withSlash
  split
  · exact Nat.le_succ _
  · rw [List.length_append, List.length_singleton]

theorem slashes_suffix_concat_iff {d : Text} {c : Char} :
    ['/', '/'] <:+ d ++ [c] ↔ c = '/' ∧ d.getLast? = some '/' := by
  constructor
  · rintro ⟨t, ht⟩
    have hconcat : (t ++ ['/']) ++ ['/'] = d ++ [c] := by simpa using ht
    obtain ⟨rfl, hc⟩ := List.append_inj' hconcat rfl
    exact ⟨(List.singleton_inj.1 hc).symm, List.getLast?_concat⟩
  · rintro ⟨rfl, hlast⟩
    obtain ⟨t, rfl⟩ := List.getLast?_eq_some_iff.1 hlast
    exact ⟨t, by simp⟩

/-- The second of two slashes at the end is lost, so the text gets shorter. -/
theorem withSlash_dropRightWhile_ne (d : Text) :
    withSlash (Text.dropRightWhile (· == '/') (d ++ ['/'] ++ ['/'])) ≠ d ++ ['/'] ++ ['/'] := by
  intro heq
  rw [dropRightWhile_append_slash, dropRightWhile_append_slash] at heq
  have hshort := (withSlash_dropRightWhile_isPrefixOf d).length_le
  have hslash := length_withSlash_le d
  have hlength := congrArg List.length heq
  simp only [List.length_append, List.length_singleton] at hlength
  omega

/-- Cutting a directory out of a path takes away the slashes at its end, but for the one that is put
back when a name follows. -/
theorem withSlash_trimSlashes_eq_iff (d : Text) :
    withSlash (trimSlashes d) = withSlash d ↔ (∀ c ∈ d, c = '/') ∨ ¬ ['/', '/'] <:+ d := by
  by_cases hall : d.all (· == '/') = true
  · rw [trimSlashes, if_pos hall]
    exact iff_of_true rfl (.inl (by simpa using hall))
  have hnot : ¬ ∀ c ∈ d, c = '/' := by simpa using hall
  rw [trimSlashes, if_neg hall, or_iff_right hnot]
  obtain rfl | ⟨e, c, rfl⟩ := d.eq_nil_or_concat'
  · exact absurd (List.forall_mem_nil _) hnot
  rw [slashes_suffix_concat_iff]
  by_cases hc : c = '/'
  · subst hc
    rw [withSlash_append_slash]
    obtain rfl | ⟨e, c, rfl⟩ := e.eq_nil_or_concat'
    · exact absurd (by simp) hnot
    rw [List.getLast?_concat]
    by_cases hc : c = '/'
    · subst hc
      exact iff_of_false (withSlash_dropRightWhile_ne e) (not_not.2 ⟨rfl, rfl⟩)
    · rw [dropRightWhile_append_slash, dropRightWhile_append_of_ne e hc]
      exact iff_of_true (withSlash_append_of_ne e hc) fun h => hc (Option.some.inj h.2)
  · rw [dropRightWhile_append_of_ne e hc]
    exact iff_of_true rfl fun h => hc h.1

theorem trimSlashes_trimSlashes (d : Text) : trimSlashes (trimSlashes d) = trimSlashes d := by
  by_cases hall : d.all (· == '/') = true
  · have hself : trimSlashes d = d := if_pos hall
    rw [hself, hself]
  · have htrimmed : trimSlashes d = Text.dropRightWhile (· == '/') d := if_neg hall
    have hagain : Text.dropRightWhile (· == '/') (Text.dropRightWhile (· == '/') d) =
        Text.dropRightWhile (· == '/') d := List.rdropWhile_idempotent (· == '/') d
    rw [htrimmed, trimSlashes, hagain, ite_self]

/-- The listing that is looked for beside a load file has the directory and the name of the one that
was written, which is named after the source. It has the same path exactly if the directory given was
empty, consists of slashes, or does not end in two of them. -/
theorem siblingListing_finds_written (source d : Text) :
    let written := (outputs source d).1
    let found := siblingListing (outputs source d).2
    (directory found, baseName found) = (directory written, baseName written) ∧
      baseName written = stem (baseName source) ++ listingSuffix ∧
      (found = written ↔ d = [] ∨ (∀ c ∈ d, c = '/') ∨ ¬ ['/', '/'] <:+ d) := by
  intro written found
  have hname := isName_output isName_listingSuffix source
  have hwritten : written = join d (stem (baseName source) ++ listingSuffix) := rfl
  have hfound : found = join (trimSlashes d) (stem (baseName source) ++ listingSuffix) :=
    siblingListing_outputs source d
  rw [hwritten, hfound]
  refine ⟨?_, baseName_join d hname, ?_⟩
  · rw [directory_join _ hname, directory_join _ hname, baseName_join _ hname,
      baseName_join _ hname, trimSlashes_trimSlashes]
  · rw [join_eq _ hname, join_eq _ hname, List.append_cancel_right_eq,
      withSlash_trimSlashes_eq_iff]
    refine (or_iff_right_of_imp ?_).symm
    rintro rfl
    exact .inl (List.forall_mem_nil _)

end WordMachine.Path
