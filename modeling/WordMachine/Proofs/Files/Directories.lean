import WordMachine.Proofs.Files.System

namespace WordMachine.FileTree

variable {t t' : FileTree} {path : Text} {l : Location}

def start (t : FileTree) (path : Text) : Location :=
  if path.head? = some '/' then [] else t.workingDirectory

theorem size_le_of_isPrefixOf {p q : Text} (h : p <+: q) : Text.Utf8.size p ≤ Text.Utf8.size q := by
  obtain ⟨rest, rfl⟩ := h
  simp only [Text.Utf8.size, Text.Utf8.encode, List.flatMap_append, List.length_append]
  exact Nat.le_add_right _ _

theorem find_of_locate_join {d name : Text} (hname : Path.IsName name) (hne : d ≠ [])
    (hl : t.locate (Path.join d name) = .ok l) : t.find d = .ok .directory := by
  obtain ⟨-, hsize, hf⟩ := locate_eq_ok_iff.1 hl
  simp only [Path.head?_join d hname, Path.parts_join d hname] at hf
  obtain ⟨k, hk, hdirectory, -⟩ := follow_concat.1 hf
  have hlocate : t.locate d = .ok k :=
    locate_eq_ok_iff.2 ⟨hne, (size_le_of_isPrefixOf (Path.isPrefixOf_join d hname)).trans hsize, hk⟩
  have hget : t.get? k = some .directory := by
    by_cases hparts : Path.parts d = []
    · -- Such a path is made of slashes and leads to the root.
      rw [hparts, follow_nil, if_pos (Path.head?_of_parts_eq_nil hne hparts)] at hk
      exact hk ▸ rfl
    · exact hdirectory hparts
  exact find_eq_directory_iff.2 ⟨k, hlocate, hget⟩

/-- Every directory of the tree stands in a directory, and so does every file; the working
directory is one. -/
structure WellFormed (t : FileTree) : Prop where
  workingDirectory : t.get? t.workingDirectory = some .directory
  above {l : Location} {e : Entry} : t.get? l = some e → t.get? l.dropLast = some .directory

namespace WellFormed

theorem of_entries (hworking : t.get? t.workingDirectory = some .directory)
    (h : ∀ x ∈ t.entries, t.get? x.1.dropLast = some .directory) : t.WellFormed where
  workingDirectory := hworking
  above {l e} he := by
    unfold get? at he
    split at he
    · next hroot => exact hroot ▸ rfl
    · obtain ⟨before, after, hentries, -⟩ := List.lookup_eq_some_iff.1 he
      exact h (l, e) (by simp [hentries])

theorem start (h : t.WellFormed) (path : Text) : t.get? (t.start path) = some .directory := by
  unfold FileTree.start
  split
  · rfl
  · exact h.workingDirectory

/-- What a path leads to is a directory, or has the last name of the path and stands in a
directory. -/
theorem locate (h : t.WellFormed) (hl : t.locate path = .ok l)
    (hne : t.get? l ≠ some .directory) :
    ∃ k name, (Path.parts path).getLast? = some name ∧ t.get? k = some .directory ∧
      l = k ++ [name] := by
  have hf : t.follow (t.start path) (Path.parts path) = .ok l := (locate_eq_ok_iff.1 hl).2.2
  rcases List.eq_nil_or_concat (Path.parts path) with hnil | ⟨names, name, hparts⟩
  · rw [hnil, follow_nil] at hf
    exact absurd (hf ▸ h.start path) hne
  · rw [List.concat_eq_append] at hparts
    rw [hparts] at hf ⊢
    obtain ⟨k, hk, hdirectory, henter⟩ := follow_concat.1 hf
    have hk : t.get? k = some .directory := by
      by_cases hnames : names = []
      · rw [hnames, follow_nil] at hk
        exact hk ▸ h.start path
      · exact hdirectory hnames
    -- The two names that stand for directories lead to directories.
    have hdot : name ≠ ['.'] := by
      intro hdot
      rw [enter, if_pos hdot] at henter
      exact hne (Except.ok.inj henter ▸ hk)
    have hdots : name ≠ ['.', '.'] := by
      intro hdots
      rw [enter, if_neg hdot, if_pos hdots] at henter
      exact hne (Except.ok.inj henter ▸ h.above hk)
    exact ⟨k, name, List.getLast?_concat, hk, enter_eq_ok hdot hdots henter⟩

theorem insert (h : t.WellFormed) (hl : t.locate path = .ok l)
    (hne : t.get? l ≠ some .directory) (e : Entry) : (t.insert l e).WellFormed := by
  obtain ⟨k, name, -, hk, rfl⟩ := h.locate hl hne
  have hkeep := keepsDirectories_insert hne e
  refine ⟨hkeep.directory h.workingDirectory, ?_⟩
  intro l' e' he'
  rw [get?_insert _ _ (ne_nil_of_get? hne)] at he'
  split at he'
  · next heq =>
    rw [heq, List.dropLast_concat]
    exact hkeep.directory hk
  · exact hkeep.directory (h.above he')

end WellFormed

def LeadsThrough (t : FileTree) (path : Text) (l : Location) : Prop :=
  ∃ names, names <+: Path.parts path ∧ t.follow (t.start path) names = .ok l

namespace LeadsThrough

theorem of_locate (h : t.locate path = .ok l) : t.LeadsThrough path l :=
  ⟨_, List.prefix_rfl, (locate_eq_ok_iff.1 h).2.2⟩

theorem mono (hkeep : KeepsDirectories t t') (h : t.LeadsThrough path l) :
    t'.LeadsThrough path l := by
  obtain ⟨names, hnames, hf⟩ := h
  have hstart : t'.start path = t.start path := by rw [start, start, hkeep.workingDirectory]
  exact ⟨names, hnames, hstart ▸ follow_of_keepsDirectories hkeep hf⟩

theorem of_parent (hne : (Path.parent path).1 ≠ []) (h : t.LeadsThrough (Path.parent path).1 l) :
    t.LeadsThrough path l := by
  obtain ⟨names, hnames, hf⟩ := h
  rw [start, Path.head?_of_isPrefixOf (Path.parent_isPrefixOf path) hne] at hf
  exact ⟨names, hnames.trans (Path.parts_parent_isPrefixOf path), hf⟩

end LeadsThrough

structure DirectoriesMade (t t' : FileTree) (path : Text) : Prop where
  workingDirectory : t'.workingDirectory = t.workingDirectory
  entry (l : Location) : t'.get? l = t.get? l ∨
    t.get? l = none ∧ t'.get? l = some .directory ∧ t'.LeadsThrough path l
  wellFormed : t.WellFormed → t'.WellFormed

namespace DirectoriesMade

theorem refl (t : FileTree) (path : Text) : DirectoriesMade t t path :=
  ⟨rfl, fun _ => .inl rfl, id⟩

theorem get?_of_some (h : DirectoriesMade t t' path) {e : Entry} (he : t.get? l = some e) :
    t'.get? l = some e := by
  rcases h.entry l with hsame | ⟨hnone, -, -⟩
  · exact hsame.trans he
  · exact absurd (hnone.symm.trans he) (by simp)

theorem keepsDirectories (h : DirectoriesMade t t' path) : KeepsDirectories t t' :=
  ⟨h.get?_of_some, h.workingDirectory⟩

theorem trans {t'' : FileTree} (h : DirectoriesMade t t' path) (h' : DirectoriesMade t' t'' path) :
    DirectoriesMade t t'' path where
  workingDirectory := h'.workingDirectory.trans h.workingDirectory
  entry l := by
    rcases h'.entry l with hsame' | ⟨hnone', hnew', hleads'⟩
    · rcases h.entry l with hsame | ⟨hnone, hnew, hleads⟩
      · exact .inl (hsame'.trans hsame)
      · exact .inr ⟨hnone, hsame'.trans hnew, hleads.mono h'.keepsDirectories⟩
    · rcases h.entry l with hsame | ⟨-, hnew, -⟩
      · exact .inr ⟨hsame.symm.trans hnone', hnew', hleads'⟩
      · exact absurd (hnone'.symm.trans hnew) (by simp)
  wellFormed := h'.wellFormed ∘ h.wellFormed

theorem of_parent (hne : (Path.parent path).1 ≠ [])
    (h : DirectoriesMade t t' (Path.parent path).1) : DirectoriesMade t t' path where
  workingDirectory := h.workingDirectory
  entry l := (h.entry l).imp_right fun ⟨hnone, hnew, hleads⟩ => ⟨hnone, hnew, hleads.of_parent hne⟩
  wellFormed := h.wellFormed

end DirectoriesMade

theorem makeDirectory_eq_ok (h : t.makeDirectory path = .ok t') :
    ∃ l, t.locate path = .ok l ∧ t.get? l = none ∧ t' = t.insert l .directory := by
  unfold makeDirectory checked at h
  split at h
  · cases h
  · obtain ⟨l, hl, h⟩ := bind_eq_ok.1 (mapError_eq_ok.1 h)
    split at h
    · cases h
    · next hnone =>
      cases h
      exact ⟨l, hl, hnone, rfl⟩

theorem directoriesMade_of_makeDirectory (h : t.makeDirectory path = .ok t') :
    DirectoriesMade t t' path := by
  obtain ⟨l, hl, hnone, rfl⟩ := makeDirectory_eq_ok h
  have hne : t.get? l ≠ some .directory := by simp [hnone]
  have hkeep := keepsDirectories_insert hne .directory
  refine ⟨rfl, fun k => ?_, fun hwell => hwell.insert hl hne .directory⟩
  rw [get?_insert _ _ (ne_nil_of_get? hne)]
  split
  · next hk =>
    subst hk
    exact .inr ⟨hnone, rfl, (LeadsThrough.of_locate hl).mono hkeep⟩
  · exact .inl rfl

theorem directoriesMade_ensureDirectory (t : FileTree) (path : Text) :
    DirectoriesMade t (FileSystem.ensureDirectory t path).1 path := by
  have hmade : DirectoriesMade t (FileSystem.makeDirectory t path).1 path := by
    rw [makeDirectory_eq]
    cases h : t.makeDirectory path with
    | error e => exact .refl t path
    | ok t' => exact directoriesMade_of_makeDirectory h
  unfold FileSystem.ensureDirectory
  split
  · next h =>
    rw [h] at hmade
    split
    · exact hmade
    · exact hmade
  · next h => rwa [h] at hmade

/-- Making directories with those above them, to any depth, and also when it fails. -/
theorem directoriesMade_ensureDirectories (t : FileTree) (depth : Nat) (path : Text) :
    DirectoriesMade t (FileSystem.ensureDirectories t depth path).1 path := by
  induction depth generalizing path with
  | zero => exact .refl t path
  | succ depth ih =>
    obtain ⟨t₁, made, habove, hlevel⟩ := FileSystem.ensureDirectories_succ t depth path
    have h₁ : DirectoriesMade t t₁ path := by
      rcases habove with heq | ⟨hne, heq⟩
      · obtain ⟨rfl, -⟩ := Prod.mk.inj heq
        exact .refl t₁ path
      · have hmade := ih (Path.parent path).1
        rw [heq] at hmade
        exact hmade.of_parent hne
    rcases hlevel with h | h | h
    · rw [h]
      exact h₁
    · rw [h]
      exact h₁
    · rw [h]
      exact h₁.trans (directoriesMade_ensureDirectory t₁ path)

theorem directoriesMade_makeDirectories (t : FileTree) (path : Text) :
    DirectoriesMade t (t.makeDirectories path).1 path :=
  directoriesMade_ensureDirectories t _ path

theorem makeDirectories_nil_ne_ok (t : FileTree) : (t.makeDirectories []).2 ≠ .ok () := by
  nofun

end WordMachine.FileTree
