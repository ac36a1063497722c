import WordMachine.Proofs.Files.Paths
import WordMachine.Proofs.Results
import WordMachine.Text.Utf8.RoundTrip

namespace WordMachine.FileTree

variable {t t' : FileTree}

/-- The directories of one tree are those of another too, and so is the working directory. -/
structure KeepsDirectories (t t' : FileTree) : Prop where
  directory {l : Location} : t.get? l = some .directory → t'.get? l = some .directory
  workingDirectory : t'.workingDirectory = t.workingDirectory

theorem ne_nil_of_get? {l : Location} (h : t.get? l ≠ some .directory) : l ≠ [] := by
  rintro rfl
  exact h rfl

namespace KeepsDirectories

theorem trans {t'' : FileTree} (h : KeepsDirectories t t') (h' : KeepsDirectories t' t'') :
    KeepsDirectories t t'' where
  directory hl := h'.directory (h.directory hl)
  workingDirectory := h'.workingDirectory.trans h.workingDirectory

end KeepsDirectories

theorem keepsDirectories_insert {l : Location} (h : t.get? l ≠ some .directory) (e : Entry) :
    KeepsDirectories t (t.insert l e) where
  directory {k} hk := by
    rw [get?_insert t _ (ne_nil_of_get? h)]
    split
    · next hkl => exact absurd (hkl ▸ hk) h
    · exact hk
  workingDirectory := rfl

theorem follow_nil {l l' : Location} : t.follow l [] = .ok l' ↔ l = l' := by
  rw [follow, Except.ok.injEq]

theorem follow_cons {l l' : Location} {name : Text} {rest : List Text} (hrest : rest ≠ []) :
    t.follow l (name :: rest) = .ok l' ↔
      ∃ k, enter l name = .ok k ∧ t.get? k = some .directory ∧ t.follow k rest = .ok l' := by
  rw [follow, bind_eq_ok]
  · refine exists_congr fun k => and_congr_right fun _ => ?_
    split
    · next hk => simp [hk]
    · next hk => simp [hk]
    · next hk => simp [hk]
  · exact hrest

/-- Parts are followed up to the last one, and that is entered from a directory. -/
theorem follow_concat {l l' : Location} {names : List Text} {name : Text} :
    t.follow l (names ++ [name]) = .ok l' ↔
      ∃ k, t.follow l names = .ok k ∧ (names ≠ [] → t.get? k = some .directory) ∧
        enter k name = .ok l' := by
  induction names generalizing l with
  | nil => simp [follow]
  | cons first names ih =>
    rw [List.cons_append, follow_cons (by simp)]
    simp only [ih]
    by_cases hnames : names = []
    · subst hnames
      simp [follow]
    · simp only [follow_cons hnames, hnames, ne_eq, not_false_eq_true, true_implies, reduceCtorEq]
      constructor
      · rintro ⟨k, hfirst, hk, k', hrest, hk', henter⟩
        exact ⟨k', ⟨k, hfirst, hk, hrest⟩, hk', henter⟩
      · rintro ⟨k', ⟨k, hfirst, hk, hrest⟩, hk', henter⟩
        exact ⟨k, hfirst, hk, k', hrest, hk', henter⟩

theorem enter_eq_ok {l l' : Location} {name : Text} (hdot : name ≠ ['.']) (hdots : name ≠ ['.', '.'])
    (h : enter l name = .ok l') : l' = l ++ [name] := by
  rw [enter, if_neg hdot, if_neg hdots] at h
  split at h
  · cases h
  · exact (Except.ok.inj h).symm

theorem follow_of_keepsDirectories (h : KeepsDirectories t t') {l l' : Location}
    {names : List Text} (hf : t.follow l names = .ok l') : t'.follow l names = .ok l' := by
  induction names generalizing l with
  | nil => exact hf
  | cons name rest ih =>
    by_cases hrest : rest = []
    · subst hrest
      exact hf
    · -- Every part but the last leads through a directory, and that is still there.
      obtain ⟨k, henter, hk, hf⟩ := (follow_cons hrest).1 hf
      exact (follow_cons hrest).2 ⟨k, henter, h.directory hk, ih hf⟩

/-- A path leads to a location if it is neither empty nor too long, and its parts do. -/
theorem locate_eq_ok_iff {path : Text} {l : Location} :
    t.locate path = .ok l ↔ path ≠ [] ∧ Text.Utf8.size path ≤ maxPathSize ∧
      t.follow (if path.head? = some '/' then [] else t.workingDirectory) (Path.parts path) =
        .ok l := by
  unfold locate
  by_cases hne : path = []
  · simp [hne]
  · by_cases hsize : maxPathSize < Text.Utf8.size path
    · simp [hne, hsize, Nat.not_le.2 hsize]
    · simp only [if_neg hne, if_neg hsize]
      exact ⟨fun h => ⟨hne, Nat.le_of_not_lt hsize, h⟩, fun h => h.2.2⟩

theorem locate_of_keepsDirectories (h : KeepsDirectories t t') {path : Text} {l : Location}
    (hl : t.locate path = .ok l) : t'.locate path = .ok l := by
  obtain ⟨hne, hsize, hf⟩ := locate_eq_ok_iff.1 hl
  rw [locate_eq_ok_iff, h.workingDirectory]
  exact ⟨hne, hsize, follow_of_keepsDirectories h hf⟩

theorem locate_join_trimSlashes {d name : Text} {l : Location} (hname : Path.IsName name)
    (h : t.locate (Path.join d name) = .ok l) :
    t.locate (Path.join (Path.trimSlashes d) name) = .ok l := by
  obtain ⟨-, hsize, hf⟩ := locate_eq_ok_iff.1 h
  refine locate_eq_ok_iff.2 ⟨?_, ?_, ?_⟩
  · simp [Path.join_eq _ hname, hname.ne_nil]
  · obtain ⟨rest, hrest⟩ := Path.withSlash_trimSlashes_isPrefixOf d
    refine Nat.le_trans ?_ hsize
    simp only [Path.join_eq _ hname, ← hrest, Text.Utf8.size, Text.Utf8.encode,
      List.flatMap_append, List.length_append]
    omega
  · have hhead : (Path.join (Path.trimSlashes d) name).head? = some '/' ↔
        (Path.join d name).head? = some '/' := by
      rw [Path.head?_join _ hname, Path.head?_join _ hname, Path.head?_trimSlashes]
    rw [Path.parts_join _ hname, Path.parts_trimSlashes, ← Path.parts_join _ hname]
    simp only [hhead]
    exact hf

theorem getLast?_of_follow {l l' : Location} {names : List Text} {name : Text}
    (hname : Path.IsName name) (h : t.follow l (names ++ [name]) = .ok l') :
    l'.getLast? = some name := by
  obtain ⟨k, -, -, henter⟩ := follow_concat.1 h
  rw [enter_eq_ok hname.ne_dot hname.ne_dots henter, List.getLast?_concat]

theorem getLast?_of_locate_join {d name : Text} {l : Location} (hname : Path.IsName name)
    (h : t.locate (Path.join d name) = .ok l) : l.getLast? = some name := by
  have hf := (locate_eq_ok_iff.1 h).2.2
  rw [Path.parts_join _ hname] at hf
  exact getLast?_of_follow hname hf

/-- What a write that succeeds has found, and what it leaves. -/
theorem writeFile_eq_ok {path : Text} {bytes : List UInt8} (h : t.writeFile path bytes = .ok t') :
    '\x00' ∉ path ∧ ∃ l, t.locate path = .ok l ∧ t.get? l ≠ some .directory ∧
      t' = t.insert l (.file bytes) := by
  unfold writeFile checked at h
  split at h
  · cases h
  · next hnull =>
    refine ⟨hnull, ?_⟩
    cases hl : t.locate path with
    | error e => simp [hl, bind, Except.bind, Except.mapError] at h
    | ok l =>
      refine ⟨l, rfl, ?_⟩
      simp only [hl, bind, Except.bind] at h
      cases he : t.get? l with
      | none =>
        simp only [he] at h
        split at h
        · cases h
        · exact ⟨nofun, by cases h; rfl⟩
      | some entry =>
        cases entry with
        | directory => simp [he, Except.mapError] at h
        | file old =>
          simp only [he] at h
          split at h
          · cases h
          · exact ⟨nofun, by cases h; rfl⟩

theorem find_of_locate {path : Text} {l : Location} {bytes : List UInt8}
    (hl : t.locate path = .ok l) (hslash : path.getLast? ≠ some '/')
    (h : t.get? l = some (.file bytes)) : t.find path = .ok (.file bytes) := by
  simp [find, hl, h, bind, Except.bind, endsInSlash, hslash, pure, Except.pure]

theorem find_eq_file {path : Text} {bytes : List UInt8} (h : t.find path = .ok (.file bytes)) :
    path.getLast? ≠ some '/' ∧ ∃ l, t.locate path = .ok l ∧ t.get? l = some (.file bytes) := by
  obtain ⟨l, hl, h⟩ := bind_eq_ok.1 h
  split at h
  · cases h
  · next hget =>
    split at h
    · cases h
    · next hslash =>
      cases h
      exact ⟨by simpa [endsInSlash] using hslash, l, hl, hget⟩
  · cases h

theorem find_of_keepsDirectories (hkeep : KeepsDirectories t t') {path : Text} {bytes : List UInt8}
    (hfile : ∀ l, t.locate path = .ok l → t.get? l = some (.file bytes) →
      t'.get? l = some (.file bytes))
    (h : t.find path = .ok (.file bytes)) : t'.find path = .ok (.file bytes) := by
  obtain ⟨hslash, l, hl, hget⟩ := find_eq_file h
  exact find_of_locate (locate_of_keepsDirectories hkeep hl) hslash (hfile l hl hget)

theorem find_eq_directory_iff {path : Text} :
    t.find path = .ok .directory ↔ ∃ l, t.locate path = .ok l ∧ t.get? l = some .directory := by
  rw [find, bind_eq_ok]
  refine exists_congr fun l => and_congr_right fun _ => ?_
  split
  · next hget => simp [hget, pure, Except.pure]
  · next hget =>
    rw [hget]
    split
    · simp
    · simp [pure, Except.pure]
  · next hget => simp [hget]

theorem find_eq_error_of_locate {path : Text} {e : FileError} (h : t.locate path = .error e) :
    t.find path = .error e := by
  rw [find, h]
  rfl

theorem hasFile_iff {path : Text} (hnull : '\x00' ∉ path) :
    t.hasFile path = true ↔ ∃ bytes, t.find path = .ok (.file bytes) := by
  unfold hasFile checked
  rw [if_neg hnull]
  cases t.find path with
  | error e => simp [Except.mapError]
  | ok e => cases e <;> simp [Except.mapError]

theorem hasFile_of_find {path : Text} {bytes : List UInt8} (hnull : '\x00' ∉ path)
    (h : t.find path = .ok (.file bytes)) : t.hasFile path = true :=
  (hasFile_iff hnull).2 ⟨bytes, h⟩

theorem readFile_of_find {path : Text} {bytes : List UInt8} (hnull : '\x00' ∉ path)
    (h : t.find path = .ok (.file bytes)) : t.readFile path = .ok bytes := by
  simp [readFile, checked, hnull, h, bind, Except.bind, Except.mapError, pure, Except.pure]

theorem find_of_readFile {path : Text} {bytes : List UInt8} (h : t.readFile path = .ok bytes) :
    '\x00' ∉ path ∧ t.find path = .ok (.file bytes) := by
  unfold readFile checked at h
  split at h
  · cases h
  · next hnull =>
    obtain ⟨e, he, h⟩ := bind_eq_ok.1 (mapError_eq_ok.1 h)
    cases e with
    | file b =>
      cases h
      exact ⟨hnull, he⟩
    | directory => cases h

/-- Two files of different names that are written into one directory stand at two locations, and
nothing else has changed. -/
theorem get?_of_writes {t₀ t₁ t₂ : FileTree} {d first second : Text} {b₁ b₂ : List UInt8}
    (hfirst : Path.IsName first) (hsecond : Path.IsName second) (hne : first ≠ second)
    (h₁ : t₀.writeFile (Path.join d first) b₁ = .ok t₁)
    (h₂ : t₁.writeFile (Path.join d second) b₂ = .ok t₂) :
    KeepsDirectories t₀ t₂ ∧ ∃ l₁ l₂, l₁ ≠ l₂ ∧ t₂.locate (Path.join d first) = .ok l₁ ∧
      t₂.locate (Path.join d second) = .ok l₂ ∧
      ∀ l, t₂.get? l =
        if l = l₂ then some (.file b₂) else if l = l₁ then some (.file b₁) else t₀.get? l := by
  obtain ⟨-, l₁, hl₁, hnd₁, rfl⟩ := writeFile_eq_ok h₁
  obtain ⟨-, l₂, hl₂, hnd₂, rfl⟩ := writeFile_eq_ok h₂
  have hkeep₁ := keepsDirectories_insert hnd₁ (.file b₁)
  have hkeep₂ := keepsDirectories_insert hnd₂ (.file b₂)
  -- The names differ, so the second file does not replace the first.
  have hl : l₁ ≠ l₂ := by
    rintro rfl
    have hlast := (getLast?_of_locate_join hfirst hl₁).symm.trans
      (getLast?_of_locate_join hsecond hl₂)
    exact hne (Option.some.inj hlast)
  refine ⟨hkeep₁.trans hkeep₂, l₁, l₂, hl, locate_of_keepsDirectories (hkeep₁.trans hkeep₂) hl₁,
    locate_of_keepsDirectories hkeep₂ hl₂, fun l => ?_⟩
  rw [get?_insert _ _ (ne_nil_of_get? hnd₂), get?_insert _ _ (ne_nil_of_get? hnd₁)]

theorem find_join_of_writes {t₀ t₁ t₂ : FileTree} {d first second : Text} {b₁ b₂ : List UInt8}
    (hfirst : Path.IsName first) (hsecond : Path.IsName second) (hne : first ≠ second)
    (h₁ : t₀.writeFile (Path.join d first) b₁ = .ok t₁)
    (h₂ : t₁.writeFile (Path.join d second) b₂ = .ok t₂) :
    t₂.find (Path.join (Path.trimSlashes d) first) = .ok (.file b₁) ∧
      t₂.find (Path.join d second) = .ok (.file b₂) := by
  obtain ⟨-, l₁, l₂, hl, hl₁, hl₂, hget⟩ := get?_of_writes hfirst hsecond hne h₁ h₂
  constructor
  · apply find_of_locate (locate_join_trimSlashes hfirst hl₁) (Path.getLast?_join_ne _ hfirst)
    rw [hget, if_neg hl, if_pos rfl]
  · apply find_of_locate hl₂ (Path.getLast?_join_ne _ hsecond)
    rw [hget, if_pos rfl]

end WordMachine.FileTree
