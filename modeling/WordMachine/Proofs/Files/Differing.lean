import WordMachine.Files.Reading
import WordMachine.Proofs.Files.Directories

namespace WordMachine

namespace Path

theorem stem_isPrefixOf (name : Text) : stem name <+: name := by
  simp only [stem]
  split
  · exact List.prefix_rfl
  · exact (List.dropLast_prefix _).trans (List.rdropWhile_prefix (· != '.') name)

theorem dropLoadMark_isPrefixOf (name : Text) : dropLoadMark name <+: name := by
  simp only [dropLoadMark]
  split
  · exact List.take_prefix _ _
  · exact List.prefix_rfl

def siblingName (load : Text) : Text := dropLoadMark (stem (baseName load)) ++ listingSuffix

theorem isName_siblingName (load : Text) : IsName (siblingName load) := by
  refine isName_listingSuffix.append fun hslash => ?_
  exact slash_not_mem_stem (slash_not_mem_baseName load) ((dropLoadMark_isPrefixOf _).subset hslash)

/-- The listing never has the name of the load file, with a mark in that name and without. -/
theorem siblingName_ne (load : Text) : siblingName load ≠ baseName load := by
  unfold siblingName dropLoadMark
  simp only
  split
  · next hmark =>
    -- The stem would go on with a mark where the name goes on with the suffix.
    intro hname
    obtain ⟨s, hs⟩ := List.isSuffixOf_iff_suffix.1 hmark
    have hprefix := stem_isPrefixOf (baseName load)
    rw [← hs] at hname hprefix
    rw [List.length_append, Nat.add_sub_cancel, List.take_left] at hname
    rw [← hname, List.prefix_append_right_inj] at hprefix
    exact absurd hprefix (by decide)
  · exact stem_append_ne (by decide) (by decide)

theorem head?_directory (p : Text) : (directory p).head? = some '/' ↔ p.head? = some '/' := by
  have hdirectory : (directory p).head? = (Text.dropRightWhile (· != '/') p).head? :=
    head?_trimSlashes _
  rw [hdirectory]
  by_cases hhead : Text.dropRightWhile (· != '/') p = []
  · -- The path is a name then.
    have hp := dropRightWhile_append_baseName p
    rw [hhead, List.nil_append] at hp
    rw [hhead]
    refine iff_of_false nofun fun hslash => slash_not_mem_baseName p ?_
    rw [hp]
    exact List.mem_of_mem_head? hslash
  · exact Iff.of_eq (congrArg (· = _)
      (head?_of_isPrefixOf (List.rdropWhile_prefix (· != '/') p) hhead))

end Path

namespace FileTree

variable {t t' : FileTree}

/-- Two trees that differ at most in one file: in its bytes, or in whether it exists. -/
structure SameButFile (t t' : FileTree) (path : Text) : Prop where
  workingDirectory : t'.workingDirectory = t.workingDirectory
  entry (l : Location) : t'.get? l = t.get? l ∨
    t.locate path = .ok l ∧ t.get? l ≠ some .directory ∧ t'.get? l ≠ some .directory

namespace SameButFile

theorem get?_eq {path : Text} {l : Location} (h : SameButFile t t' path)
    (hl : t.locate path ≠ .ok l) : t'.get? l = t.get? l :=
  (h.entry l).resolve_right fun hfile => hl hfile.1

theorem keepsDirectories {path : Text} (h : SameButFile t t' path) : KeepsDirectories t t' where
  directory {l} hl := by
    rcases h.entry l with heq | ⟨-, hno, -⟩
    · rw [heq, hl]
    · exact absurd hl hno
  workingDirectory := h.workingDirectory

end SameButFile

theorem sameButFile_of_writeFile {path : Text} {bytes : List UInt8}
    (h : t.writeFile path bytes = .ok t') : SameButFile t t' path := by
  obtain ⟨-, l, hl, hno, rfl⟩ := writeFile_eq_ok h
  refine ⟨rfl, fun k => ?_⟩
  rw [get?_insert t _ (ne_nil_of_get? hno)]
  split
  · next hk => exact .inr ⟨hk ▸ hl, hk ▸ hno, nofun⟩
  · exact .inl rfl

/-- Parts that lead to a directory are followed to what is entered from there. -/
theorem follow_concat_of_follow {l k : Location} {names : List Text}
    (hf : t.follow l names = .ok k) (hk : names ≠ [] → t.get? k = some .directory) (name : Text) :
    t.follow l (names ++ [name]) = enter k name := by
  induction names generalizing l with
  | nil =>
    obtain rfl := follow_nil.1 hf
    rfl
  | cons first names ih =>
    -- The first part leads to a directory as well, or it is the only one.
    obtain ⟨k', hfirst, hk', hrest⟩ : ∃ k', enter l first = .ok k' ∧
        t.get? k' = some .directory ∧ t.follow k' names = .ok k := by
      by_cases hnames : names = []
      · subst hnames
        exact ⟨k, hf, hk (by simp), rfl⟩
      · exact (follow_cons hnames).1 hf
    rw [List.cons_append, follow]
    · simp only [hfirst, hk', bind, Except.bind]
      exact ih hrest fun _ => hk (by simp)
    · simp

/-- Where the directory of a path is, as it is cut out of the path. -/
structure DirectoryAt (t : FileTree) (path : Text) (k : Location) : Prop where
  follow : t.follow (t.start path) (Path.parts (Path.directory path)) = .ok k
  directory : Path.parts (Path.directory path) ≠ [] → t.get? k = some .directory

theorem DirectoryAt.of_keepsDirectories {path : Text} {k : Location} (hkeep : KeepsDirectories t t')
    (h : t.DirectoryAt path k) : t'.DirectoryAt path k where
  follow := by
    rw [start, hkeep.workingDirectory]
    exact follow_of_keepsDirectories hkeep h.follow
  directory hparts := hkeep.directory (h.directory hparts)

/-- A path leads to what its name is entered to from its directory, or to that directory if it ends
in a slash. -/
theorem DirectoryAt.locate {path : Text} {k : Location} (h : t.DirectoryAt path k) :
    t.locate path =
      if path = [] then .error .notFound
      else if maxPathSize < Text.Utf8.size path then .error .nameTooLong
      else if Path.baseName path = [] then .ok k
      else enter k (Path.baseName path) := by
  unfold FileTree.locate
  refine if_congr Iff.rfl rfl (if_congr Iff.rfl rfl ?_)
  change t.follow (t.start path) (Path.parts path) = _
  rw [← Path.parts_directory_append path]
  by_cases hname : Path.baseName path = []
  · rw [if_pos hname, hname]
    exact (congrArg _ (List.append_nil _)).trans h.follow
  · rw [if_neg hname, Path.parts_of_not_mem hname (Path.slash_not_mem_baseName path)]
    exact follow_concat_of_follow h.follow h.directory _

theorem directoryAt_of_locate_join {path name : Text} {l : Location} (hname : Path.IsName name)
    (h : t.locate (Path.join (Path.directory path) name) = .ok l) :
    ∃ k, t.DirectoryAt path k ∧ l = k ++ [name] := by
  obtain ⟨-, -, hf⟩ := locate_eq_ok_iff.1 h
  have hstart : (if (Path.join (Path.directory path) name).head? = some '/' then []
      else t.workingDirectory) = t.start path :=
    if_congr ((Path.head?_join _ hname).trans (Path.head?_directory path)) rfl rfl
  rw [hstart, Path.parts_join _ hname] at hf
  obtain ⟨k, hk, hdirectory, henter⟩ := follow_concat.1 hf
  exact ⟨k, ⟨hk, hdirectory⟩, enter_eq_ok hname.ne_dot hname.ne_dots henter⟩

theorem follow_congr (hget : ∀ l, t'.get? l = t.get? l) (l : Location) (names : List Text) :
    t'.follow l names = t.follow l names := by
  induction names generalizing l with
  | nil => rfl
  | cons name rest ih =>
    cases rest with
    | nil => rfl
    | cons name' rest =>
      rw [follow, follow]
      · simp only [hget, ih]
      · simp
      · simp

theorem find_congr (hworking : t'.workingDirectory = t.workingDirectory)
    (hget : ∀ l, t'.get? l = t.get? l) (path : Text) : t'.find path = t.find path := by
  simp only [find, locate, hworking, hget, follow_congr hget]

theorem ne_of_enter {k l : Location} {name other : Text} (hne : name ≠ other)
    (h : enter k other = .ok l) : l ≠ k ++ [name] := by
  have hlength (l : Location) (hl : l.length ≤ k.length) : l ≠ k ++ [name] := by
    rintro rfl
    rw [List.length_append, List.length_singleton] at hl
    omega
  unfold enter at h
  split at h
  · cases h
    exact hlength _ (Nat.le_refl _)
  · split at h
    · cases h
      exact hlength _ (by simp)
    · split at h
      · cases h
      · cases h
        simpa using Ne.symm hne

theorem DirectoryAt.ne_of_locate {path name : Text} {k l : Location} (h : t.DirectoryAt path k)
    (hne : name ≠ Path.baseName path) (hl : t.locate path = .ok l) : l ≠ k ++ [name] := by
  rw [h.locate] at hl
  split at hl
  · cases hl
  · split at hl
    · cases hl
    · split at hl
      · cases hl
        simp
      · exact ne_of_enter hne hl

/-- A file with another name in the directory of a path may differ: the path leads elsewhere. -/
theorem SameButFile.find_eq {path name : Text} (hname : Path.IsName name)
    (hne : name ≠ Path.baseName path)
    (h : SameButFile t t' (Path.join (Path.directory path) name)) :
    t'.find path = t.find path := by
  cases hl : t.locate (Path.join (Path.directory path) name) with
  | error e => exact find_congr h.workingDirectory (fun l => h.get?_eq (by simp [hl])) path
  | ok l =>
    -- The file stands in the directory `k`, and the path is followed from there.
    obtain ⟨k, hk, rfl⟩ := directoryAt_of_locate_join hname hl
    have hlocate : t'.locate path = t.locate path := by
      rw [hk.locate, (hk.of_keepsDirectories h.keepsDirectories).locate]
    cases hp : t.locate path with
    | error e =>
      rw [find_eq_error_of_locate hp, find_eq_error_of_locate (hlocate.trans hp)]
    | ok l' =>
      have hother : l' ≠ k ++ [name] := hk.ne_of_locate hne hp
      have hget : t'.get? l' = t.get? l' := h.get?_eq (by simpa [hl] using Ne.symm hother)
      rw [find, find, hlocate, hp]
      simp only [bind, Except.bind, hget]

/-- What stands in the listing beside a load file, or that there is none, does not matter when the
load file is read, also when that fails. -/
theorem SameButFile.ofFile_eq {path : Text} (h : SameButFile t t' (Path.siblingListing path)) :
    LoadImage.ofFile t' path = LoadImage.ofFile t path := by
  have hfind : t'.find path = t.find path :=
    h.find_eq (Path.isName_siblingName path) (Path.siblingName_ne path)
  have hfile : t'.readFile path = t.readFile path := by rw [readFile, readFile, hfind]
  simp only [LoadImage.ofFile, FileSystem.readText, readFile_eq, hfile]

end FileTree
end WordMachine
