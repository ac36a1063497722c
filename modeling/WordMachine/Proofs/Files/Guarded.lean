import WordMachine.Proofs.Files.System

namespace WordMachine

/-- What a file system does at a location. A file is opened, which makes or empties it, before bytes
are put into it. -/
inductive Access where
  | read
  | make
  | openFile
  | fill
  | remove

/-- A tree with a guard, which refuses what the tree would allow: for want of permission, because
the device is read-only, or because it is full. The guard decides first. -/
structure GuardedTree where
  tree : FileTree
  refusal? : Access → Location → Option FileError

namespace GuardedTree

def permit (g : GuardedTree) (access : Access) (path : Text) : Except PathFailure Unit :=
  match g.tree.locate path with
  | .error _ => .ok ()
  | .ok l =>
    match g.refusal? access l with
    | none => .ok ()
    | some e => .error (.refused e)

def change (g : GuardedTree) (access : Access) (path : Text) (r : Except PathFailure FileTree) :
    GuardedTree × Except PathFailure Unit :=
  match g.permit access path, r with
  | .ok (), .ok tree => ({ g with tree }, .ok ())
  | .ok (), .error e => (g, .error e)
  | .error e, _ => (g, .error e)

/-- A file that may be opened and not filled is left empty. -/
def writeFile (g : GuardedTree) (path : Text) (bytes : List UInt8) :
    GuardedTree × Except PathFailure Unit :=
  match g.change .openFile path (g.tree.writeFile path []) with
  | (g, .ok ()) => g.change .fill path (g.tree.writeFile path bytes)
  | (g, .error e) => (g, .error e)

instance : FileSystem GuardedTree where
  readFile g path := do
    g.permit .read path
    g.tree.readFile path
  hasEntry g path := g.tree.hasEntry path
  hasDirectory g path := g.tree.hasDirectory path
  makeDirectory g path := g.change .make path (g.tree.makeDirectory path)
  writeFile := writeFile
  removeFile g path := g.change .remove path (g.tree.removeFile path)

variable {g g' : GuardedTree} {access : Access} {path : Text} {r : Except PathFailure FileTree}

theorem permit_ne_nullCharacter : g.permit access path ≠ .error .nullCharacter := by
  unfold permit
  split
  · nofun
  · split
    · nofun
    · nofun

theorem change_ne_nullCharacter (h : r ≠ .error .nullCharacter) :
    (g.change access path r).2 ≠ .error .nullCharacter := by
  unfold change
  split
  · nofun
  · exact fun hnull => h (congrArg _ (Except.error.inj hnull))
  · next hpermit =>
    exact fun hnull => permit_ne_nullCharacter (hpermit.trans (congrArg _ (Except.error.inj hnull)))

theorem change_eq_ok (h : g.change access path r = (g', .ok ())) : r = .ok g'.tree := by
  unfold change at h
  split at h
  · cases h
    rfl
  · cases h
  · cases h

theorem writeFile_ne_nullCharacter (hnull : '\x00' ∉ path) (bytes : List UInt8) :
    (g.writeFile path bytes).2 ≠ .error .nullCharacter := by
  have hwrite (bytes : List UInt8) : g.tree.writeFile path bytes ≠ .error .nullCharacter :=
    FileTree.checked_ne_nullCharacter hnull _
  have hopen : (g.change .openFile path (g.tree.writeFile path [])).2 ≠ .error .nullCharacter :=
    change_ne_nullCharacter (hwrite [])
  unfold writeFile
  split
  · exact change_ne_nullCharacter (FileTree.checked_ne_nullCharacter hnull _)
  · next h => rwa [h] at hopen

theorem removeFile_tree (h : FileSystem.removeFile g path = (g', .ok ())) :
    FileSystem.removeFile g.tree path = (g'.tree, .ok ()) :=
  FileTree.changed_eq_ok.2 (change_eq_ok h)

instance : FileSystem.Lawful GuardedTree where
  makeDirectory_ne_nullCharacter _ _ h :=
    change_ne_nullCharacter (FileTree.checked_ne_nullCharacter h _)
  writeFile_ne_nullCharacter _ _ h bytes := writeFile_ne_nullCharacter h bytes
  removeFile_ne_nullCharacter _ _ h :=
    change_ne_nullCharacter (FileTree.checked_ne_nullCharacter h _)
  hasEntry_removed h := FileTree.instLawful.hasEntry_removed (removeFile_tree h)
  hasEntry_of_removed h hother :=
    FileTree.instLawful.hasEntry_of_removed (removeFile_tree h) hother

end GuardedTree
end WordMachine
