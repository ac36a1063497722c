import WordMachine.Files.System
import WordMachine.Text.Utf8

namespace WordMachine

/-- The names on the way from the root to a file or directory. -/
abbrev Location := List Text

inductive Entry where
  | directory
  | file (bytes : List UInt8)
deriving DecidableEq

/-- The file system of one user, to whom everything is permitted, on a device that is never full.
It has no links. A path is refused for what it leads through and to, and for its length alone. -/
structure FileTree where
  /-- All files and directories but the root. -/
  entries : List (Location × Entry)
  workingDirectory : Location

namespace FileTree

def get? (t : FileTree) (l : Location) : Option Entry :=
  if l = [] then some .directory else t.entries.lookup l

def insert (t : FileTree) (l : Location) (e : Entry) : FileTree :=
  { t with entries := t.entries.filter (·.1 ≠ l) ++ [(l, e)] }

def erase (t : FileTree) (l : Location) : FileTree :=
  { t with entries := t.entries.filter (·.1 ≠ l) }

theorem lookup_filter_ne {α : Type} (entries : List (Location × α)) (l k : Location) :
    (entries.filter (·.1 ≠ l)).lookup k = if k = l then none else entries.lookup k := by
  induction entries with
  | nil => simp
  | cons e entries ih =>
    obtain ⟨m, a⟩ := e
    by_cases hm : m = l
    · subst hm
      by_cases hk : k = m
      · simpa [hk] using ih
      · have hb : (k == m) = false := by simpa using hk
        simpa [hk, List.lookup_cons, hb] using ih
    · by_cases hk : k = m
      · subst hk; simp [hm]
      · have hb : (k == m) = false := by simpa using hk
        simpa [hm, List.lookup_cons, hb] using ih

theorem get?_insert (t : FileTree) {l : Location} (e : Entry) (hl : l ≠ []) (k : Location) :
    (t.insert l e).get? k = if k = l then some e else t.get? k := by
  unfold get? insert
  by_cases hk : k = []
  · subst hk; simp [Ne.symm hl]
  · by_cases h : k = l
    · subst h
      have : (t.entries.filter (·.1 ≠ k)).lookup k = none := by
        rw [lookup_filter_ne, if_pos rfl]
      simp only [hk, if_false, List.lookup_append, this]
      simp
    · have hb : (k == l) = false := by simpa using h
      simp only [hk, if_false, List.lookup_append, lookup_filter_ne, h]
      simp [List.lookup_cons, hb]

theorem get?_erase (t : FileTree) {l : Location} (hl : l ≠ []) (k : Location) :
    (t.erase l).get? k = if k = l then none else t.get? k := by
  unfold get? erase
  by_cases hk : k = []
  · subst hk; simp [Ne.symm hl]
  · simp only [hk, if_false, lookup_filter_ne]

/-- The greatest size of a name, in bytes. -/
def maxNameSize : Nat := 255

def maxPathSize : Nat := 4095

def enter (l : Location) (name : Text) : Except FileError Location :=
  if name = ['.'] then .ok l
  else if name = ['.', '.'] then .ok l.dropLast
  else if maxNameSize < Text.Utf8.size name then .error .nameTooLong
  else .ok (l ++ [name])

def follow (t : FileTree) (l : Location) : List Text → Except FileError Location
  | [] => .ok l
  | [name] => enter l name
  | name :: rest => do
    let l ← enter l name
    match t.get? l with
    | some .directory => follow t l rest
    | some (.file _) => .error .notDirectory
    | none => .error .notFound

/-- Where a path leads. Its last part need not exist. -/
def locate (t : FileTree) (path : Text) : Except FileError Location :=
  if path = [] then .error .notFound
  else if maxPathSize < Text.Utf8.size path then .error .nameTooLong
  else
    follow t (if path.head? = some '/' then [] else t.workingDirectory)
      ((Text.splitOn '/' path).filter (!·.isEmpty))

/-- Whether a path can only mean a directory. -/
def endsInSlash (path : Text) : Bool := path.getLast? = some '/'

def find (t : FileTree) (path : Text) : Except FileError Entry := do
  match t.get? (← t.locate path) with
  | some .directory => return .directory
  | some (.file bytes) => if endsInSlash path then .error .notDirectory else return .file bytes
  | none => .error .notFound

/-- Fails on a path with a null character. -/
def checked {α : Type} (path : Text) (result : Except FileError α) : Except PathFailure α :=
  if '\x00' ∈ path then .error .nullCharacter else result.mapError .refused

def hasEntry (t : FileTree) (path : Text) : Bool := (checked path (t.find path)).isOk

def hasFile (t : FileTree) (path : Text) : Bool :=
  match checked path (t.find path) with
  | .ok (.file _) => true
  | _ => false

def hasDirectory (t : FileTree) (path : Text) : Bool :=
  match checked path (t.find path) with
  | .ok .directory => true
  | _ => false

def readFile (t : FileTree) (path : Text) : Except PathFailure (List UInt8) :=
  checked path do
    match ← t.find path with
    | .file bytes => return bytes
    | .directory => .error .isDirectory

def writeFile (t : FileTree) (path : Text) (bytes : List UInt8) : Except PathFailure FileTree :=
  checked path do
    let l ← t.locate path
    match t.get? l with
    | some .directory => .error .isDirectory
    | some (.file _) =>
      if endsInSlash path then .error .notDirectory else return t.insert l (.file bytes)
    | none => if endsInSlash path then .error .isDirectory else return t.insert l (.file bytes)

def removeFile (t : FileTree) (path : Text) : Except PathFailure FileTree :=
  checked path do
    match ← t.find path with
    | .file _ => return t.erase (← t.locate path)
    | .directory => .error .isDirectory

def makeDirectory (t : FileTree) (path : Text) : Except PathFailure FileTree :=
  checked path do
    let l ← t.locate path
    match t.get? l with
    | some _ => .error .exists
    | none => return t.insert l .directory

/-- What a change leaves: a tree in which it is refused stays as it is. -/
def changed (t : FileTree) : Except PathFailure FileTree → FileTree × Except PathFailure Unit
  | .ok t' => (t', .ok ())
  | .error e => (t, .error e)

instance : FileSystem FileTree where
  readFile := readFile
  hasEntry := hasEntry
  hasDirectory := hasDirectory
  makeDirectory t path := t.changed (t.makeDirectory path)
  writeFile t path bytes := t.changed (t.writeFile path bytes)
  removeFile t path := t.changed (t.removeFile path)

theorem readFile_eq (t : FileTree) (path : Text) : FileSystem.readFile t path = t.readFile path :=
  rfl

theorem makeDirectory_eq (t : FileTree) (path : Text) :
    FileSystem.makeDirectory t path = t.changed (t.makeDirectory path) :=
  rfl

theorem changed_eq_ok {t t' : FileTree} {r : Except PathFailure FileTree} :
    t.changed r = (t', .ok ()) ↔ r = .ok t' := by
  cases r <;> simp [changed]

theorem changed_eq_error {t t' : FileTree} {r : Except PathFailure FileTree} {e : PathFailure} :
    t.changed r = (t', .error e) ↔ t = t' ∧ r = .error e := by
  cases r <;> simp [changed]

abbrev makeDirectories (t : FileTree) (path : Text) : FileTree × Except PathFailure Unit :=
  FileSystem.makeDirectories t path

end FileTree
end WordMachine
