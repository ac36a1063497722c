import WordMachine.Files.Path

namespace WordMachine

inductive FileError where
  | notFound
  | permissionDenied
  | exists
  | notDirectory
  | isDirectory
  | noSpace
  | readOnly
  | nameTooLong
  | other (code : Nat) (text : String)
deriving DecidableEq

def FileError.code : FileError → Nat
  | notFound => 2
  | permissionDenied => 13
  | .exists => 17
  | notDirectory => 20
  | isDirectory => 21
  | noSpace => 28
  | readOnly => 30
  | nameTooLong => 36
  | other code _ => code

def FileError.message : FileError → String
  | notFound => "No such file or directory"
  | permissionDenied => "Permission denied"
  | .exists => "File exists"
  | notDirectory => "Not a directory"
  | isDirectory => "Is a directory"
  | noSpace => "No space left on device"
  | readOnly => "Read-only file system"
  | nameTooLong => "File name too long"
  | other _ text => text

/-- Why a path cannot be used: the system refuses it, or it holds a null character. -/
inductive PathFailure where
  | refused (error : FileError)
  | nullCharacter
deriving DecidableEq

/-- What the program asks of the system that its files are in. An operation that may change the
system gives what it leaves also when it fails, so it may fail with half of its work done. -/
class FileSystem (σ : Type) where
  readFile (s : σ) (path : Text) : Except PathFailure (List UInt8)
  hasEntry (s : σ) (path : Text) : Bool
  hasDirectory (s : σ) (path : Text) : Bool
  makeDirectory (s : σ) (path : Text) : σ × Except PathFailure Unit
  writeFile (s : σ) (path : Text) (bytes : List UInt8) : σ × Except PathFailure Unit
  removeFile (s : σ) (path : Text) : σ × Except PathFailure Unit

namespace FileSystem

variable {σ : Type} [FileSystem σ]

def ensureDirectory (s : σ) (path : Text) : σ × Except PathFailure Unit :=
  match makeDirectory s path with
  | (s, .error (.refused e)) =>
    -- Whatever the refusal is, the directory may be there.
    if hasDirectory s path then (s, .ok ()) else (s, .error (.refused e))
  | (s, made) => (s, made)

/-- Makes the directory of a path and those above it that are missing, at most `depth` of them. -/
def ensureDirectories (s : σ) : (depth : Nat) → Text → σ × Except PathFailure Unit
  | 0, _ => (s, .ok ())
  | depth + 1, path =>
    let (above, name) := Path.parent path
    let (s, made, isDot) :=
      if above ≠ [] ∧ name ≠ [] ∧ !hasEntry s above then
        let (s, made) := ensureDirectories s depth above
        (s, made, name = ['.'])
      else (s, .ok (), false)
    match made with
    | .error (.refused .exists) | .ok () =>
      if isDot then (s, .ok ()) else ensureDirectory s path
    | .error e => (s, .error e)

def makeDirectories (s : σ) (path : Text) : σ × Except PathFailure Unit :=
  ensureDirectories s (path.length + 1) path

end FileSystem
end WordMachine
