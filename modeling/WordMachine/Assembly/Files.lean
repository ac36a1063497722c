import WordMachine.Assembly.Basic
import WordMachine.Files.Reading

namespace WordMachine

structure WrittenAssembly where
  assembly : Assembly
  listingPath : Text
  loadPath : Text

namespace FileSystem

variable {σ : Type} [FileSystem σ]

/-- Removes the files that are at the paths. The first removal that is refused ends this. -/
def discard (s : σ) : List Text → σ × Except Failure Unit
  | [] => (s, .ok ())
  | path :: rest =>
    if hasEntry s path then
      match removeFile s path with
      | (s, .ok ()) => discard s rest
      | (s, .error .nullCharacter) => (s, .error (.aborted .nullInPath))
      | (s, .error (.refused e)) => (s, .error (.aborted (.cannotRemove path e)))
    else discard s rest

/-- Writes texts to files; `opened` are the paths that have been opened before. When a file cannot
be written, whatever is at its path and at those is removed. -/
def writeTexts (s : σ) (opened : List Text) : List (Text × Text) → σ × Except Failure Unit
  | [] => (s, .ok ())
  | (path, text) :: rest =>
    match writeFile s path (Text.Utf8.encode text) with
    | (s, .ok ()) => writeTexts s (opened ++ [path]) rest
    | (s, .error .nullCharacter) => (s, .error (.aborted .nullInPath))
    | (s, .error (.refused e)) =>
      match discard s (opened ++ [path]) with
      | (s, .ok ()) => (s, .error (.ofCause (.cannotWrite path e)))
      | (s, .error failure) => (s, .error failure)

def writeInto (s : σ) (directory : Text) (texts : List (Text × Text)) : σ × Except Failure Unit :=
  match makeDirectories s directory with
  | (s, .ok ()) => writeTexts s [] texts
  | (s, .error (.refused e)) => (s, .error (.ofCause (.cannotWrite directory e)))
  | (s, .error .nullCharacter) => (s, .error (.aborted .nullInPath))

def assembleSource (s : σ) (source : Text) : Except Failure Assembly := do
  Assembly.ofText (← readText s source)

/-- Assembles a source file and writes its listing and its load text into a directory. -/
def assembleFile (s : σ) (source outDir : Text) : σ × Except Failure WrittenAssembly :=
  match assembleSource s source with
  | .error failure => (s, .error failure)
  | .ok assembly =>
    let (listingPath, loadPath) := Path.outputs source outDir
    match writeInto s outDir [(listingPath, assembly.listing), (loadPath, assembly.load)] with
    | (s, .ok ()) => (s, .ok ⟨assembly, listingPath, loadPath⟩)
    | (s, .error failure) => (s, .error failure)

end FileSystem

namespace FileTree

abbrev assembleSource (t : FileTree) (source : Text) : Except Failure Assembly :=
  FileSystem.assembleSource t source

abbrev assembleFile (t : FileTree) (source outDir : Text) :
    FileTree × Except Failure WrittenAssembly :=
  FileSystem.assembleFile t source outDir

end FileTree
end WordMachine
