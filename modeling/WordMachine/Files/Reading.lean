import WordMachine.Failure
import WordMachine.Files.Tree
import WordMachine.Listing
import WordMachine.LoadImage

namespace WordMachine

/-- The text of a file that holds UTF-8, with line feeds for every kind of line break. -/
def FileSystem.readText {σ : Type} [FileSystem σ] (s : σ) (path : Text) : Except Failure Text :=
  match readFile s path with
  | .error (.refused e) => .error (.ofCause (.cannotRead path e))
  | .error .nullCharacter => .error (.aborted .nullInPath)
  | .ok bytes =>
    match Text.Utf8.decode bytes with
    | .ok text => .ok (Text.unifyLineBreaks text)
    | .error e => .error (.ofCause (.cannotDecode path e))

abbrev FileTree.readText (t : FileTree) (path : Text) : Except Failure Text :=
  FileSystem.readText t path

namespace LoadImage

def ofFile (t : FileTree) (path : Text) : Except Failure LoadImage := do
  read (← t.readText path)

/-- Where a loaded program starts: at the first instruction of the listing beside the load file, or
at the first record if no such listing can be read. -/
def startHint? (t : FileTree) (path : Text) (records : LoadImage) : Option Int :=
  let listing := Path.siblingListing path
  let shown? :=
    if t.hasFile listing then
      match t.readText listing with
      | .ok text => firstInstruction? text
      | .error _ => none
    else none
  match shown? with
  | some address => some address
  | none => firstAddress? records

end LoadImage
end WordMachine
