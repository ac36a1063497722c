import WordMachine.Assembly.Emission
import WordMachine.LoadImage

namespace WordMachine

structure Assembly where
  lines : List PlacedLine
  symbols : SymbolTable
  listingRows : List ListingRow
  loadRows : List LoadRow

namespace Assembly

def ofText (text : Text) : Except Failure Assembly :=
  let layout := Layout.ofText text
  match layout.failure? with
  | some failure => .error failure
  | none =>
    let emission := Emission.ofLayout layout
    match emission.failure? with
    | some failure => .error failure
    | none => .ok ⟨emission.lines, layout.symbols, emission.listing, emission.load⟩

def listing (a : Assembly) : Text := listingText a.listingRows

def load (a : Assembly) : Text := loadText a.loadRows

end Assembly

def PlacedLine.record? (p : PlacedLine) : Option LoadRecord :=
  match p.place, p.word? with
  | .at address, some word => some ⟨address, word.toNat⟩
  | _, _ => none

/-- The address of a line that takes a word, unless it is data. -/
def PlacedLine.instructionAddress? (p : PlacedLine) : Option Nat :=
  match p.place, p.line.op? with
  | .at address, some op => if Emission.isData op then none else some address
  | _, _ => none

namespace Assembly

def records (a : Assembly) : LoadImage := a.lines.filterMap PlacedLine.record?

def firstAddress? (a : Assembly) : Option Int := LoadImage.firstAddress? a.records

/-- The address of the first instruction, or of the first word if all are data. -/
def startAddress? (a : Assembly) : Option Int :=
  match a.lines.findSome? PlacedLine.instructionAddress? with
  | some address => some address
  | none => a.firstAddress?

end Assembly
end WordMachine
