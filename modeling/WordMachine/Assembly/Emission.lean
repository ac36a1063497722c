import WordMachine.Assembly.Layout
import WordMachine.Instruction.Encode
import WordMachine.Listing

namespace WordMachine

structure Emission where
  lines : List PlacedLine
  listing : List ListingRow
  load : List LoadRow
  failure? : Option Failure

namespace Emission

def isData (op : Text) : Bool := Text.upper op = "DATA".toList

/-- The operands of an instruction as numbers. The index operations have no general register, so
a zero stands for it. -/
def operandValues (symbols : SymbolTable) (number : Int) (op : Text) (operands : List Text) :
    Except Failure (List Int) := do
  let values ← operands.mapM (symbols.resolve · (some number))
  match Mnemonic.read? op with
  | some m =>
    if m.targetsIndex then
      if values.length = 2 ∨ values.length = 3 then return 0 :: values
      else .error (.report (.indexOperands m) (some number))
    else return values
  | none => return values

def value (symbols : SymbolTable) (number : Int) (op : Text) (operands : List Text) :
    Except Failure Int :=
  if isData op then
    match operands with
    | [token] => symbols.resolve token (some number)
    | _ => .error (.report (.dataOperands operands.length) (some number))
  else if Mnemonic.read? op = some .hlt then .ok 0
  else do
    let values ← operandValues symbols number op operands
    let word ← (encodeValues op values).mapError .ofCause
    return (word.toNat : Int)

def lineValue? (symbols : SymbolTable) (number : Int) (line : SourceLine) :
    Option (Except Failure Int) :=
  line.op?.map fun op => value symbols number op line.operands

def consRow (line : PlacedLine) (row : ListingRow) (rest : Emission) : Emission :=
  { rest with lines := line :: rest.lines, listing := row :: rest.listing }

def consWord (line : PlacedLine) (address : Nat) (word : Word) (source : Text) (rest : Emission) :
    Emission where
  lines := { line with word? := some word } :: rest.lines
  listing :=
    .columns (Numeral.octalColumn address) (Numeral.octalColumn word.toNat) source :: rest.listing
  load := ⟨Numeral.octalColumn address, Numeral.octalColumn word.toNat⟩ :: rest.load
  failure? := rest.failure?

def ofLines (symbols : SymbolTable) (number : Int) : List PlacedLine → Emission
  | [] => ⟨[], [], [], none⟩
  | placed :: rest =>
    match placed.line.op? with
    | none => consRow placed (.raw placed.line.text) (ofLines symbols (number + 1) rest)
    | some op =>
      let source := placed.line.write op
      match placed.place with
      | .at address =>
        match value symbols number op placed.line.operands with
        | .ok v =>
          consWord placed address (BitVec.ofInt 16 v) source (ofLines symbols (number + 1) rest)
        | .error failure => ⟨placed :: rest, [], [], some (failure.atLine number)⟩
      | _ => consRow placed (.columns [] [] source) (ofLines symbols (number + 1) rest)

def ofLayout (layout : Layout) : Emission := ofLines layout.symbols 1 layout.lines

end Emission
end WordMachine
