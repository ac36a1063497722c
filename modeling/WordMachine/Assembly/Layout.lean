import WordMachine.SourceLine
import WordMachine.SymbolTable
import WordMachine.Text.Lines

namespace WordMachine

/-- Where a line stands in memory. -/
inductive Place where
  /-- It takes no memory: it has no operation, or layout failed on it. -/
  | nowhere
  /-- It moves the location counter. -/
  | directive
  | at (address : Nat)
deriving DecidableEq

structure PlacedLine where
  line : SourceLine
  place : Place
  word? : Option Word

structure Layout where
  lines : List PlacedLine
  symbols : SymbolTable
  failure? : Option Failure

namespace Layout

structure Step where
  place : Place
  symbols : SymbolTable
  counter : Nat
  failure? : Option Failure

def isLoc (op : Text) : Bool := Text.upper op = "LOC".toList

def defineLabel (symbols : SymbolTable) (counter : Nat) (label? : Option Text) :
    Except Cause SymbolTable :=
  match label? with
  | none => .ok symbols
  | some label => symbols.define label counter

/-- The new location counter. Its label must be defined on this line or before. -/
def locTarget (symbols : SymbolTable) (number : Int) (operands : List Text) : Except Failure Nat :=
  match operands with
  | [token] => do
    let v ← symbols.resolve token (some number)
    if v < 0 then .error (.report (.negativeLoc v) (some number)) else .ok v.toNat
  | _ => .error (.report (.locOperands operands.length) (some number))

def placeOperation (symbols : SymbolTable) (counter : Nat) (number : Int) (op : Text)
    (operands : List Text) : Step :=
  if isLoc op then
    match locTarget symbols number operands with
    | .ok target => ⟨.directive, symbols, target, none⟩
    | .error failure => ⟨.directive, symbols, counter, some failure⟩
  else if memorySize ≤ counter then
    ⟨.nowhere, symbols, counter, some (.report (.beyondMemory counter) (some number))⟩
  else ⟨.at counter, symbols, counter + 1, none⟩

def step (symbols : SymbolTable) (counter : Nat) (number : Int) (line : SourceLine) : Step :=
  match line.op? with
  | none => ⟨.nowhere, symbols, counter, none⟩
  | some op =>
    match defineLabel symbols counter line.label? with
    | .error cause => ⟨.nowhere, symbols, counter, some (.report cause (some number))⟩
    | .ok symbols => placeOperation symbols counter number op line.operands

def ofLines (symbols : SymbolTable) (counter : Nat) (number : Int) : List Text → Layout
  | [] => ⟨[], symbols, none⟩
  | text :: rest =>
    let line := SourceLine.read text
    let s := step symbols counter number line
    match s.failure? with
    | some failure => ⟨[⟨line, s.place, none⟩], s.symbols, some failure⟩
    | none =>
      let layout := ofLines s.symbols s.counter (number + 1) rest
      { layout with lines := ⟨line, s.place, none⟩ :: layout.lines }

def ofText (text : Text) : Layout := ofLines .empty 0 1 (Text.lines text)

end Layout
end WordMachine
