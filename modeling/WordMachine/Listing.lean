import WordMachine.Instruction.Basic
import WordMachine.Text.Lines
import WordMachine.Text.UpperCase

namespace WordMachine

inductive ListingRow where
  | columns (address word source : Text)
  | raw (text : Text)

def ListingRow.text : ListingRow → Text
  | columns address word source =>
    Text.padRight 6 address ++ [' ', ' '] ++ Text.padRight 6 word ++ [' ', ' '] ++ source
  | raw text => text

structure LoadRow where
  address : Text
  word : Text

def LoadRow.text (row : LoadRow) : Text := row.address ++ ' ' :: row.word

def listingText (rows : List ListingRow) : Text := Text.unlines (rows.map ListingRow.text)

def loadText (rows : List LoadRow) : Text := Text.unlines (rows.map LoadRow.text)

def operationWord? (source : Text) : Option Text :=
  match Text.words (Text.cut ';' source).1 with
  | [] => none
  | word :: rest => if word.getLast? = some ':' then rest.head? else some word

/-- The address in a listing line that shows an instruction: neither a `LOC` nor a data word. -/
def instructionAddress? (line : Text) : Option Nat :=
  let address := line.take 6
  if address.length = 6 ∧ address.all Numeral.isOctalDigit then
    match operationWord? (line.drop 16) with
    | some op =>
      if Text.upper op = "LOC".toList ∨ Text.upper op = "DATA".toList then none
      else some (Numeral.ofOctalDigits address)
    | none => none
  else none

def firstInstruction? (listing : Text) : Option Nat :=
  (Text.lines listing).findSome? instructionAddress?

end WordMachine
