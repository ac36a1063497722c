import WordMachine.Text.Basic

namespace WordMachine.Numeral

/-- The zeros outside ASCII. -/
def digitZeros : List Nat := [
  0x660, 0x6F0, 0x7C0, 0x966, 0x9E6, 0xA66, 0xAE6, 0xB66, 0xBE6, 0xC66,
  0xCE6, 0xD66, 0xDE6, 0xE50, 0xED0, 0xF20, 0x1040, 0x1090, 0x17E0, 0x1810,
  0x1946, 0x19D0, 0x1A80, 0x1A90, 0x1B50, 0x1BB0, 0x1C40, 0x1C50, 0xA620, 0xA8D0,
  0xA900, 0xA9D0, 0xA9F0, 0xAA50, 0xABF0, 0xFF10, 0x104A0, 0x10D30, 0x11066, 0x110F0,
  0x11136, 0x111D0, 0x112F0, 0x11450, 0x114D0, 0x11650, 0x116C0, 0x11730, 0x118E0, 0x11950,
  0x11C50, 0x11D50, 0x11DA0, 0x16A60, 0x16AC0, 0x16B50, 0x1D7CE, 0x1D7D8, 0x1D7E2, 0x1D7EC,
  0x1D7F6, 0x1E140, 0x1E2F0, 0x1E950, 0x1FBF0]

def decimalDigit? (c : Char) : Option Nat :=
  if c.toNat < 0x80 then
    if '0' ≤ c ∧ c ≤ '9' then some (c.toNat - 0x30) else none
  else (digitZeros.find? fun z => z ≤ c.toNat && c.toNat < z + 10).map (c.toNat - ·)

def isDecimalDigit (c : Char) : Bool := (decimalDigit? c).isSome

/-- The most digits a decimal numeral may have, read or written. -/
def maxDigits : Nat := 4300

inductive Base where
  | decimal
  | hexadecimal
deriving DecidableEq

def Base.radix : Base → Nat
  | decimal => 10
  | hexadecimal => 16

inductive ReadError where
  | malformed (base : Base) (text : Text)
  | tooManyDigits (count : Nat)
deriving DecidableEq

def hexLetter? (c : Char) : Option Nat :=
  if 'a' ≤ c ∧ c ≤ 'f' then some (c.toNat - 0x57)
  else if 'A' ≤ c ∧ c ≤ 'F' then some (c.toNat - 0x37)
  else none

def Base.digit? (base : Base) (c : Char) : Option Nat :=
  match base with
  | decimal => decimalDigit? c
  | hexadecimal => decimalDigit? c <|> hexLetter? c

/-- The number with the given digits, the highest first. -/
def ofDigits (radix : Nat) (digits : List Nat) : Nat :=
  digits.foldl (fun n d => n * radix + d) 0

/-- Blanks that may surround a numeral: all but the information separators U+001C to U+001F. -/
def isEdgeBlank (c : Char) : Bool := Text.isBlank c && !(0x1C ≤ c.toNat && c.toNat ≤ 0x1F)

def splitSign : Text → Int × Text
  | '-' :: rest => (-1, rest)
  | '+' :: rest => (1, rest)
  | t => (1, t)

/-- Drops the mark `0x` of a hexadecimal numeral, and one underscore after it. -/
def dropHexMark : Text → Text
  | z :: x :: rest =>
    if decimalDigit? z = some 0 ∧ (x = 'x' ∨ x = 'X') then
      match rest with
      | '_' :: digits => digits
      | _ => rest
    else z :: x :: rest
  | t => t

/-- The digits of a run of digits and underscores, if each underscore stands between two digits. -/
def groupedDigits? (base : Base) (run : Text) : Option (List Nat) :=
  let groups := Text.splitOn '_' run
  if groups.any (·.isEmpty) then none else some (groups.flatten.filterMap base.digit?)

/-- Reads a whole text as one numeral. Only decimal numerals have a limit on their digits, and
it is checked before what follows the digits. -/
def readInteger (base : Base) (t : Text) : Except ReadError Int :=
  let (sign, body) := splitSign (t.dropWhile isEdgeBlank)
  let body := if base = .hexadecimal then dropHexMark body else body
  let inRun := fun c => c = '_' || (base.digit? c).isSome
  match groupedDigits? base (body.takeWhile inRun) with
  | none => .error (.malformed base t)
  | some digits =>
    if base = .decimal ∧ maxDigits < digits.length then .error (.tooManyDigits digits.length)
    else if (body.dropWhile inRun).all isEdgeBlank then .ok (sign * ofDigits base.radix digits)
    else .error (.malformed base t)

def isOctalDigit (c : Char) : Bool := '0' ≤ c && c ≤ '7'

def ofOctalDigits (t : Text) : Nat := ofDigits 8 (t.map fun c => c.toNat - 0x30)

/-- Reads a token of a load file or of the console: hexadecimal with the mark `0x`, octal if it has
only the digits 0 to 7, and decimal otherwise. -/
def readNumber (token : Text) : Except ReadError Int :=
  let t := Text.trim token
  match t with
  | '0' :: 'x' :: digits => readInteger .hexadecimal digits
  | '0' :: 'X' :: digits => readInteger .hexadecimal digits
  | _ =>
    if t ≠ [] ∧ t.all isOctalDigit then .ok (ofOctalDigits t) else readInteger .decimal t

/-- A decimal literal of the source language: an optional minus and digits, without underscores.
One line feed may follow. -/
def isDecimalLiteral (t : Text) : Bool :=
  let body := match t with
    | '-' :: rest => rest
    | _ => t
  let digits := if body.getLast? = some '\n' then body.dropLast else body
  digits ≠ [] && digits.all isDecimalDigit

def isWritable (n : Int) : Bool := n.natAbs < Nat.pow 10 maxDigits

def hexDigit (n : Nat) : Char := "0123456789abcdef".toList.getD n '0'

/-- The last `width` hexadecimal digits of a number. -/
def hexDigits : (width : Nat) → Nat → Text
  | 0, _ => []
  | width + 1, n => hexDigits width (n / 16) ++ [hexDigit (n % 16)]

end WordMachine.Numeral
