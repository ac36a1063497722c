import WordMachine.Numeral.Reading

namespace WordMachine.Text.Utf8

def encode (t : Text) : List UInt8 := t.flatMap String.utf8EncodeChar

inductive Defect where
  | invalidStart
  | invalidContinuation
  | unexpectedEnd
deriving DecidableEq

def Defect.message : Defect → String
  | invalidStart => "invalid start byte"
  | invalidContinuation => "invalid continuation byte"
  | unexpectedEnd => "unexpected end of data"

/-- The bytes from position `first` to `last` cannot be read; `lead` is the first of them. -/
structure DecodeError where
  first : Nat
  last : Nat
  lead : Nat
  defect : Defect
deriving DecidableEq

def DecodeError.message (e : DecodeError) : String :=
  if e.first = e.last then
    "'utf-8' codec can't decode byte 0x" ++ String.ofList (Numeral.hexDigits 2 e.lead) ++
      s!" in position {e.first}: " ++ e.defect.message
  else
    s!"'utf-8' codec can't decode bytes in position {e.first}-{e.last}: " ++ e.defect.message

/-- A character whose bytes have not all been read. -/
structure Pending where
  first : Nat
  lead : Nat
  missing : Nat
  low : Nat
  high : Nat
  bits : Nat

/-- What the first byte `b` of a character of several bytes promises. The range of the second byte
excludes overlong forms (after E0 and F0), surrogates (after ED) and too large code points (after
F4). -/
def Pending.start? (position b : Nat) : Option Pending :=
  if b < 0xC2 then none
  else if b < 0xE0 then some ⟨position, b, 1, 0x80, 0xBF, b % 0x20⟩
  else if b < 0xF0 then
    some ⟨position, b, 2, if b = 0xE0 then 0xA0 else 0x80, if b = 0xED then 0x9F else 0xBF, b % 0x10⟩
  else if b < 0xF5 then
    some ⟨position, b, 3, if b = 0xF0 then 0x90 else 0x80, if b = 0xF4 then 0x8F else 0xBF, b % 0x08⟩
  else none

def decodeFrom : (position : Nat) → (pending : Option Pending) → List UInt8 → Except DecodeError Text
  | _, none, [] => .ok []
  | position, some p, [] => .error ⟨p.first, position - 1, p.lead, .unexpectedEnd⟩
  | position, none, b :: rest =>
    if b.toNat < 0x80 then (Char.ofNat b.toNat :: ·) <$> decodeFrom (position + 1) none rest
    else match Pending.start? position b.toNat with
      | none => .error ⟨position, position, b.toNat, .invalidStart⟩
      | some p => decodeFrom (position + 1) (some p) rest
  | position, some p, b :: rest =>
    if p.low ≤ b.toNat ∧ b.toNat ≤ p.high then
      let bits := p.bits * 0x40 + b.toNat % 0x40
      if p.missing ≤ 1 then (Char.ofNat bits :: ·) <$> decodeFrom (position + 1) none rest
      else decodeFrom (position + 1)
        (some ⟨p.first, p.lead, p.missing - 1, 0x80, 0xBF, bits⟩) rest
    else .error ⟨p.first, position - 1, p.lead, .invalidContinuation⟩

def decode (bytes : List UInt8) : Except DecodeError Text := decodeFrom 0 none bytes

def size (t : Text) : Nat := (encode t).length

end WordMachine.Text.Utf8
