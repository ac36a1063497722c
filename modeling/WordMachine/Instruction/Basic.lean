import WordMachine.Text.UpperCase
import WordMachine.Word.Truncation

namespace WordMachine

inductive Mnemonic where
  | hlt | ldr | str | lda | ldx | stx
  | jz | jne | jcc | jsr | rfs | sob | jge
  | amr | smr | air | sir | mlt | dvd | trr | and | orr | not
  | src | rrc
  | input | output | chk
deriving DecidableEq

namespace Mnemonic

def all : List Mnemonic := [
  hlt, ldr, str, lda, ldx, stx, jz, jne, jcc, jsr, rfs, sob, jge,
  amr, smr, air, sir, mlt, dvd, trr, and, orr, not, src, rrc, input, output, chk]

def name : Mnemonic → String
  | hlt => "HLT" | ldr => "LDR" | str => "STR" | lda => "LDA" | ldx => "LDX" | stx => "STX"
  | jz => "JZ" | jne => "JNE" | jcc => "JCC" | jsr => "JSR" | rfs => "RFS" | sob => "SOB"
  | jge => "JGE" | amr => "AMR" | smr => "SMR" | air => "AIR" | sir => "SIR" | mlt => "MLT"
  | dvd => "DVD" | trr => "TRR" | and => "AND" | orr => "ORR" | not => "NOT" | src => "SRC"
  | rrc => "RRC" | input => "IN" | output => "OUT" | chk => "CHK"

def code : Mnemonic → Nat
  | hlt => 0o00 | ldr => 0o01 | str => 0o02 | lda => 0o03 | ldx => 0o41 | stx => 0o42
  | jz => 0o10 | jne => 0o11 | jcc => 0o12 | jsr => 0o14 | rfs => 0o15 | sob => 0o16
  | jge => 0o17 | amr => 0o04 | smr => 0o05 | air => 0o06 | sir => 0o07 | mlt => 0o70
  | dvd => 0o71 | trr => 0o72 | and => 0o73 | orr => 0o74 | not => 0o75 | src => 0o31
  | rrc => 0o32 | input => 0o61 | output => 0o62 | chk => 0o63

def ofCode? (n : Nat) : Option Mnemonic := all.find? (·.code = n)

def ofInt? (n : Int) : Option Mnemonic := if 0 ≤ n then ofCode? n.toNat else none

def sorted : List Mnemonic := all.mergeSort fun a b => decide (a.name ≤ b.name)

def read? (t : Text) : Option Mnemonic := all.find? (·.name.toList = Text.upper t)

/-- The operations that name an index register where the others name the one they index with. -/
def targetsIndex (m : Mnemonic) : Bool := m = ldx || m = stx

end Mnemonic

/-- The fields of an instruction word, from the high bits down: the code of the operation in six
bits, `r` and `ix` in two each, `i` in one, and the address in five. -/
structure Fields where
  opcode : Fin 64
  r : Fin 4
  /-- The index register; 0 means none. -/
  ix : Fin 4
  indirect : Bool
  address : Fin 32
deriving DecidableEq

namespace Fields

/-- Keeps the low bits of each number. -/
def ofInts (opcode r ix i address : Int) : Fields where
  opcode := Fin.ofNat 64 (lowBits 6 opcode)
  r := Fin.ofNat 4 (lowBits 2 r)
  ix := Fin.ofNat 4 (lowBits 2 ix)
  indirect := lowBits 1 i = 1
  address := Fin.ofNat 32 (lowBits 5 address)

def word (f : Fields) : Word :=
  BitVec.ofNat 16 (f.opcode.val * 1024 + f.r.val * 256 + f.ix.val * 64 +
    f.indirect.toNat * 32 + f.address.val)

def ofWord (w : Word) : Fields where
  opcode := Fin.ofNat 64 (w.toNat / 1024)
  r := Fin.ofNat 4 (w.toNat / 256)
  ix := Fin.ofNat 4 (w.toNat / 64)
  indirect := w.toNat / 32 % 2 = 1
  address := Fin.ofNat 32 w.toNat

theorem ofWord_word (f : Fields) : Fields.ofWord f.word = f := by
  obtain ⟨⟨o, ho⟩, ⟨r, hr⟩, ⟨x, hx⟩, i, ⟨a, ha⟩⟩ := f
  cases i <;> simp [word, ofWord, Fin.ofNat] <;> omega

theorem word_ofWord (w : Word) : (Fields.ofWord w).word = w := by
  apply BitVec.eq_of_toNat_eq
  have hw := w.isLt
  by_cases h : w.toNat / 32 % 2 = 1
  · simp [word, ofWord, Fin.ofNat, h]; omega
  · simp [word, ofWord, Fin.ofNat, h]; omega

def mnemonic? (f : Fields) : Option Mnemonic := Mnemonic.ofCode? f.opcode.val

end Fields

def decode (v : Int) : Fields := Fields.ofWord (BitVec.ofInt 16 v)

def pack (opcode r ix i address : Int) : Word := (Fields.ofInts opcode r ix i address).word

inductive Operand where
  | r | ix | address | indirect
deriving DecidableEq

def Operand.name : Operand → String
  | r => "r" | ix => "ix" | address => "address" | indirect => "I"

/-- The greatest value of an operand; the least is 0. -/
def Operand.limit : Operand → Nat
  | r => 3 | ix => 3 | address => 31 | indirect => 1

/-- The operands that a disassembled instruction shows: the index operations have no general
register, and direct addressing is not marked. -/
def Fields.shown (m : Mnemonic) (f : Fields) : List Nat :=
  (if m.targetsIndex then [f.ix.val, f.address.val] else [f.r.val, f.ix.val, f.address.val]) ++
    if f.indirect then [1] else []

/-- The source text of a word. A word without an operation is shown as data, in octal, and a halt
that has other bits set shows them all in a comment. -/
def disassemble (v : Int) : Text :=
  match (decode v).mnemonic? with
  | none => "DATA ".toList ++ Numeral.octalColumn v
  | some .hlt => if v = 0 then "HLT".toList else "HLT ; ".toList ++ Numeral.octalColumn v
  | some m =>
    m.name.toList ++ ' ' ::
      Text.join [','] (((decode v).shown m).map fun n => (toString n).toList)

end WordMachine
