import WordMachine.Abort

namespace WordMachine

abbrev Word := BitVec 16

abbrev Address := BitVec 12

/-- Only the first half of the addresses name a word of memory. -/
def memorySize : Nat := 2048

/-- The low bits of an integer, as a number. A negative integer is taken in two's complement. -/
def lowBits (bits : Nat) (v : Int) : Nat := (BitVec.ofInt bits v).toNat

/-- The low bits of an integer, to a width that need not be one of the machine's. -/
def truncate (width v : Int) : Except Abort Nat :=
  if width < 0 then .error .negativeWidth else .ok (lowBits width.toNat v)

namespace Numeral

def octalDigit (n : Nat) : Char := Char.ofNat (0x30 + n % 8)

def octalDigits : (width : Nat) → Nat → Text
  | 0, _ => []
  | width + 1, n => octalDigits width (n / 8) ++ [octalDigit n]

theorem isOctalDigit_octalDigit (n : Nat) : isOctalDigit (octalDigit n) = true := by
  have : ∀ k < 8, isOctalDigit (Char.ofNat (0x30 + k)) = true := by decide
  exact this _ (Nat.mod_lt _ (by decide))

theorem toNat_octalDigit (n : Nat) : (octalDigit n).toNat - 0x30 = n % 8 := by
  have : ∀ k < 8, (Char.ofNat (0x30 + k)).toNat - 0x30 = k := by decide
  exact this _ (Nat.mod_lt _ (by decide))

@[simp] theorem length_octalDigits (width n : Nat) : (octalDigits width n).length = width := by
  induction width generalizing n with
  | zero => rfl
  | succ width ih => simp [octalDigits, ih]

theorem all_isOctalDigit_octalDigits (width n : Nat) :
    (octalDigits width n).all isOctalDigit = true := by
  induction width generalizing n with
  | zero => rfl
  | succ width ih => simpa [octalDigits, isOctalDigit_octalDigit] using ih (n / 8)

theorem ofOctalDigits_concat (t : Text) (c : Char) :
    ofOctalDigits (t ++ [c]) = ofOctalDigits t * 8 + (c.toNat - 0x30) := by
  simp [ofOctalDigits, ofDigits]

theorem mod_pow_succ (width n : Nat) :
    n % Nat.pow 8 (width + 1) = n % 8 + 8 * (n / 8 % Nat.pow 8 width) := by
  have h : Nat.pow 8 (width + 1) = 8 * Nat.pow 8 width := Nat.mul_comm _ _
  rw [h, Nat.mod_mul]

/-- The digits are those of the number modulo the power of 8. -/
theorem ofOctalDigits_octalDigits (width n : Nat) :
    ofOctalDigits (octalDigits width n) = n % Nat.pow 8 width := by
  induction width generalizing n with
  | zero => simp [octalDigits, ofOctalDigits, ofDigits, Nat.mod_one]
  | succ width ih =>
    rw [octalDigits, ofOctalDigits_concat, ih, toNat_octalDigit, mod_pow_succ]
    omega

/-- The six-digit column of a number; a wider number keeps its low digits. -/
def octalColumn (n : Int) : Text := octalDigits 6 (n % 0o1000000).toNat

@[simp] theorem length_octalColumn (v : Int) : (octalColumn v).length = 6 := by
  simp [octalColumn]

theorem all_isOctalDigit_octalColumn (v : Int) : (octalColumn v).all isOctalDigit = true :=
  all_isOctalDigit_octalDigits 6 _

theorem ofOctalDigits_octalColumn (v : Int) :
    (ofOctalDigits (octalColumn v) : Int) = v % 0o1000000 := by
  have h : Nat.pow 8 6 = 262144 := by decide
  rw [octalColumn, ofOctalDigits_octalDigits, h]
  omega

end Numeral

def column (n : Nat) : String := String.ofList (Numeral.octalColumn n)

end WordMachine
