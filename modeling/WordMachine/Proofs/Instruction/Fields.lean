import Mathlib.Algebra.Group.Nat.Defs
import Mathlib.Algebra.Ring.Int.Defs
import WordMachine.Instruction.Basic

namespace WordMachine

theorem lowBits_lt (bits : Nat) (v : Int) : lowBits bits v < 2 ^ bits := BitVec.isLt _

/-- The low bits are a remainder, also those of a negative number. -/
theorem lowBits_eq_emod (bits : Nat) (v : Int) : (lowBits bits v : Int) = v % 2 ^ bits := by
  have hpos : (0 : Int) < 2 ^ bits := Int.pow_pos (by decide)
  rw [lowBits, BitVec.toNat_ofInt, Int.natCast_pow]
  exact Int.toNat_of_nonneg (Int.emod_nonneg v (Int.ne_of_gt hpos))

namespace Mnemonic

theorem mem_all (m : Mnemonic) : m ∈ all := by cases m <;> decide

theorem code_lt (m : Mnemonic) : m.code < 64 := by cases m <;> decide

theorem code_injective {m n : Mnemonic} (h : m.code = n.code) : m = n := by
  have hall : ∀ a ∈ all, ∀ b ∈ all, a.code = b.code → a = b := by decide
  exact hall m (mem_all m) n (mem_all n) h

theorem ofCode?_eq_some_iff {n : Nat} {m : Mnemonic} : ofCode? n = some m ↔ m.code = n := by
  constructor
  · intro h
    have hcode := List.find?_some h
    simpa using hcode
  · intro h
    obtain ⟨m', hm'⟩ : ∃ m', ofCode? n = some m' := by
      rw [← Option.isSome_iff_exists, ofCode?, List.find?_isSome]
      exact ⟨m, mem_all m, by simpa using h⟩
    have hcode : m'.code = n := by simpa using List.find?_some hm'
    rw [hm', code_injective (hcode.trans h.symm)]

end Mnemonic

namespace Fields

theorem mnemonic?_eq_some_iff {f : Fields} {m : Mnemonic} :
    f.mnemonic? = some m ↔ f.opcode.val = m.code := by
  rw [mnemonic?, Mnemonic.ofCode?_eq_some_iff]
  exact eq_comm

/-- The machine refuses an instruction whose operation it lacks, and an `LDX` without an index
register. -/
def Refused (f : Fields) : Prop :=
  (∀ m ∈ [Mnemonic.hlt, .ldr, .lda, .jz, .ldx], f.opcode.val ≠ m.code) ∨
    f.opcode.val = Mnemonic.ldx.code ∧ f.ix.val = 0

theorem decode_toNat_word (f : Fields) : decode f.word.toNat = f := by
  rw [decode, BitVec.ofInt_natCast, BitVec.ofNat_toNat, BitVec.setWidth_eq, ofWord_word]

section OfInts

variable (opcode r ix i address : Int)

theorem toNat_indirect_ofInts :
    (ofInts opcode r ix i address).indirect.toNat = lowBits 1 i := by
  change (decide (lowBits 1 i = 1)).toNat = lowBits 1 i
  obtain h | h := Nat.le_one_iff_eq_zero_or_eq_one.1 (Nat.le_of_lt_succ (lowBits_lt 1 i))
  · rw [h]
    rfl
  · rw [h]
    rfl

theorem val_ofInts :
    (ofInts opcode r ix i address).opcode.val = lowBits 6 opcode ∧
      (ofInts opcode r ix i address).r.val = lowBits 2 r ∧
      (ofInts opcode r ix i address).ix.val = lowBits 2 ix ∧
      (ofInts opcode r ix i address).indirect.toNat = lowBits 1 i ∧
      (ofInts opcode r ix i address).address.val = lowBits 5 address :=
  ⟨Nat.mod_eq_of_lt (lowBits_lt 6 opcode), Nat.mod_eq_of_lt (lowBits_lt 2 r),
    Nat.mod_eq_of_lt (lowBits_lt 2 ix), toNat_indirect_ofInts opcode r ix i address,
    Nat.mod_eq_of_lt (lowBits_lt 5 address)⟩

theorem ofInts_eq_emod :
    ((ofInts opcode r ix i address).opcode.val : Int) = opcode % 64 ∧
      ((ofInts opcode r ix i address).r.val : Int) = r % 4 ∧
      ((ofInts opcode r ix i address).ix.val : Int) = ix % 4 ∧
      ((ofInts opcode r ix i address).indirect.toNat : Int) = i % 2 ∧
      ((ofInts opcode r ix i address).address.val : Int) = address % 32 := by
  obtain ⟨hopcode, hr, hix, hi, haddress⟩ := val_ofInts opcode r ix i address
  rw [hopcode, hr, hix, hi, haddress]
  exact ⟨lowBits_eq_emod 6 opcode, lowBits_eq_emod 2 r, lowBits_eq_emod 2 ix,
    lowBits_eq_emod 1 i, lowBits_eq_emod 5 address⟩

end OfInts

theorem ofInts_val (f : Fields) :
    ofInts f.opcode.val f.r.val f.ix.val f.indirect.toNat f.address.val = f := by
  have hmade := ofInts_eq_emod f.opcode.val f.r.val f.ix.val f.indirect.toNat f.address.val
  generalize ofInts f.opcode.val f.r.val f.ix.val f.indirect.toNat f.address.val = g at hmade ⊢
  obtain ⟨opcode, r, ix, indirect, address⟩ := f
  obtain ⟨opcode', r', ix', indirect', address'⟩ := g
  obtain ⟨hopcode, hr, hix, hi, haddress⟩ := hmade
  simp only at hopcode hr hix hi haddress
  have hbit : indirect.toNat ≤ 1 := Bool.toNat_le indirect
  have htoNat : ∀ b c : Bool, b.toNat = c.toNat → b = c := by decide
  rw [mk.injEq]
  exact ⟨Fin.ext (by omega), Fin.ext (by omega), Fin.ext (by omega), htoNat _ _ (by omega),
    Fin.ext (by omega)⟩

end Fields

theorem toNat_append_eq {m n : Nat} (x : BitVec m) (y : BitVec n) :
    (x ++ y).toNat = x.toNat * 2 ^ n + y.toNat := by
  rw [BitVec.toNat_append, ← Nat.shiftLeft_add_eq_or_of_lt y.isLt, Nat.shiftLeft_eq]

/-- The low bits of the numbers stand side by side in the word. -/
theorem pack_eq_append (opcode r ix i address : Int) :
    pack opcode r ix i address =
      (BitVec.ofInt 6 opcode ++ BitVec.ofInt 2 r ++ BitVec.ofInt 2 ix ++ BitVec.ofInt 1 i ++
        BitVec.ofInt 5 address : BitVec (6 + 2 + 2 + 1 + 5)) := by
  obtain ⟨hopcode, hr, hix, hi, haddress⟩ := Fields.val_ofInts opcode r ix i address
  have hopcodeLt := lowBits_lt 6 opcode
  have hrLt := lowBits_lt 2 r
  have hixLt := lowBits_lt 2 ix
  have hiLt := lowBits_lt 1 i
  have haddressLt := lowBits_lt 5 address
  apply BitVec.eq_of_toNat_eq
  rw [pack, Fields.word, hopcode, hr, hix, hi, haddress, BitVec.toNat_ofNat]
  simp only [toNat_append_eq]
  change _ = (((lowBits 6 opcode * 2 ^ 2 + lowBits 2 r) * 2 ^ 2 + lowBits 2 ix) * 2 ^ 1 +
    lowBits 1 i) * 2 ^ 5 + lowBits 5 address
  omega

theorem pack_decode (w : Int) :
    let f := decode w
    pack f.opcode.val f.r.val f.ix.val f.indirect.toNat f.address.val = BitVec.ofInt 16 w := by
  simp only [pack, Fields.ofInts_val]
  exact Fields.word_ofWord _

/-- Any number is decoded to fields that fit, and these are packed into its remainder; any numbers
are packed side by side, and their word is decoded to their remainders. -/
theorem pack_decode_inverse :
    (∀ w : Int,
      let f := decode w
      (f.opcode.val < 64 ∧ f.r.val < 4 ∧ f.ix.val < 4 ∧ f.indirect.toNat < 2 ∧
        f.address.val < 32) ∧
      ((pack f.opcode.val f.r.val f.ix.val f.indirect.toNat f.address.val).toNat : Int) =
        w % 2 ^ 16) ∧
    ∀ opcode r ix i address : Int,
      pack opcode r ix i address =
        (BitVec.ofInt 6 opcode ++ BitVec.ofInt 2 r ++ BitVec.ofInt 2 ix ++ BitVec.ofInt 1 i ++
          BitVec.ofInt 5 address : BitVec (6 + 2 + 2 + 1 + 5)) ∧
      let f := decode (pack opcode r ix i address).toNat
      (f.opcode.val : Int) = opcode % 64 ∧ (f.r.val : Int) = r % 4 ∧ (f.ix.val : Int) = ix % 4 ∧
        (f.indirect.toNat : Int) = i % 2 ∧ (f.address.val : Int) = address % 32 := by
  refine ⟨fun w => ⟨?_, ?_⟩, fun opcode r ix i address => ⟨pack_eq_append _ _ _ _ _, ?_⟩⟩
  · have hbit := Bool.toNat_le (decode w).indirect
    exact ⟨Fin.isLt _, Fin.isLt _, Fin.isLt _, Nat.lt_succ_of_le hbit, Fin.isLt _⟩
  · rw [pack_decode]
    exact lowBits_eq_emod 16 w
  · simp only [pack, Fields.decode_toNat_word]
    exact Fields.ofInts_eq_emod opcode r ix i address

end WordMachine
