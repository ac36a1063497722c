import Mathlib.Algebra.Group.Nat.Defs
import Mathlib.Algebra.Ring.Int.Defs
import WordMachine.Proofs.Text.Spread
import WordMachine.Proofs.Text.Words
import WordMachine.Word.Truncation

namespace WordMachine

/-- Texts of one length sort by what stands before their last characters first. -/
theorem Text.concat_lt_concat_iff {s t : Text} {c d : Char} (h : s.length = t.length) :
    s ++ [c] < t ++ [d] ↔ s < t ∨ s = t ∧ c < d := by
  induction s generalizing t with
  | nil =>
    obtain rfl := List.length_eq_zero_iff.1 h.symm
    simp [List.cons_lt_cons_iff]
  | cons a s ih =>
    cases t with
    | nil => cases h
    | cons b t =>
      rw [List.cons_append, List.cons_append, List.cons_lt_cons_iff, List.cons_lt_cons_iff,
        ih (Nat.succ.inj h), List.cons.injEq, and_or_left, or_assoc, and_assoc]

namespace Numeral

open Text (IsBlankRun IsWord)

theorem isBlank_eq_false_of_isOctalDigit {c : Char} (h : isOctalDigit c = true) :
    Text.isBlank c = false := by
  have hb : 0x30 ≤ c.toNat ∧ c.toNat ≤ 0x37 := by
    simpa [isOctalDigit, Char.le_def, UInt32.le_iff_toNat_le] using h
  exact Text.isBlank_eq_false_of_ascii (by omega) (by omega)

theorem isOctalDigit_of_mem_octalColumn {v : Int} {c : Char} (h : c ∈ octalColumn v) :
    isOctalDigit c = true :=
  List.all_eq_true.1 (all_isOctalDigit_octalColumn v) c h

theorem isBlank_eq_false_of_mem_octalColumn {v : Int} {c : Char} (h : c ∈ octalColumn v) :
    Text.isBlank c = false :=
  isBlank_eq_false_of_isOctalDigit (isOctalDigit_of_mem_octalColumn h)

theorem octalColumn_ne_nil (v : Int) : octalColumn v ≠ [] :=
  List.ne_nil_of_length_pos (by simp)

theorem readNumber_of_octalDigits {t : Text} (hne : t ≠ []) (h : ∀ c ∈ t, isOctalDigit c = true) :
    readNumber t = .ok (ofOctalDigits t) := by
  have ht : Text.trim t = t :=
    Text.trim_of_forall fun c hc => isBlank_eq_false_of_isOctalDigit (h c hc)
  have hall : t.all isOctalDigit = true := List.all_eq_true.2 h
  rw [readNumber, ht]
  split
  · next digits => exact absurd (h 'x' (by simp)) (by decide)
  · next digits => exact absurd (h 'X' (by simp)) (by decide)
  · rw [if_pos ⟨hne, hall⟩]

theorem readNumber_octalColumn (v : Int) : readNumber (octalColumn v) = .ok (v % 0o1000000) := by
  have hdigits : ∀ c ∈ octalColumn v, isOctalDigit c = true :=
    fun c hc => isOctalDigit_of_mem_octalColumn hc
  rw [readNumber_of_octalDigits (octalColumn_ne_nil v) hdigits, ofOctalDigits_octalColumn]

theorem isWord_octalColumn (v : Int) : IsWord (octalColumn v) where
  ne_nil := octalColumn_ne_nil v
  blank _ hc := isBlank_eq_false_of_mem_octalColumn hc

theorem readNumber_between_blanks {before token after : Text} (hbefore : IsBlankRun before)
    (htoken : IsWord token) (hafter : IsBlankRun after) :
    readNumber (before ++ token ++ after) = readNumber token := by
  have hend : Text.trimRight after = [] := List.rdropWhile_eq_nil_iff.2 hafter
  have htrim : Text.trim (before ++ token ++ after) = Text.trim token := by
    rw [Text.trim_blankRun_append after hbefore htoken, hend, List.append_nil,
      Text.trim_of_forall htoken.blank]
  rw [readNumber, htrim, ← readNumber]

theorem octalDigit_eq_octalDigit_iff {m n : Nat} : octalDigit m = octalDigit n ↔ m % 8 = n % 8 := by
  constructor
  · intro h
    rw [← toNat_octalDigit m, ← toNat_octalDigit n, h]
  · intro h
    rw [octalDigit, h, ← octalDigit]

theorem octalDigit_lt_octalDigit_iff {m n : Nat} : octalDigit m < octalDigit n ↔ m % 8 < n % 8 := by
  have hdigits : ∀ j < 8, ∀ k < 8, Char.ofNat (0x30 + j) < Char.ofNat (0x30 + k) ↔ j < k := by
    decide
  exact hdigits _ (Nat.mod_lt m (by decide)) _ (Nat.mod_lt n (by decide))

theorem octalDigits_eq_octalDigits_iff {width m n : Nat} :
    octalDigits width m = octalDigits width n ↔ m % Nat.pow 8 width = n % Nat.pow 8 width := by
  induction width generalizing m n with
  | zero => simp [octalDigits, Nat.mod_one]
  | succ width ih =>
    rw [octalDigits, octalDigits, List.append_singleton_inj, ih, octalDigit_eq_octalDigit_iff,
      mod_pow_succ, mod_pow_succ]
    omega

/-- Digits sort by the remainders of their numbers. -/
theorem octalDigits_lt_octalDigits_iff {width m n : Nat} :
    octalDigits width m < octalDigits width n ↔ m % Nat.pow 8 width < n % Nat.pow 8 width := by
  induction width generalizing m n with
  | zero => simp [octalDigits, Nat.mod_one]
  | succ width ih =>
    rw [octalDigits, octalDigits, Text.concat_lt_concat_iff (by simp), ih,
      octalDigits_eq_octalDigits_iff, octalDigit_lt_octalDigit_iff, mod_pow_succ, mod_pow_succ]
    omega

theorem octalColumn_eq_octalColumn_iff {u v : Int} :
    octalColumn u = octalColumn v ↔ u % 2 ^ 18 = v % 2 ^ 18 := by
  have hpow : Nat.pow 8 6 = 262144 := rfl
  rw [octalColumn, octalColumn, octalDigits_eq_octalDigits_iff, hpow]
  omega

theorem octalColumn_lt_octalColumn_iff {u v : Int} :
    octalColumn u < octalColumn v ↔ u % 2 ^ 18 < v % 2 ^ 18 := by
  have hpow : Nat.pow 8 6 = 262144 := rfl
  rw [octalColumn, octalColumn, octalDigits_lt_octalDigits_iff, hpow]
  omega

/-- A column is six octal digits and is read, with or without blanks around it, as the remainder of
its number modulo 2^18. So two columns are equal exactly if the remainders are, and the columns of
numbers that have no more than six digits sort as the numbers do. -/
theorem octalColumn_keeps_remainder :
    (∀ v : Int,
      (octalColumn v).length = 6 ∧ (∀ c ∈ octalColumn v, '0' ≤ c ∧ c ≤ '7') ∧
        ∀ before after : Text, IsBlankRun before → IsBlankRun after →
          readNumber (before ++ octalColumn v ++ after) = .ok (v % 2 ^ 18)) ∧
    ∀ u v : Int,
      (octalColumn u = octalColumn v ↔ u % 2 ^ 18 = v % 2 ^ 18) ∧
      (0 ≤ u → u < v → v < 2 ^ 18 → octalColumn u < octalColumn v) := by
  refine ⟨fun v => ⟨length_octalColumn v, fun c hc => ?_, fun before after hbefore hafter => ?_⟩,
    fun u v => ⟨octalColumn_eq_octalColumn_iff, fun hu huv hv => ?_⟩⟩
  · simpa [isOctalDigit] using isOctalDigit_of_mem_octalColumn hc
  · rw [readNumber_between_blanks hbefore (isWord_octalColumn v) hafter, readNumber_octalColumn]
    rfl
  · have hself : u % 2 ^ 18 = u := Int.emod_eq_of_lt hu (Int.lt_trans huv hv)
    have hself' : v % 2 ^ 18 = v :=
      Int.emod_eq_of_lt (Int.le_trans hu (Int.le_of_lt huv)) hv
    rwa [octalColumn_lt_octalColumn_iff, hself, hself']

def looseColumn : Text := "\t 777772\u3000\r\n".toList

theorem looseColumn_read :
    (IsBlankRun "\t ".toList ∧ IsBlankRun "\u3000\r\n".toList) ∧
      looseColumn = "\t ".toList ++ octalColumn (-6) ++ "\u3000\r\n".toList ∧
      readNumber looseColumn = .ok 262138 ∧
      ((0 : Int) ≤ 511 ∧ (511 : Int) < 512 ∧ (512 : Int) < 2 ^ 18) ∧
      octalColumn 511 < octalColumn 512 := by
  have hbefore : IsBlankRun "\t ".toList := by decide
  have hafter : IsBlankRun "\u3000\r\n".toList := by decide
  have hloose : looseColumn = "\t ".toList ++ octalColumn (-6) ++ "\u3000\r\n".toList := rfl
  have hrange : (0 : Int) ≤ 511 ∧ (511 : Int) < 512 ∧ (512 : Int) < 2 ^ 18 := by decide
  obtain ⟨hcolumn, hpair⟩ := octalColumn_keeps_remainder
  refine ⟨⟨hbefore, hafter⟩, hloose, ?_, hrange, ?_⟩
  · rw [hloose, (hcolumn (-6)).2.2 _ _ hbefore hafter]
    rfl
  · exact (hpair 511 512).2 hrange.1 hrange.2.1 hrange.2.2

end Numeral
end WordMachine
