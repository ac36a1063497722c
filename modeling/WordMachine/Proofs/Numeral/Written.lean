import WordMachine.Proofs.Numeral.Columns
import WordMachine.Proofs.Numeral.Decimal

namespace WordMachine.Numeral

def padded (radix padding n : Nat) : Text := List.replicate padding '0' ++ Nat.toDigits radix n

/-- The numerals of a number. -/
inductive Written (n : Nat) : Text → Prop
  | octal (padding : Nat) : Written n (padded 8 padding n)
  | hexadecimal {mark : Char} {digits : Text} (padding : Nat) (hmark : mark = 'x' ∨ mark = 'X')
    (hdigits : digits.map Char.toLower = padded 16 padding n) : Written n ('0' :: mark :: digits)
  | decimal (padding : Nat) (hmark : '8' ∈ Nat.toDigits 10 n ∨ '9' ∈ Nat.toDigits 10 n)
    (hlen : (padded 10 padding n).length ≤ maxDigits) : Written n (padded 10 padding n)

section Padded

variable {radix padding n : Nat}

theorem padded_ne_nil : padded radix padding n ≠ [] :=
  List.append_ne_nil_of_right_ne_nil _ Nat.toDigits_ne_nil

theorem exists_digit_of_mem_toDigits {c : Char} (hradix : 1 < radix)
    (h : c ∈ Nat.toDigits radix n) : ∃ d < radix, c = Nat.digitChar d := by
  induction n using Nat.strongRecOn with
  | ind n ih =>
    rw [Nat.toDigits_eq_if hradix] at h
    split at h
    · next hn => exact ⟨n, hn, List.mem_singleton.1 h⟩
    · rcases List.mem_append.1 h with hhigh | hlow
      · exact ih (n / radix) (Nat.div_lt_self (by omega) hradix) hhigh
      · exact ⟨n % radix, Nat.mod_lt n (by omega), List.mem_singleton.1 hlow⟩

theorem exists_digit_of_mem_padded {c : Char} (hradix : 1 < radix)
    (h : c ∈ padded radix padding n) : ∃ d < radix, c = Nat.digitChar d := by
  rcases List.mem_append.1 h with hzero | hdigit
  · exact ⟨0, by omega, List.eq_of_mem_replicate hzero⟩
  · exact exists_digit_of_mem_toDigits hradix hdigit

theorem ofDigits_padded {value : Char → Option Nat} (hradix : 1 < radix)
    (hvalue : ∀ d < radix, value (Nat.digitChar d) = some d) :
    ofDigits radix ((padded radix padding n).filterMap value) = n := by
  have hzero := hvalue 0 (by omega)
  change value '0' = some 0 at hzero
  induction padding with
  | zero => exact ofDigits_toDigits hradix hvalue n
  | succ padding ih =>
    rw [padded, List.replicate_succ, List.cons_append, List.filterMap_cons_some hzero, ofDigits,
      List.foldl_cons, Nat.zero_mul]
    exact ih

end Padded

section Octal

variable {padding n : Nat}

theorem isOctalDigit_of_mem_padded {c : Char} (h : c ∈ padded 8 padding n) :
    isOctalDigit c = true := by
  have hall : ∀ d < 8, isOctalDigit (Nat.digitChar d) = true := by decide
  obtain ⟨d, hd, rfl⟩ := exists_digit_of_mem_padded (by decide) h
  exact hall d hd

theorem ofOctalDigits_padded : ofOctalDigits (padded 8 padding n) = n := by
  rw [ofOctalDigits, ← List.filterMap_eq_map]
  exact ofDigits_padded (by decide) (by decide)

end Octal

section Hexadecimal

theorem digit?_toLower (c : Char) :
    Base.digit? .hexadecimal c.toLower = Base.digit? .hexadecimal c := by
  have hupper : ∀ n, 0x41 ≤ n → n ≤ 0x5A →
      Base.digit? .hexadecimal (Char.ofNat n).toLower = Base.digit? .hexadecimal (Char.ofNat n) := by
    decide
  by_cases hc : 0x41 ≤ c.toNat ∧ c.toNat ≤ 0x5A
  · have h := hupper c.toNat hc.1 hc.2
    rwa [Char.ofNat_toNat] at h
  · have hlower : c.toLower = c := dif_neg hc
    rw [hlower]

variable {padding n : Nat} {digits : Text}

theorem digit?_of_lower_mem {c : Char} (h : c.toLower ∈ padded 16 padding n) :
    (Base.digit? .hexadecimal c).isSome = true := by
  have hall : ∀ d < 16, (Base.digit? .hexadecimal (Nat.digitChar d)).isSome = true := by decide
  obtain ⟨d, hd, hc⟩ := exists_digit_of_mem_padded (by decide) h
  rw [← digit?_toLower, hc]
  exact hall d hd

/-- Digits have no second mark before them that would be dropped. -/
theorem dropHexMark_of_digits (h : ∀ c ∈ digits, (Base.digit? .hexadecimal c).isSome = true) :
    dropHexMark digits = digits := by
  unfold dropHexMark
  split
  · next z x rest =>
    have hx := h x (by simp)
    rw [if_neg]
    rintro ⟨-, hmark⟩
    exact hmark.elim (ne_of_digit? .hexadecimal hx (by decide))
      (ne_of_digit? .hexadecimal hx (by decide))
  · rfl

theorem readInteger_hexDigits (h : digits.map Char.toLower = padded 16 padding n) :
    readInteger .hexadecimal digits = .ok n := by
  have hdigits : ∀ c ∈ digits, (Base.digit? .hexadecimal c).isSome = true := by
    intro c hc
    exact digit?_of_lower_mem (h ▸ List.mem_map_of_mem hc)
  have hne : digits ≠ [] := by
    rintro rfl
    exact padded_ne_nil h.symm
  have hsign := splitSign_of_run .hexadecimal [] hne hdigits
  have hmark : dropHexMark (digits ++ []) = digits ++ [] := by
    rw [List.append_nil, dropHexMark_of_digits hdigits]
  have hlower : (digits.map Char.toLower).filterMap (Base.digit? .hexadecimal) =
      digits.filterMap (Base.digit? .hexadecimal) := by
    rw [List.filterMap_map]
    exact List.filterMap_congr fun c _ => digit?_toLower c
  have hvalue : ofDigits 16 (digits.filterMap (Base.digit? .hexadecimal)) = n := by
    rw [← hlower, h]
    exact ofDigits_padded (by decide) (by decide)
  have hread := readInteger_of_run .hexadecimal hsign hmark hne hdigits nofun nofun
  rw [List.append_nil] at hread
  rw [hread, Int.one_mul]
  exact congrArg (fun m : Nat => Except.ok (m : Int)) hvalue

end Hexadecimal

section Decimal

variable {padding n : Nat}

theorem isDecimalDigit_of_mem_padded {radix : Nat} {c : Char} (hradix : 1 < radix)
    (hten : radix ≤ 10) (h : c ∈ padded radix padding n) : isDecimalDigit c = true := by
  have hall : ∀ d < 10, isDecimalDigit (Nat.digitChar d) = true := by decide
  obtain ⟨d, hd, rfl⟩ := exists_digit_of_mem_padded hradix h
  exact hall d (by omega)

theorem readInteger_padded (hlen : (padded 10 padding n).length ≤ maxDigits) :
    readInteger .decimal (padded 10 padding n) = .ok n := by
  have hdigits : ∀ c ∈ padded 10 padding n, isDecimalDigit c = true :=
    fun c hc => isDecimalDigit_of_mem_padded (by decide) (by decide) hc
  have hafter : ∀ c ∈ ([] : Text), isEdgeBlank c = true := nofun
  have hread := (readInteger_digits padded_ne_nil hdigits hlen hafter).1
  rwa [List.append_nil, ofDigits_padded (by decide) (by decide)] at hread

end Decimal

namespace Written

variable {n : Nat} {token : Text}

theorem ne_nil (h : Written n token) : token ≠ [] := by
  cases h with
  | octal padding => exact padded_ne_nil
  | hexadecimal padding hmark hdigits => exact List.cons_ne_nil _ _
  | decimal padding hmark hlen => exact padded_ne_nil

theorem isDecimalDigit_of_mem_head? (h : Written n token) :
    ∀ c ∈ token.head?, isDecimalDigit c = true := by
  intro c hc
  cases h with
  | octal padding =>
    exact isDecimalDigit_of_mem_padded (by decide) (by decide) (List.mem_of_mem_head? hc)
  | hexadecimal padding hmark hdigits =>
    obtain rfl := Option.some.inj hc
    rfl
  | decimal padding hmark hlen =>
    exact isDecimalDigit_of_mem_padded (by decide) (by decide) (List.mem_of_mem_head? hc)

theorem isBlank_eq_false (h : Written n token) : ∀ c ∈ token, Text.isBlank c = false := by
  intro c hc
  cases h with
  | octal padding => exact isBlank_eq_false_of_isOctalDigit (isOctalDigit_of_mem_padded hc)
  | hexadecimal padding hmark hdigits =>
    rcases List.mem_cons.1 hc with rfl | hc
    · rfl
    · rcases List.mem_cons.1 hc with rfl | hc
      · rcases hmark with rfl | rfl <;> rfl
      · exact isBlank_eq_false_of_digit? (digit?_of_lower_mem (hdigits ▸ List.mem_map_of_mem hc))
  | decimal padding hmark hlen =>
    exact isBlank_eq_false_of_isDecimalDigit
      (isDecimalDigit_of_mem_padded (by decide) (by decide) hc)

theorem readNumber_eq (h : Written n token) : readNumber token = .ok n := by
  have htrim : Text.trim token = token := Text.trim_of_forall h.isBlank_eq_false
  cases h with
  | octal padding =>
    rw [readNumber_of_octalDigits padded_ne_nil fun c hc => isOctalDigit_of_mem_padded hc,
      ofOctalDigits_padded]
  | hexadecimal padding hmark hdigits =>
    have hread := readInteger_hexDigits hdigits
    rw [readNumber, htrim]
    rcases hmark with rfl | rfl
    · exact hread
    · exact hread
  | decimal padding hmark hlen =>
    -- A digit 8 or 9 keeps the numeral from being read in octal.
    have hoctal : ¬ (padded 10 padding n).all isOctalDigit = true := by
      intro hall
      have hoctal := List.all_eq_true.1 hall
      rcases hmark with h8 | h9
      · exact absurd (hoctal '8' (List.mem_append_right _ h8)) (by decide)
      · exact absurd (hoctal '9' (List.mem_append_right _ h9)) (by decide)
    have hletter {x : Char} {rest : Text} (ht : padded 10 padding n = '0' :: x :: rest) :
        isDecimalDigit x = true := by
      have hx : x ∈ padded 10 padding n := by
        rw [ht]
        simp
      exact isDecimalDigit_of_mem_padded (by decide) (by decide) hx
    rw [readNumber, htrim]
    split
    · next ht => exact absurd (hletter ht) (by decide)
    · next ht => exact absurd (hletter ht) (by decide)
    · rw [if_neg fun h => hoctal h.2]
      exact readInteger_padded hlen

end Written
end WordMachine.Numeral
