import WordMachine.Text.Utf8

namespace WordMachine.Text.Utf8

theorem decodeFrom_ascii (position : Nat) {b : UInt8} (h : b.toNat < 0x80) (rest : List UInt8) :
    decodeFrom position none (b :: rest) =
      (Char.ofNat b.toNat :: ·) <$> decodeFrom (position + 1) none rest := by
  simp [decodeFrom, h]

theorem decodeFrom_lead (position : Nat) {b : UInt8} {p : Pending}
    (h : Pending.start? position b.toNat = some p) (rest : List UInt8) :
    decodeFrom position none (b :: rest) = decodeFrom (position + 1) (some p) rest := by
  have hb : ¬ b.toNat < 0x80 := by
    intro hb
    rw [Pending.start?, if_pos (by omega)] at h
    simp at h
  simp [decodeFrom, hb, h]

theorem decodeFrom_last (position : Nat) {b : UInt8} {p : Pending} (hm : p.missing = 1)
    (hb : p.low ≤ b.toNat ∧ b.toNat ≤ p.high) (rest : List UInt8) :
    decodeFrom position (some p) (b :: rest) =
      (Char.ofNat (p.bits * 0x40 + b.toNat % 0x40) :: ·) <$>
        decodeFrom (position + 1) none rest := by
  simp [decodeFrom, hb, hm]

theorem decodeFrom_more (position : Nat) {b : UInt8} {p : Pending} (hm : 1 < p.missing)
    (hb : p.low ≤ b.toNat ∧ b.toNat ≤ p.high) (rest : List UInt8) :
    decodeFrom position (some p) (b :: rest) =
      decodeFrom (position + 1) (some ⟨p.first, p.lead, p.missing - 1, 0x80, 0xBF,
        p.bits * 0x40 + b.toNat % 0x40⟩) rest := by
  simp [decodeFrom, hb, Nat.not_le.2 hm]

theorem toNat_ofNat_of_lt {n : Nat} (h : n < 256) : (UInt8.ofNat n).toNat = n := by
  simp only [UInt8.toNat_ofNat']
  omega

theorem decodeFrom_encodeChar (position : Nat) (c : Char) (rest : List UInt8) :
    decodeFrom position none (String.utf8EncodeChar c ++ rest) =
      (c :: ·) <$> decodeFrom (position + (String.utf8EncodeChar c).length) none rest := by
  have hc : Char.ofNat c.val.toNat = c := Char.ofNat_toNat c
  have hv : c.val.toNat < 0xD800 ∨ 0xDFFF < c.val.toNat ∧ c.val.toNat < 0x110000 := c.valid
  unfold String.utf8EncodeChar
  generalize c.val.toNat = v at hc hv
  -- One case for each number of bytes. A byte after the lead holds six bits of the number.
  dsimp only
  split
  · rw [List.singleton_append, decodeFrom_ascii _ (by rw [toNat_ofNat_of_lt] <;> omega),
      toNat_ofNat_of_lt (by omega), hc]
    rfl
  split
  · have h₀ : (UInt8.ofNat (v / 64 % 32 + 192)).toNat = v / 64 % 32 + 192 := toNat_ofNat_of_lt (by omega)
    have h₁ : (UInt8.ofNat (v % 64 + 128)).toNat = v % 64 + 128 := toNat_ofNat_of_lt (by omega)
    rw [List.cons_append, decodeFrom_lead (p := ⟨position, v / 64 % 32 + 192, 1, 0x80, 0xBF, v / 64 % 32⟩),
      List.singleton_append, decodeFrom_last _ rfl, h₁]
    · have : v / 64 % 32 * 0x40 + (v % 64 + 128) % 0x40 = v := by omega
      simp only [this, hc, List.length_cons, List.length_nil, Nat.add_assoc]
    · simp only [h₁]; omega
    · rw [h₀, Pending.start?, if_neg (by omega), if_pos (by omega)]
      congr 2
      omega
  split
  · have h₀ : (UInt8.ofNat (v / 4096 % 16 + 224)).toNat = v / 4096 % 16 + 224 := toNat_ofNat_of_lt (by omega)
    have h₁ : (UInt8.ofNat (v / 64 % 64 + 128)).toNat = v / 64 % 64 + 128 := toNat_ofNat_of_lt (by omega)
    have h₂ : (UInt8.ofNat (v % 64 + 128)).toNat = v % 64 + 128 := toNat_ofNat_of_lt (by omega)
    simp only [List.cons_append, List.nil_append]
    rw [decodeFrom_lead (p := ⟨position, v / 4096 % 16 + 224, 2,
        if v / 4096 % 16 + 224 = 0xE0 then 0xA0 else 0x80,
        if v / 4096 % 16 + 224 = 0xED then 0x9F else 0xBF, v / 4096 % 16⟩),
      decodeFrom_more _ (by simp), decodeFrom_last _ rfl, h₁, h₂]
    · have : (v / 4096 % 16 * 0x40 + (v / 64 % 64 + 128) % 0x40) * 0x40 + (v % 64 + 128) % 0x40 = v := by
        omega
      simp only [this, hc, List.length_cons, List.length_nil, Nat.add_assoc]
    · simp only [h₂]; omega
    · simp only [h₁]; split <;> split <;> omega
    · rw [h₀, Pending.start?, if_neg (by omega), if_neg (by omega), if_pos (by omega)]
      congr 2
      omega
  · have h₀ : (UInt8.ofNat (v / 262144 % 8 + 240)).toNat = v / 262144 % 8 + 240 := toNat_ofNat_of_lt (by omega)
    have h₁ : (UInt8.ofNat (v / 4096 % 64 + 128)).toNat = v / 4096 % 64 + 128 := toNat_ofNat_of_lt (by omega)
    have h₂ : (UInt8.ofNat (v / 64 % 64 + 128)).toNat = v / 64 % 64 + 128 := toNat_ofNat_of_lt (by omega)
    have h₃ : (UInt8.ofNat (v % 64 + 128)).toNat = v % 64 + 128 := toNat_ofNat_of_lt (by omega)
    simp only [List.cons_append, List.nil_append]
    rw [decodeFrom_lead (p := ⟨position, v / 262144 % 8 + 240, 3,
        if v / 262144 % 8 + 240 = 0xF0 then 0x90 else 0x80,
        if v / 262144 % 8 + 240 = 0xF4 then 0x8F else 0xBF, v / 262144 % 8⟩),
      decodeFrom_more _ (by simp), decodeFrom_more _ (by simp), decodeFrom_last _ rfl, h₁, h₂, h₃]
    · have : ((v / 262144 % 8 * 0x40 + (v / 4096 % 64 + 128) % 0x40) * 0x40 +
          (v / 64 % 64 + 128) % 0x40) * 0x40 + (v % 64 + 128) % 0x40 = v := by omega
      simp only [this, hc, List.length_cons, List.length_nil, Nat.add_assoc]
    · simp only [h₃]; omega
    · simp only [h₂]; omega
    · simp only [h₁]; split <;> split <;> omega
    · rw [h₀, Pending.start?, if_neg (by omega), if_neg (by omega), if_neg (by omega), if_pos (by omega)]
      congr 2
      omega

theorem decode_encode (t : Text) : decode (encode t) = .ok t := by
  have h (position : Nat) : decodeFrom position none (encode t) = .ok t := by
    induction t generalizing position with
    | nil => rfl
    | cons c t ih =>
      rw [encode, List.flatMap_cons, decodeFrom_encodeChar, ← encode, ih]
      rfl
  exact h 0

end WordMachine.Text.Utf8
