import WordMachine.Proofs.Instruction.Encoding

namespace WordMachine

theorem Mnemonic.read?_name (m : Mnemonic) : Mnemonic.read? m.name.toList = some m := by
  cases m <;> decide

namespace Fields

variable {f : Fields} {m : Mnemonic}

def shownOperands (m : Mnemonic) (f : Fields) : List Text :=
  (f.shown m).map fun n : Nat => Numeral.decimal n

theorem shown_le {n : Nat} (h : n ∈ f.shown m) : n ≤ 31 := by
  have hr := f.r.isLt
  have hx := f.ix.isLt
  have ha := f.address.isLt
  rw [shown, List.mem_append] at h
  rcases h with h | h
  · split at h
    · simp only [List.mem_cons, List.not_mem_nil, or_false] at h
      omega
    · simp only [List.mem_cons, List.not_mem_nil, or_false] at h
      omega
  · split at h
    · simp only [List.mem_cons, List.not_mem_nil, or_false] at h
      omega
    · cases h

/-- The numbers that are shown are encoded into the word, once a zero stands for the register that
an index operation does not have. -/
theorem AssembledAs.encodeValues_shown (hf : f.AssembledAs m) :
    encodeValues m.name.toList
      ((if m.targetsIndex then [0] else []) ++ (f.shown m).map fun n : Nat => (n : Int)) =
      .ok f.word := by
  obtain ⟨hmarked, hunmarked⟩ := encodeValues_fields m.read?_name hf.opcode
  have hnumbers : (if m.targetsIndex then [0] else []) ++ (f.shown m).map (fun n : Nat => (n : Int)) =
      [(f.r.val : Int), (f.ix.val : Int), (f.address.val : Int)] ++
        if f.indirect then [1] else [] := by
    by_cases hindex : m.targetsIndex = true
    · rw [hf.register hindex]
      cases hi : f.indirect <;> simp [shown, hindex, hi]
    · cases hi : f.indirect <;> simp [shown, hindex, hi]
  rw [hnumbers]
  cases hi : f.indirect with
  | false => exact hunmarked hi
  | true =>
    rw [hi] at hmarked
    exact hmarked

theorem length_shown_of_targetsIndex (hindex : m.targetsIndex = true) :
    (f.shown m).length = 2 ∨ (f.shown m).length = 3 := by
  cases hi : f.indirect <;> simp [shown, hindex, hi]

theorem disassemble_halt : disassemble ((0 : Word).toNat : Int) = Mnemonic.hlt.name.toList := by
  decide

theorem disassemble_instruction (hcode : f.opcode.val = m.code) (hm : m ≠ .hlt) :
    disassemble f.word.toNat =
      m.name.toList ++ ' ' :: Text.join [','] (shownOperands m f) := by
  have hmnemonic := mnemonic?_eq_some_iff.2 hcode
  rw [disassemble, decode_toNat_word, hmnemonic]
  split
  · next h => cases h
  · next h => exact absurd (Option.some.inj h) hm
  · next h =>
    rw [← Option.some.inj h]
    rfl

end Fields
end WordMachine
