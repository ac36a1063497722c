import WordMachine.Proofs.Assembly.Symbols
import WordMachine.Proofs.Instruction.Encoding

namespace WordMachine.Emission

variable {symbols : SymbolTable} {number : Int} {op : Text} {operands : List Text}

theorem operandValues_eq_ok {m : Mnemonic} {numbers : List Int} (hop : Mnemonic.read? op = some m)
    (h : operandValues symbols number op operands = .ok numbers) :
    ∃ values, List.Forall₂ symbols.Denotes operands values ∧
      numbers = if m.targetsIndex then 0 :: values else values := by
  obtain ⟨values, hvalues, hn⟩ := bind_eq_ok.1 h
  refine ⟨values, SymbolTable.forall₂_denotes_of_mapM hvalues, ?_⟩
  simp only [hop] at hn
  split at hn
  · next hindex =>
    split at hn
    · cases hn
      rw [if_pos hindex]
    · cases hn
  · next hindex =>
    cases hn
    rw [if_neg hindex]

theorem exists_encodeValues_of_value {v : Int} (hdata : isData op = false)
    (hhlt : Mnemonic.read? op ≠ some .hlt) (h : value symbols number op operands = .ok v) :
    ∃ numbers w, operandValues symbols number op operands = .ok numbers ∧
      encodeValues op numbers = .ok w ∧ v = w.toNat := by
  simp only [value, hdata, Bool.false_eq_true, if_false, hhlt] at h
  obtain ⟨numbers, hnumbers, h⟩ := bind_eq_ok.1 h
  obtain ⟨w, hw, hv⟩ := bind_eq_ok.1 h
  exact ⟨numbers, w, hnumbers, mapError_eq_ok.1 hw, (Except.ok.inj hv).symm⟩

/-- The value of an instruction is the word of the fields that its operands state. The operands of
a halt are not read. -/
theorem value_eq_ok {v : Int} (hdata : isData op = false)
    (h : value symbols number op operands = .ok v) :
    ∃ (m : Mnemonic) (f : Fields), Mnemonic.read? op = some m ∧ f.AssembledAs m ∧
      v = f.word.toNat ∧
      (m ≠ .hlt → ∃ values, List.Forall₂ symbols.Denotes operands values ∧
        f.StatedBy m values) := by
  by_cases hhlt : Mnemonic.read? op = some .hlt
  · simp only [value, hdata, Bool.false_eq_true, if_false, hhlt, if_true] at h
    cases h
    exact ⟨.hlt, ⟨0, 0, 0, false, 0⟩, hhlt, ⟨rfl, fun _ => rfl, fun _ => by decide⟩, by decide,
      fun hne => absurd rfl hne⟩
  · obtain ⟨numbers, w, hnumbers, hencode, rfl⟩ := exists_encodeValues_of_value hdata hhlt h
    obtain ⟨m, f, hop, hcode, rfl, hshape⟩ := encodeValues_eq_ok hencode
    obtain ⟨values, hvalues, rfl⟩ := operandValues_eq_ok hop hnumbers
    have hnothalt : m ≠ .hlt := fun hm => hhlt (hm ▸ hop)
    have hzero : m.targetsIndex = true → f.r.val = 0 := by
      intro hindex
      simp only [hindex, if_true, List.cons.injEq] at hshape
      omega
    -- The general register is among the operands unless the operation names an index register.
    have hleading : f.indirect = false ∧ values = f.leading m ∨
        values = f.leading m ++ [(f.indirect.toNat : Int)] := by
      by_cases hindex : m.targetsIndex = true
      · simp only [hindex, if_true, List.cons.injEq] at hshape
        simp only [Fields.leading, hindex, if_true, List.nil_append]
        exact hshape.imp (fun hs => ⟨hs.1, hs.2.2⟩) (fun hs => hs.2)
      · simp only [hindex, Bool.false_eq_true, if_false] at hshape
        simp only [Fields.leading, hindex, Bool.false_eq_true, if_false]
        exact hshape
    refine ⟨m, f, hop, ⟨hcode, hzero, fun hm => absurd hm hnothalt⟩, rfl,
      fun _ => ⟨values, hvalues, ?_⟩⟩
    rcases hleading with ⟨hdirect, rfl⟩ | rfl
    · exact .unmarked hdirect
    · exact .marked

end WordMachine.Emission
