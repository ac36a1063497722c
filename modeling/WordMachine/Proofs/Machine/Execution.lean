import WordMachine.Machine.Run
import WordMachine.Proofs.Instruction.Fields

namespace WordMachine

/-- The registers that instructions and commands may write: not those that tell why the machine has
stopped, nor the unused index slot. -/
def Register.IsOpen : Register → Prop
  | .ir | .cc | .mfr => False
  | .index x => x.val ≠ 0
  | _ => True

namespace Machine

variable {m : Machine} {w : Word}

theorem addressing_eq_ok {f : Fields} {indexed : Bool} {effect : Fin memorySize → Effect}
    {e : Effect} (h : m.addressing f indexed effect = .ok e) : ∃ a, e = effect a := by
  unfold addressing at h
  split at h
  · next a _ => exact ⟨a, by cases h; rfl⟩
  · cases h

theorem addressing_eq_error {f : Fields} {indexed : Bool} {effect : Fin memorySize → Effect}
    {fault : Fault} (h : m.addressing f indexed effect = .error fault) :
    fault.code = .addressRange := by
  unfold addressing at h
  split at h
  · cases h
  · cases h
    rfl

/-- An effect stops the machine only for a halt, and writes open registers only. -/
theorem effect_eq_ok {e : Effect} (h : m.effect w = .ok e) :
    (e.halts = true → (Fields.ofWord w).opcode.val = Mnemonic.hlt.code) ∧
      ∀ r v, e.assignment? = some (r, v) → r.IsOpen := by
  unfold effect at h
  simp only at h
  -- Only the first case, that of the halt, stops the machine.
  split at h
  · next hop =>
    cases h
    exact ⟨fun _ => Fields.mnemonic?_eq_some_iff.1 hop, by simp⟩
  · obtain ⟨a, rfl⟩ := addressing_eq_ok h
    exact ⟨nofun, by simp [loadEffect, Register.IsOpen]⟩
  · obtain ⟨a, rfl⟩ := addressing_eq_ok h
    exact ⟨nofun, by simp [addressEffect, Register.IsOpen]⟩
  · obtain ⟨a, rfl⟩ := addressing_eq_ok h
    unfold jumpEffect
    split
    · exact ⟨nofun, by simp [Register.IsOpen]⟩
    · exact ⟨nofun, by simp⟩
  · split at h
    · cases h
    · next hix =>
      obtain ⟨a, rfl⟩ := addressing_eq_ok h
      refine ⟨nofun, ?_⟩
      simp only [loadEffect, Option.some.injEq, Prod.mk.injEq]
      rintro r v ⟨rfl, -⟩
      exact hix
  · cases h

theorem refused_of_effect_eq_error {fault : Fault} (h : m.effect w = .error fault)
    (hcode : fault.code = .illegalOperation) : (Fields.ofWord w).Refused := by
  have haddress {f : Fields} {indexed : Bool} {effect : Fin memorySize → Effect}
      (h : m.addressing f indexed effect = .error fault) : (Fields.ofWord w).Refused := by
    rw [addressing_eq_error h] at hcode
    cases hcode
  unfold effect at h
  simp only at h
  split at h
  · cases h
  · exact haddress h
  · exact haddress h
  · exact haddress h
  · next hop =>
    split at h
    · next hix => exact .inr ⟨Fields.mnemonic?_eq_some_iff.1 hop, hix⟩
    · exact haddress h
  · next hhlt hldr hlda hjz hldx =>
    -- None of the five operations is left, whether the code names another one or none.
    left
    have hother {op : Mnemonic} (hne : (Fields.ofWord w).mnemonic? ≠ some op) :
        (Fields.ofWord w).opcode.val ≠ op.code :=
      fun hval => hne (Fields.mnemonic?_eq_some_iff.2 hval)
    simp only [List.forall_mem_cons, List.not_mem_nil, false_implies, implies_true, and_true]
    exact ⟨hother hhlt, hother hldr, hother hlda, hother hjz, hother hldx⟩

theorem read_fetch (m : Machine) (w : Word) (r : Register) :
    (m.fetch w).registers.read r =
      match r with
      | .mar => m.registers.read .pc
      | .mbr | .ir => w.toNat
      | .pc => (m.registers.read .pc + 1) % 4096
      | r => m.registers.read r := by
  cases r with
  | pc =>
    change (BitVec.ofInt 12 ((m.registers.pc.toNat : Int) + 1)).toNat =
      (m.registers.pc.toNat + 1) % 4096
    rw [BitVec.toNat_ofInt]
    omega
  | _ => simp [fetch, write, Registers.write, Registers.read]

theorem ir_fetch (m : Machine) (w : Word) : (m.fetch w).registers.ir = w :=
  BitVec.eq_of_toNat_eq (read_fetch m w .ir)

theorem ir_write {r : Register} (hr : r.IsOpen) (v : Int) :
    (m.write r v).registers.ir = m.registers.ir := by
  have hne : r ≠ .ir := by
    rintro rfl
    exact hr
  exact BitVec.eq_of_toNat_eq (Registers.read_write_of_ne m.registers v hne)

theorem machine_executeFetched_ok {e : Effect} (h : (m.fetch w).effect w = .ok e)
    (address : Nat) : (m.executeFetched address w).machine = (m.fetch w).perform e := by
  simp only [executeFetched, h]

theorem machine_executeFetched_error {fault : Fault} (h : (m.fetch w).effect w = .error fault)
    (address : Nat) : (m.executeFetched address w).machine = (m.fetch w).fault fault.code := by
  simp only [executeFetched, h]

theorem read_fault_mfr (m : Machine) (code : FaultCode) :
    (m.fault code).registers.read .mfr = code.value := by
  cases code <;> rfl

theorem read_fault_of_ne (m : Machine) (code : FaultCode) {r : Register} (h : r ≠ .mfr) :
    (m.fault code).registers.read r = m.registers.read r :=
  Registers.read_write_of_ne m.registers _ h.symm

end Machine
end WordMachine
