import WordMachine.Console.Basic
import WordMachine.Proofs.Machine.Demand
import WordMachine.Proofs.Machine.Running

namespace WordMachine

theorem Fields.registers_exist (f : Fields) :
    Registers.general? f.r.val = .ok (.general f.r) ∧
      (f.ix.val ≠ 0 → Registers.index? f.ix.val = .ok (.index f.ix)) := by
  have hr := f.r.isLt
  have hix := f.ix.isLt
  exact ⟨dif_pos (by omega), fun hne => dif_pos (by omega)⟩

namespace Machine

variable {m : Machine} {f : Fields} {w : Word} {code : FaultCode}

/-- The address that an instruction gives, modulo 4096 and before indirection. `LDX` is the one that
is not indexed. -/
def givenAddress (m : Machine) (f : Fields) : Nat :=
  (f.address.val + if f.ix.val ≠ 0 ∧ f.opcode.val ≠ Mnemonic.ldx.code then
    m.registers.read (.index f.ix) else 0) % 4096

/-- The address that an instruction gives is beyond memory or, with indirection, the address is that
stands there. -/
def ReachesBeyond (m : Machine) (f : Fields) : Prop :=
  memorySize ≤ m.givenAddress f ∨ f.indirect = true ∧ ∃ i : Fin memorySize,
    i.val = m.givenAddress f ∧ memorySize ≤ (m.memory.get i).toNat % 4096

/-- The faults of an instruction: an operation that the machine lacks, an `LDX` without a register to
load, and an address beyond memory. -/
inductive InstructionFaults (m : Machine) (f : Fields) : FaultCode → Prop
  | unsupported (hop : ∀ op ∈ [Mnemonic.hlt, .ldr, .lda, .jz, .ldx], f.opcode.val ≠ op.code) :
    InstructionFaults m f .illegalOperation
  | noTarget (hop : f.opcode.val = Mnemonic.ldx.code) (hix : f.ix.val = 0) :
    InstructionFaults m f .illegalOperation
  | address (hop : (∃ op ∈ [Mnemonic.ldr, .lda, .jz], f.opcode.val = op.code) ∨
      f.opcode.val = Mnemonic.ldx.code ∧ f.ix.val ≠ 0) (hbeyond : m.ReachesBeyond f) :
    InstructionFaults m f .addressRange

inductive StepFaults (m : Machine) : FaultCode → Prop
  | fetch (hpc : memorySize ≤ m.registers.read .pc) : StepFaults m .addressRange
  | execute {a : Fin memorySize} {code : FaultCode} (hpc : m.registers.read .pc = a.val)
    (hfault : m.InstructionFaults (Fields.ofWord (m.memory.get a)) code) : StepFaults m code

theorem index?_natCast_eq_none_iff {a : Nat} :
    Memory.index? (a : Int) = none ↔ memorySize ≤ a := by
  rw [Memory.index?_eq_none_iff]
  omega

theorem target?_eq_none_iff {indexed : Bool}
    (h : indexed = true ↔ f.opcode.val ≠ Mnemonic.ldx.code) :
    m.target? f indexed = none ↔ m.ReachesBeyond f := by
  have haddress : (f.address.val + if indexed = true ∧ f.ix.val ≠ 0 then
      m.registers.read (.index f.ix) else 0) % 4096 = m.givenAddress f := by
    simp only [givenAddress, h, and_comm]
  unfold target? ReachesBeyond
  simp only [haddress]
  cases hi : f.indirect with
  | false => simp [index?_natCast_eq_none_iff]
  | true =>
    rw [if_pos rfl]
    cases ha : Memory.index? (m.givenAddress f : Int) with
    | none => simp [index?_natCast_eq_none_iff.1 ha]
    | some i =>
      have hval : m.givenAddress f = i.val := Int.natCast_inj.1 (Memory.index?_eq_some_iff.1 ha)
      have hlt : ¬ memorySize ≤ i.val := Nat.not_le.2 i.isLt
      rw [Option.bind_some, index?_natCast_eq_none_iff, hval]
      constructor
      · exact fun hword => .inr ⟨rfl, i, rfl, hword⟩
      · rintro (hbeyond | ⟨-, j, hj, hword⟩)
        · exact absurd hbeyond hlt
        · rwa [← Fin.ext hj]

theorem exists_error_of_addressing {indexed : Bool} {effect : Fin memorySize → Effect} :
    (∃ fault, m.addressing f indexed effect = .error fault ∧ fault.code = code) ↔
      code = .addressRange ∧ m.target? f indexed = none := by
  rw [← effectiveAddress_toOption]
  unfold addressing
  cases m.effectiveAddress f indexed with
  | ok a => simp [Except.toOption]
  | error cause => simp [Except.toOption, eq_comm]

theorem instructionFaults_indexed_iff {op : Mnemonic} (hmem : op ∈ [Mnemonic.ldr, .lda, .jz])
    (hop : f.opcode.val = op.code) :
    m.InstructionFaults f code ↔ code = .addressRange ∧ m.target? f true = none := by
  have hne : f.opcode.val ≠ Mnemonic.ldx.code := by
    rw [hop]
    intro hldx
    rw [Mnemonic.code_injective hldx] at hmem
    simp at hmem
  rw [target?_eq_none_iff (iff_of_true rfl hne)]
  constructor
  · rintro (hother | ⟨hldx, -⟩ | ⟨-, hbeyond⟩)
    · exact absurd hop (hother op (by simp at hmem ⊢; tauto))
    · exact absurd hldx hne
    · exact ⟨rfl, hbeyond⟩
  · rintro ⟨rfl, hbeyond⟩
    exact .address (.inl ⟨op, hmem, hop⟩) hbeyond

theorem instructionFaults_ldx_iff (hop : f.opcode.val = Mnemonic.ldx.code) (hix : f.ix.val ≠ 0) :
    m.InstructionFaults f code ↔ code = .addressRange ∧ m.target? f false = none := by
  rw [target?_eq_none_iff (iff_of_false Bool.false_ne_true fun hne => hne hop)]
  constructor
  · rintro (hother | ⟨-, hzero⟩ | ⟨-, hbeyond⟩)
    · exact absurd hop (hother .ldx (by decide))
    · exact absurd hzero hix
    · exact ⟨rfl, hbeyond⟩
  · rintro ⟨rfl, hbeyond⟩
    exact .address (.inr ⟨hop, hix⟩) hbeyond

/-- A refused instruction is an illegal operation, whatever its address. -/
theorem instructionFaults_refused_iff (h : f.Refused) :
    m.InstructionFaults f code ↔ code = .illegalOperation := by
  constructor
  · rintro (- | - | ⟨hop, -⟩)
    · rfl
    · rfl
    · rcases h with hother | ⟨hldx, hix⟩
      · rcases hop with ⟨op, hmem, hop⟩ | ⟨hop, -⟩
        · exact absurd hop (hother op (by simp at hmem ⊢; tauto))
        · exact absurd hop (hother .ldx (by decide))
      · rcases hop with ⟨op, hmem, hop⟩ | ⟨-, hne⟩
        · obtain rfl := Mnemonic.code_injective (hop.symm.trans hldx)
          simp at hmem
        · exact absurd hix hne
  · rintro rfl
    exact h.elim .unsupported fun h => .noTarget h.1 h.2

theorem not_instructionFaults_halt (h : f.opcode.val = Mnemonic.hlt.code) :
    ¬ m.InstructionFaults f code := by
  have hne {op : Mnemonic} (hop : f.opcode.val = op.code) : op = .hlt :=
    Mnemonic.code_injective (hop.symm.trans h)
  rintro (hother | ⟨hldx, -⟩ | ⟨⟨op, hmem, hop⟩ | ⟨hldx, -⟩, -⟩)
  · exact hother .hlt (by decide) h
  · cases hne hldx
  · obtain rfl := hne hop
    simp at hmem
  · cases hne hldx

/-- The effect of a word is a fault exactly in the cases named. -/
theorem exists_error_of_effect :
    (∃ fault, m.effect w = .error fault ∧ fault.code = code) ↔
      m.InstructionFaults (Fields.ofWord w) code := by
  have hrefused {fault : Fault} (he : m.effect w = .error fault)
      (hcode : fault.code = .illegalOperation) :
      (∃ fault, m.effect w = .error fault ∧ fault.code = code) ↔
        m.InstructionFaults (Fields.ofWord w) code := by
    rw [instructionFaults_refused_iff (refused_of_effect_eq_error he hcode), he]
    simp [hcode, eq_comm]
  have hindexed {op : Mnemonic} {use : Fin memorySize → Effect}
      (hop : (Fields.ofWord w).mnemonic? = some op) (hmem : op ∈ [Mnemonic.ldr, .lda, .jz]) :
      (∃ fault, m.addressing (Fields.ofWord w) true use = .error fault ∧ fault.code = code) ↔
        m.InstructionFaults (Fields.ofWord w) code :=
    exists_error_of_addressing.trans
      (instructionFaults_indexed_iff hmem (Fields.mnemonic?_eq_some_iff.1 hop)).symm
  -- The cases are those of `effect`. What is known of refusals is about the effect as it is then.
  revert hrefused
  unfold effect
  simp only
  split
  · next hop =>
    intro _
    simp [not_instructionFaults_halt (Fields.mnemonic?_eq_some_iff.1 hop)]
  · next hop => exact fun _ => hindexed hop (by decide)
  · next hop => exact fun _ => hindexed hop (by decide)
  · next hop => exact fun _ => hindexed hop (by decide)
  · next hop =>
    split
    · exact fun hrefused => hrefused rfl rfl
    · next hix =>
      intro _
      rw [exists_error_of_addressing, instructionFaults_ldx_iff
        (Fields.mnemonic?_eq_some_iff.1 hop) hix]
  · exact fun hrefused => hrefused rfl rfl

theorem instructionFaults_fetch :
    (m.fetch w).InstructionFaults f code ↔ m.InstructionFaults f code := by
  have haddress : (m.fetch w).givenAddress f = m.givenAddress f := by
    rw [givenAddress, givenAddress, read_fetch]
  have hbeyond : (m.fetch w).ReachesBeyond f ↔ m.ReachesBeyond f := by
    rw [ReachesBeyond, ReachesBeyond, haddress]
    rfl
  constructor
  · rintro (hop | ⟨hop, hix⟩ | ⟨hop, h⟩)
    · exact .unsupported hop
    · exact .noTarget hop hix
    · exact .address hop (hbeyond.1 h)
  · rintro (hop | ⟨hop, hix⟩ | ⟨hop, h⟩)
    · exact .unsupported hop
    · exact .noTarget hop hix
    · exact .address hop (hbeyond.2 h)

/-- What a fault leaves. Memory, R0 to R3, X1 to X3 and the condition code are as before, and MAR
holds what PC held. If that is beyond memory nothing else has changed; or else the word at PC has
been fetched and counted. -/
structure FaultLeaves (m n : Machine) : Prop where
  memory : n.memory = m.memory
  spared : ∀ r ∈ Register.generals ++ Register.indexes ++ [.cc],
    n.registers.read r = m.registers.read r
  mar : n.registers.read .mar = m.registers.read .pc
  unfetched (hpc : memorySize ≤ m.registers.read .pc) :
    (∀ r ∈ [Register.pc, .mbr, .ir], n.registers.read r = m.registers.read r) ∧
      n.instructionCount = m.instructionCount
  fetched (a : Fin memorySize) (hpc : m.registers.read .pc = a.val) :
    (∀ r ∈ [Register.mbr, .ir], n.registers.read r = (m.memory.get a).toNat) ∧
      n.registers.read .pc = a.val + 1 ∧ n.instructionCount = m.instructionCount + 1

theorem not_mem_spared : ∀ r ∈ [Register.pc, .mar, .mbr, .ir, .mfr],
    r ∉ Register.generals ++ Register.indexes ++ [.cc] := by
  decide

theorem faultLeaves_of_unfetched (hpc : memorySize ≤ m.registers.read .pc) (code : FaultCode) :
    FaultLeaves m ((m.write .mar m.registers.pc.toNat).fault code) := by
  have hread {r : Register} (hmfr : r ≠ .mfr) (hmar : r ≠ .mar) :
      ((m.write .mar m.registers.pc.toNat).fault code).registers.read r = m.registers.read r :=
    (read_fault_of_ne _ code hmfr).trans (Registers.read_write_of_ne _ _ hmar.symm)
  refine ⟨rfl, fun r hr => hread ?_ ?_, ?_, fun _ => ⟨fun r hr => hread ?_ ?_, rfl⟩, ?_⟩
  · rintro rfl
    exact not_mem_spared .mfr (by decide) hr
  · rintro rfl
    exact not_mem_spared .mar (by decide) hr
  · rw [read_fault_of_ne _ _ (by decide), read_write_of_lt m m.registers.pc.isLt, if_pos rfl]
    rfl
  · rintro rfl
    simp at hr
  · rintro rfl
    simp at hr
  · intro a ha
    exact absurd (ha ▸ hpc) (Nat.not_le.2 a.isLt)

theorem faultLeaves_of_fetched {a : Fin memorySize} (hpc : m.registers.read .pc = a.val)
    (code : FaultCode) : FaultLeaves m ((m.fetch (m.memory.get a)).fault code) := by
  have hlt : a.val < 2048 := a.isLt
  have hread {r : Register} (hmfr : r ≠ .mfr) :=
    (read_fault_of_ne (m.fetch (m.memory.get a)) code hmfr).trans (read_fetch m _ r)
  refine ⟨rfl, fun r hr => ?_, hread (r := .mar) nofun, fun hbeyond => ?_, fun b hb => ?_⟩
  · cases r with
    | general r => exact hread (r := .general r) nofun
    | index x => exact hread (r := .index x) nofun
    | cc => exact hread (r := .cc) nofun
    | pc => exact absurd hr (not_mem_spared .pc (by decide))
    | mar => exact absurd hr (not_mem_spared .mar (by decide))
    | mbr => exact absurd hr (not_mem_spared .mbr (by decide))
    | ir => exact absurd hr (not_mem_spared .ir (by decide))
    | mfr => exact absurd hr (not_mem_spared .mfr (by decide))
  · rw [hpc] at hbeyond
    exact absurd hbeyond (Nat.not_le.2 a.isLt)
  · obtain rfl := Fin.ext (hpc.symm.trans hb)
    refine ⟨?_, ?_, rfl⟩
    · rw [List.forall_mem_cons, List.forall_mem_singleton]
      exact ⟨hread (r := .mbr) nofun, hread (r := .ir) nofun⟩
    · rw [hread (r := .pc) nofun, hpc]
      exact Nat.mod_eq_of_lt (by omega)

theorem next_of_stepFaults (hready : m.isReady = true) (h : m.StepFaults code) :
    m.next.state = .faulted ∧ m.next.registers.read .mfr = code.value ∧ FaultLeaves m m.next := by
  obtain ⟨n, hnext, hleaves⟩ : ∃ n : Machine, m.next = n.fault code ∧
      FaultLeaves m (n.fault code) := by
    cases h with
    | fetch hpc =>
      have hfetch : m.faultsAtFetch = true := by
        rw [faultsAtFetch, hready, Bool.true_and]
        exact decide_eq_true hpc
      exact ⟨_, next_of_faultsAtFetch hfetch, faultLeaves_of_unfetched hpc _⟩
    | @execute a _ hpc hfault =>
      have hfetched := instructionFaults_fetch (w := m.memory.get a).2 hfault
      obtain ⟨fault, he, rfl⟩ := exists_error_of_effect.2 hfetched
      refine ⟨_, ?_, faultLeaves_of_fetched hpc _⟩
      rw [next, step_of_fetched hready (Memory.index?_eq_some_iff.2 (congrArg Int.ofNat hpc)),
        machine_executeFetched_error he]
  rw [hnext]
  exact ⟨rfl, read_fault_mfr n code, hleaves⟩

/-- A step that leaves the machine faulted has met a fault. -/
theorem exists_stepFaults (h : m.faults = true) : ∃ code, m.StepFaults code := by
  obtain ⟨hready, hstate⟩ := Bool.and_eq_true_iff.1 h
  have hstate : m.step.machine.state = .faulted := of_decide_eq_true hstate
  cases ha : Memory.index? (m.registers.read .pc : Int) with
  | none => exact ⟨_, .fetch (index?_natCast_eq_none_iff.1 ha)⟩
  | some a =>
    rw [step_of_fetched hready ha] at hstate
    cases he : (m.fetch (m.memory.get a)).effect (m.memory.get a) with
    | error fault =>
      have hfault := exists_error_of_effect.1 ⟨fault, he, rfl⟩
      exact ⟨fault.code, .execute (Int.natCast_inj.1 (Memory.index?_eq_some_iff.1 ha))
        (instructionFaults_fetch.1 hfault)⟩
    | ok e => exact absurd hstate (state_executeFetched_ne_faulted hready he _)

/-- A step of a ready machine fails exactly in the cases named, and exactly if it leaves the machine
faulted. The case tells the fault code, and a fault has changed nothing but what fetching changes.
No failure is one of the command: all register numbers that an instruction can hold are valid. -/
theorem step_fails_precisely (h : m.state = .ready) :
    (m.step.answer.ok = false ↔ ∃ code, m.StepFaults code) ∧
    (m.step.answer.ok = false ↔ m.step.machine.state = .faulted) ∧
    (m.StepFaults .addressRange → m.step.machine.registers.read .mfr = 8) ∧
    (m.StepFaults .illegalOperation → m.step.machine.registers.read .mfr = 4) ∧
    (m.step.answer.ok = false →
      FaultLeaves m m.step.machine ∧ m.step.answer.kind? = some Kind.runtime.name) ∧
    ∀ w, let f := Fields.ofWord w
      Registers.general? f.r.val = .ok (.general f.r) ∧
        (f.ix.val ≠ 0 → Registers.index? f.ix.val = .ok (.index f.ix)) := by
  have hready := isReady_iff.2 h
  have hok : m.step.answer.ok = false ↔ m.step.machine.state = .faulted := by
    rw [ok_step_eq_false_iff, faults, hready, Bool.true_and, decide_eq_true_iff]
    rfl
  have hfaults : m.step.answer.ok = false ↔ ∃ code, m.StepFaults code := by
    constructor
    · exact fun hfailed => exists_stepFaults (ok_step_eq_false_iff.1 hfailed)
    · rintro ⟨code, hcode⟩
      exact hok.2 (next_of_stepFaults hready hcode).1
  refine ⟨hfaults, hok, fun hcode => (next_of_stepFaults hready hcode).2.1,
    fun hcode => (next_of_stepFaults hready hcode).2.1, fun hfailed => ?_,
    fun w => (Fields.ofWord w).registers_exist⟩
  obtain ⟨code, hcode⟩ := hfaults.1 hfailed
  exact ⟨(next_of_stepFaults hready hcode).2.2, (step_failed hfailed).2.1⟩

/-- The first word loads R2 with indexing and indirection. The address wraps around to 4, and the
address that stands there is beyond memory. -/
def farPointer : Machine :=
  (powerOn.loadImage [⟨0, 0x06e5⟩, ⟨4, 0x0fff⟩] none).machine.write (.index (Fin.last 3)) 4095

theorem farPointer_step_fails :
    farPointer.step.answer.ok = false ∧ farPointer.step.machine.registers.read .mfr = 8 ∧
      farPointer.step.machine.registers.read .pc = 1 ∧
      farPointer.step.machine.registers.read (.general 2) = 0 := by
  have hbeyond : farPointer.ReachesBeyond (Fields.ofWord 0x06e5) :=
    .inr ⟨by decide, ⟨4, by decide⟩, by decide, by decide⟩
  have hfault : farPointer.StepFaults .addressRange :=
    .execute (a := ⟨0, by decide⟩) rfl
      (.address (.inl ⟨.ldr, by decide, by decide⟩) hbeyond)
  obtain ⟨hfails, -, hcode, -, hleaves, -⟩ := step_fails_precisely (m := farPointer) rfl
  have hfailed := hfails.2 ⟨_, hfault⟩
  obtain ⟨hleft, -⟩ := hleaves hfailed
  exact ⟨hfailed, hcode hfault, (hleft.fetched ⟨0, by decide⟩ rfl).2.1,
    hleft.spared (.general 2) (by decide)⟩

end Machine
end WordMachine
