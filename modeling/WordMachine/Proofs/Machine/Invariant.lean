import WordMachine.Proofs.Machine.Execution

namespace WordMachine.Machine

/-- What holds of the registers and the state between any two commands, and between the steps of
a run. -/
structure Invariant (m : Machine) : Prop where
  index_zero : m.registers.read (.index 0) = 0
  cc : m.registers.read .cc = 0
  mfr : m.registers.read .mfr ∈ [0, 4, 8]
  faulted : m.registers.read .mfr ≠ 0 ↔ m.state = .faulted
  halted : m.state = .halted →
    (Fields.ofWord m.registers.ir).opcode.val = Mnemonic.hlt.code
  refused : m.state = .faulted → m.registers.read .mfr = FaultCode.illegalOperation.value →
    (Fields.ofWord m.registers.ir).Refused

variable {m m' : Machine}

namespace Invariant

theorem mfr_of_ready (h : m.Invariant) (hready : m.state = .ready) :
    m.registers.read .mfr = 0 := by
  refine Decidable.not_not.1 fun hne => ?_
  have hfaulted := h.faulted.1 hne
  rw [hready] at hfaulted
  cases hfaulted

/-- The invariant is about the state and the registers that are not open, and nothing else. -/
theorem of_read_eq (h : m.Invariant) (hstate : m'.state = m.state)
    (hregs : ∀ r, ¬ r.IsOpen → m'.registers.read r = m.registers.read r) : m'.Invariant := by
  have hir : m'.registers.ir = m.registers.ir := BitVec.eq_of_toNat_eq (hregs .ir id)
  have hmfr : m'.registers.read .mfr = m.registers.read .mfr := hregs .mfr id
  exact {
    index_zero := (hregs (.index 0) fun hne => hne rfl).trans h.index_zero
    cc := (hregs .cc id).trans h.cc
    mfr := hmfr ▸ h.mfr
    faulted := by rw [hmfr, hstate]; exact h.faulted
    halted := by rw [hir, hstate]; exact h.halted
    refused := by rw [hir, hmfr, hstate]; exact h.refused }

theorem write (h : m.Invariant) {r : Register} (hr : r.IsOpen) (v : Int) :
    (m.write r v).Invariant := by
  refine h.of_read_eq rfl fun q hq => Registers.read_write_of_ne m.registers v ?_
  rintro rfl
  exact hq hr

theorem powerOn : powerOn.Invariant where
  index_zero := rfl
  cc := rfl
  mfr := by decide
  faulted := by decide
  halted := nofun
  refused := nofun

theorem clear (m : Machine) : m.clear.Invariant :=
  powerOn.of_read_eq rfl fun _ _ => rfl

theorem memory (h : m.Invariant) (memory : Memory) : ({ m with memory } : Machine).Invariant :=
  h.of_read_eq rfl fun _ _ => rfl

theorem fetch (h : m.Invariant) (hready : m.state = .ready) (w : Word) :
    (m.fetch w).Invariant where
  index_zero := by rw [read_fetch]; exact h.index_zero
  cc := by rw [read_fetch]; exact h.cc
  mfr := by rw [read_fetch]; exact h.mfr
  faulted := by rw [read_fetch]; exact h.faulted
  halted hstate := by
    have hfetched : (m.fetch w).state = .ready := hready
    rw [hfetched] at hstate
    cases hstate
  refused hstate := by
    have hfetched : (m.fetch w).state = .ready := hready
    rw [hfetched] at hstate
    cases hstate

theorem halt (h : m.Invariant) (hready : m.state = .ready)
    (hop : (Fields.ofWord m.registers.ir).opcode.val = Mnemonic.hlt.code) :
    ({ m with state := .halted } : Machine).Invariant where
  index_zero := h.index_zero
  cc := h.cc
  mfr := h.mfr
  faulted := iff_of_false (fun hne => hne (h.mfr_of_ready hready)) nofun
  halted _ := hop
  refused := nofun

theorem fault (h : m.Invariant) {code : FaultCode}
    (hcode : code = .illegalOperation → (Fields.ofWord m.registers.ir).Refused) :
    (m.fault code).Invariant where
  index_zero := h.index_zero
  cc := h.cc
  mfr := by rw [read_fault_mfr]; cases code <;> decide
  faulted := by rw [read_fault_mfr]; exact iff_of_true (by cases code <;> decide) rfl
  halted := nofun
  refused _ hmfr := by
    rw [read_fault_mfr] at hmfr
    cases code with
    | illegalOperation => exact hcode rfl
    | addressRange => exact absurd hmfr (by decide)

/-- Carrying out an effect keeps the invariant if it writes open registers only and stops the
machine for no other reason than a halt in IR. -/
theorem perform (h : m.Invariant) (hready : m.state = .ready) {e : Effect}
    (hhalts : e.halts = true → (Fields.ofWord m.registers.ir).opcode.val = Mnemonic.hlt.code)
    (hopen : ∀ r v, e.assignment? = some (r, v) → r.IsOpen) : (m.perform e).Invariant := by
  -- The machine after the assignment, if there is one, is ready and has the same IR.
  obtain ⟨n, hn, hstate, hir, heq⟩ : ∃ n : Machine, n.Invariant ∧ n.state = .ready ∧
      n.registers.ir = m.registers.ir ∧
      m.perform e = if e.halts then { n with state := .halted } else n := by
    unfold Machine.perform
    cases ha : e.assignment? with
    | none => exact ⟨m, h, hready, rfl, rfl⟩
    | some assignment =>
      have hr : assignment.1.IsOpen := hopen _ _ ha
      exact ⟨m.write assignment.1 assignment.2, h.write hr _, hready, ir_write hr _, rfl⟩
  rw [heq]
  split
  · next hhalt =>
    apply hn.halt hstate
    rw [hir]
    exact hhalts hhalt
  · exact hn

/-- Executing an instruction keeps the invariant: the word that stops the machine is in IR. -/
theorem executeFetched (h : m.Invariant) (hready : m.state = .ready) (address : Nat) (w : Word) :
    (m.executeFetched address w).machine.Invariant := by
  have hfetch := h.fetch hready w
  cases he : (m.fetch w).effect w with
  | error fault =>
    rw [machine_executeFetched_error he]
    apply hfetch.fault
    intro hcode
    rw [ir_fetch]
    exact refused_of_effect_eq_error he hcode
  | ok e =>
    obtain ⟨hhalts, hopen⟩ := effect_eq_ok he
    rw [machine_executeFetched_ok he]
    apply hfetch.perform hready _ hopen
    rw [ir_fetch]
    exact hhalts

theorem step (h : m.Invariant) : m.step.machine.Invariant := by
  unfold Machine.step
  simp only
  split
  · exact h
  · next hready =>
    have hready : m.state = .ready := by simpa [isReady] using hready
    split
    · exact h.executeFetched hready _ _
    · -- PC is beyond memory: MAR is filled before the fault, and IR is not.
      exact (h.write (r := .mar) trivial _).fault nofun

/-- Each state of a run has the invariant that the first one has. -/
theorem proceed {p : Progress} (h : p.machine.Invariant) (n : Nat) :
    (p.proceed n).machine.Invariant := by
  induction n generalizing p with
  | zero => exact h
  | succ n ih =>
    rw [Progress.proceed]
    split
    · exact ih h.step
    · exact h

theorem run (h : m.Invariant) (n : Int) : (m.run n).machine.Invariant :=
  proceed (p := .start m) h n.toNat

end Invariant
end WordMachine.Machine
