import Mathlib.Data.Set.Function
import Mathlib.Data.Set.Insert
import WordMachine.Proofs.Machine.Running

namespace WordMachine

/-- The registers whose values tell what an instruction does. -/
def Register.IsVisible : Register → Prop
  | .general _ | .pc => True
  | .index x => x.val ≠ 0
  | _ => False

def Register.visible : Set Register := {r | r.IsVisible}

namespace Machine

/-- Two machines with the same memory, the same state and the same values in some registers. -/
structure AgreeOn (s : Set Register) (m n : Machine) : Prop where
  memory : n.memory = m.memory
  state : n.state = m.state
  read : Set.EqOn n.registers.read m.registers.read s

/-- The registers that the next step fills, whatever they hold. -/
def filled (m : Machine) : Set Register :=
  if m.isReady then if m.faultsAtFetch then {.mar} else {.mar, .mbr, .ir} else ∅

namespace AgreeOn

variable {s t : Set Register} {m n : Machine}

theorem mono (h : AgreeOn t m n) (hst : s ⊆ t) : AgreeOn s m n :=
  ⟨h.memory, h.state, h.read.mono hst⟩

theorem write (h : AgreeOn s m n) (r : Register) (v : Int) :
    AgreeOn (insert r s) (m.write r v) (n.write r v) where
  memory := h.memory
  state := h.state
  read q hq := by
    by_cases e : r = q
    · subst e
      exact (Registers.read_write_self _ r v).trans (Registers.read_write_self _ r v).symm
    · have hm := Registers.read_write_of_ne m.registers v e
      have hn := Registers.read_write_of_ne n.registers v e
      exact hn.trans ((h.read (hq.resolve_left (Ne.symm e))).trans hm.symm)

theorem isReady (h : AgreeOn s m n) : n.isReady = m.isReady := by
  rw [Machine.isReady, Machine.isReady, h.state]

theorem fault (h : AgreeOn s m n) (code : FaultCode) : AgreeOn s (m.fault code) (n.fault code) :=
  have hmfr := h.write .mfr code.value
  ⟨hmfr.memory, rfl, fun _ hr => hmfr.read (Set.mem_insert_of_mem .mfr hr)⟩

theorem fetch (h : AgreeOn s m n) (hpc : .pc ∈ s) (w : Word) :
    AgreeOn ({.mar, .mbr, .ir} ∪ s) (m.fetch w) (n.fetch w) := by
  have haddress : n.registers.pc.toNat = m.registers.pc.toNat := h.read hpc
  have hsub : ({.mar, .mbr, .ir} ∪ s : Set Register) ⊆
      insert .pc (insert .ir (insert .mbr (insert .mar s))) := by
    rintro r ((rfl | rfl | rfl) | hr)
    · simp
    · simp
    · simp
    · simp [hr]
  have hwrites := ((((h.write .mar m.registers.pc.toNat).write .mbr w.toNat).write .ir
    w.toNat).write .pc (m.registers.pc.toNat + 1)).mono hsub
  rw [Machine.fetch, Machine.fetch, haddress]
  exact ⟨hwrites.memory, hwrites.state, hwrites.read⟩

section Reading

variable (h : AgreeOn s m n) (hs : Register.visible ⊆ s)
include h hs

theorem indexedAddress (f : Fields) (indexed : Bool) :
    n.indexedAddress f indexed = m.indexedAddress f indexed := by
  unfold Machine.indexedAddress
  split
  · next hindexed => rw [h.read (x := .index f.ix) (hs hindexed.2)]
  · rfl

theorem effectiveAddress (f : Fields) (indexed : Bool) :
    n.effectiveAddress f indexed = m.effectiveAddress f indexed := by
  unfold Machine.effectiveAddress
  rw [h.indexedAddress hs, h.memory]

theorem addressing {effect effect' : Fin memorySize → Effect} (he : effect' = effect) (f : Fields)
    (indexed : Bool) : n.addressing f indexed effect' = m.addressing f indexed effect := by
  unfold Machine.addressing
  rw [h.effectiveAddress hs, he]

/-- What an instruction does is told by what is visible. -/
theorem effect (w : Word) : n.effect w = m.effect w := by
  have hload (operation : String) (r : Register) :
      n.loadEffect operation r = m.loadEffect operation r := by
    funext a
    rw [loadEffect, loadEffect, h.memory]
  have hjump (r : Fin 4) : n.jumpEffect r = m.jumpEffect r := by
    funext a
    rw [jumpEffect, jumpEffect, h.read (x := .general r) (hs trivial)]
  unfold Machine.effect
  simp only [h.addressing hs (hload _ _), h.addressing hs (hjump _), h.addressing hs rfl]

end Reading

theorem perform (h : AgreeOn s m n) (e : Effect) : AgreeOn s (m.perform e) (n.perform e) := by
  obtain ⟨message, address?, assignment?, halts⟩ := e
  cases assignment? with
  | none =>
    cases halts with
    | false => exact h
    | true => exact ⟨h.memory, rfl, h.read⟩
  | some assignment =>
    have hwrite := (h.write assignment.1 assignment.2).mono (Set.subset_insert assignment.1 s)
    cases halts with
    | false => exact hwrite
    | true => exact ⟨hwrite.memory, rfl, hwrite.read⟩

theorem executeFetched (h : AgreeOn s m n) (hs : Register.visible ⊆ s) (address : Nat) (w : Word) :
    (n.executeFetched address w).answer = (m.executeFetched address w).answer ∧
      AgreeOn ({.mar, .mbr, .ir} ∪ s) (m.executeFetched address w).machine
        (n.executeFetched address w).machine := by
  have hfetch := h.fetch (hs trivial) w
  have heffect := hfetch.effect (hs.trans Set.subset_union_right) w
  unfold Machine.executeFetched
  simp only [heffect]
  split
  · next e _ =>
    have hdone := hfetch.perform e
    exact ⟨by rw [hdone.state], hdone⟩
  · next f _ => exact ⟨rfl, hfetch.fault f.code⟩

/-- One step gives the same answer and keeps the agreement, in what it fills as well. -/
theorem step (h : AgreeOn s m n) (hs : Register.visible ⊆ s) :
    n.step.answer = m.step.answer ∧ AgreeOn (m.filled ∪ s) m.next n.next := by
  have hpc : n.registers.pc.toNat = m.registers.pc.toNat := h.read (hs (a := .pc) trivial)
  cases hready : m.isReady with
  | false =>
    have hready' := h.isReady.trans hready
    rw [next, next, step_of_not_ready hready, step_of_not_ready hready', h.state, filled, hready,
      if_neg Bool.false_ne_true, Set.empty_union]
    exact ⟨rfl, h⟩
  | true =>
    have hready' := h.isReady.trans hready
    rw [filled, if_pos hready]
    cases ha : Memory.index? m.registers.pc.toNat with
    | some a =>
      have hfetch : ¬ m.faultsAtFetch = true := by simp [faultsAtFetch_iff hready, ha]
      rw [if_neg hfetch, next, next, step_of_fetched hready ha,
        step_of_fetched hready' (hpc ▸ ha), hpc, h.memory]
      exact h.executeFetched hs _ _
    | none =>
      -- A fault at the fetch fills MAR alone.
      have hfetch := (faultsAtFetch_iff hready).2 ha
      have hfetch' := (faultsAtFetch_iff hready').2 (hpc ▸ ha)
      have hnext := (h.write .mar m.registers.pc.toNat).fault .addressRange
      rw [if_pos hfetch, next_of_faultsAtFetch hfetch, next_of_faultsAtFetch hfetch', hpc]
      refine ⟨?_, hnext⟩
      simp only [Machine.step, hready, hready', ha, hpc]
      rfl

theorem next (h : AgreeOn s m n) (hs : Register.visible ⊆ s) : AgreeOn s m.next n.next :=
  (h.step hs).2.mono Set.subset_union_right

theorem iterate (h : AgreeOn s m n) (hs : Register.visible ⊆ s) (k : Nat) :
    AgreeOn s (Machine.next^[k] m) (Machine.next^[k] n) := by
  induction k generalizing m n with
  | zero => exact h
  | succ k ih => exact ih (h.next hs)

theorem iterate_filled (h : AgreeOn s m n) (hs : Register.visible ⊆ s) {k : Nat} (hk : 0 < k) :
    AgreeOn (m.filled ∪ s) (Machine.next^[k] m) (Machine.next^[k] n) := by
  obtain ⟨k, rfl⟩ := Nat.exists_eq_succ_of_ne_zero (Nat.pos_iff_ne_zero.1 hk)
  exact (h.step hs).2.iterate (hs.trans Set.subset_union_right) k

theorem stepsWithin (h : AgreeOn s m n) (hs : Register.visible ⊆ s) (k : Nat) :
    n.stepsWithin k = m.stepsWithin k := by
  induction k generalizing m n with
  | zero => rfl
  | succ k ih => rw [Machine.stepsWithin, Machine.stepsWithin, h.isReady, ih (h.next hs)]

end AgreeOn

namespace Progress

structure AgreeOn (s : Set Register) (p q : Progress) : Prop where
  machine : Machine.AgreeOn s p.machine q.machine
  steps : q.steps = p.steps
  last : q.last = p.last

variable {s : Set Register} {p q : Progress}

theorem AgreeOn.proceed (h : AgreeOn s p q) (hs : Register.visible ⊆ s) (k : Nat) :
    AgreeOn s (p.proceed k) (q.proceed k) := by
  induction k generalizing p q with
  | zero => exact h
  | succ k ih =>
    rw [Progress.proceed, Progress.proceed, h.machine.isReady]
    split
    · refine ih ⟨h.machine.next hs, congrArg (· + 1) h.steps, (h.machine.step hs).1⟩
    · exact h

theorem AgreeOn.answer (h : AgreeOn s p q) : q.answer = p.answer := by
  unfold Progress.answer
  rw [h.last, h.steps, h.machine.state]

end Progress

theorem AgreeOn.run {s : Set Register} {m n : Machine} (h : AgreeOn s m n)
    (hs : Register.visible ⊆ s) (k : Int) :
    (n.run k).answer = (m.run k).answer ∧ AgreeOn s (m.run k).machine (n.run k).machine := by
  have hstart : Progress.AgreeOn s (.start m) (.start n) :=
    ⟨h, rfl, by rw [Progress.start, Progress.start, h.state]⟩
  have hproceed := hstart.proceed hs k.toNat
  exact ⟨hproceed.answer, hproceed.machine⟩

/-- If words have been counted in a run, then its first step has fetched one. -/
theorem filled_of_counted {m : Machine} {k : Nat}
    (h : m.instructionCount < (next^[m.stepsWithin k] m).instructionCount) :
    0 < m.stepsWithin k ∧ m.filled = {.mar, .mbr, .ir} := by
  have hcount := instructionCount_iterate fun i hi => isReady_of_lt_stepsWithin (m := m) (n := k) hi
  have hsteps : 0 < m.stepsWithin k := by
    rw [hcount] at h
    split at h <;> omega
  have hready : m.isReady = true := isReady_of_lt_stepsWithin hsteps
  have hfetch : ¬ m.faultsAtFetch = true := by
    intro hfetch
    -- A machine that faults at the fetch makes no further step, and this one is not counted.
    have hone : m.stepsWithin k = 1 := by
      refine Nat.le_antisymm (Nat.le_of_not_lt fun hmore => ?_) hsteps
      have hnext : m.next.isReady = true := isReady_of_lt_stepsWithin hmore
      rw [next_of_faultsAtFetch hfetch] at hnext
      cases hnext
    rw [hcount, hone, if_pos ⟨Nat.one_pos, hfetch⟩] at h
    exact Nat.lt_irrefl _ h
  rw [filled, if_pos hready, if_neg hfetch]
  exact ⟨hsteps, rfl⟩

/-- How two machines agree that were `m` and one with the same visible part, and have made some
steps: in the visible part, in MAR after a step, and in MBR and IR after a fetch. -/
structure AgreeAfter (steps : Nat) (m m' n' : Machine) : Prop where
  visible : AgreeOn Register.visible m' n'
  stepped (h : 0 < steps) : n'.registers.read .mar = m'.registers.read .mar
  fetched (h : m.instructionCount < m'.instructionCount) :
    n'.registers.read .mbr = m'.registers.read .mbr ∧ n'.registers.read .ir = m'.registers.read .ir

theorem agreeAfter_iterate {m n : Machine} (h : AgreeOn Register.visible m n) (k : Nat) :
    AgreeAfter (m.stepsWithin k) m (next^[m.stepsWithin k] m) (next^[m.stepsWithin k] n) where
  visible := h.iterate subset_rfl _
  stepped hsteps := by
    have hready : m.isReady = true := isReady_of_lt_stepsWithin hsteps
    have hmar : .mar ∈ m.filled := by
      rw [filled, if_pos hready]
      split <;> simp
    exact (h.iterate_filled subset_rfl hsteps).read (.inl hmar)
  fetched hcount := by
    obtain ⟨hsteps, hfilled⟩ := filled_of_counted hcount
    have hread := (h.iterate_filled subset_rfl hsteps).read
    rw [hfilled] at hread
    exact ⟨hread (by simp), hread (by simp)⟩

/-- A step and a run of any length depend on the visible part of the machine alone. On two machines
that agree in it they have the same answer and leave machines that agree in it again, and in the
registers that have been filled on the way. -/
theorem execution_depends_on_visible {m n : Machine} (h : AgreeOn Register.visible m n) :
    (n.step.answer = m.step.answer ∧
      AgreeAfter (if m.isReady then 1 else 0) m m.step.machine n.step.machine) ∧
    ∀ k : Int, (n.run k).answer = (m.run k).answer ∧
      ∃ steps : Nat, (m.run k).answer.details.lookup "steps" = some (.number steps) ∧
        AgreeAfter steps m (m.run k).machine (n.run k).machine := by
  have hsteps := h.stepsWithin subset_rfl
  constructor
  · refine ⟨(h.step subset_rfl).1, ?_⟩
    -- A step of a ready machine is a run of one step.
    have hafter := agreeAfter_iterate h 1
    cases hready : m.isReady with
    | true =>
      have hone : m.stepsWithin 1 = 1 := by rw [stepsWithin, if_pos hready]; rfl
      rw [hone] at hafter
      exact hafter
    | false =>
      have hnone : m.stepsWithin 1 = 0 := by rw [stepsWithin, hready]; rfl
      rw [hnone] at hafter
      rw [step_of_not_ready hready, step_of_not_ready (h.isReady.trans hready)]
      exact hafter
  · intro k
    refine ⟨(h.run subset_rfl k).1, m.stepsWithin k.toNat, m.lookup_steps_run k, ?_⟩
    rw [machine_run, machine_run, hsteps]
    exact agreeAfter_iterate h k.toNat

/-- A machine that loads X1 and R2, with indexing, and then meets an operation that it lacks. -/
def indexing : Machine :=
  { powerOn with memory := (((Memory.zero.set ⟨0, by decide⟩ 0x8443).set ⟨1, by decide⟩ 0x0644).set
      ⟨2, by decide⟩ 0x0800).set ⟨3, by decide⟩ 1 }

def disguised : Machine :=
  { ((((indexing.write .mar 5).write .mbr 7).write .ir 9).write .cc 1).write .mfr 8 with
    instructionCount := 40, debug := true, filename := "old".toList, maxSteps := 0 }

theorem disguised_run :
    AgreeOn Register.visible indexing disguised ∧
      (disguised.run 9).answer = (indexing.run 9).answer ∧
      (indexing.run 9).answer.details.lookup "steps" = some (.number 3) ∧
      (disguised.run 9).machine.registers.read .ir = 0x0800 := by
  have hagree : AgreeOn Register.visible indexing disguised := by
    refine ⟨rfl, rfl, fun r hr => ?_⟩
    cases r with
    | general r => rfl
    | index x => rfl
    | pc => rfl
    | _ => cases hr
  obtain ⟨-, hrun⟩ := execution_depends_on_visible hagree
  obtain ⟨hanswer, _, -, hafter⟩ := hrun 9
  exact ⟨hagree, hanswer, rfl, (hafter.fetched (by decide)).2⟩

end Machine
end WordMachine
