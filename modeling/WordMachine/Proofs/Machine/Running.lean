import Mathlib.Data.ENat.Lattice
import WordMachine.Proofs.Machine.Faulting

namespace WordMachine.Machine

variable {m : Machine}

def next (m : Machine) : Machine := m.step.machine

def traceOf (m : Machine) (n : Nat) : List TraceLine :=
  (List.range n).flatMap fun i => (next^[i] m).step.trace

/-- The number of calls of `step` until the machine is no longer ready, if it ever stops. -/
noncomputable def stepsToStop (m : Machine) : ℕ∞ :=
  ⨅ (n : ℕ) (_ : (next^[n] m).state ≠ .ready), (n : ℕ∞)

def faults (m : Machine) : Bool := m.isReady && m.next.state = .faulted

/-- The next step stops the machine before it has fetched a word. -/
def faultsAtFetch (m : Machine) : Bool := m.isReady && decide (memorySize ≤ m.registers.pc.toNat)

theorem isReady_iff : m.isReady = true ↔ m.state = .ready := by
  simp [isReady]

theorem step_of_not_ready (h : m.isReady = false) :
    m.step = ⟨m, [], .done "step" "halted" [("state", .word m.state.name)]⟩ := by
  simp [step, h]

theorem step_of_fetched (h : m.isReady = true) {a : Fin memorySize}
    (ha : Memory.index? m.registers.pc.toNat = some a) :
    m.step = m.executeFetched m.registers.pc.toNat (m.memory.get a) := by
  simp [step, h, ha]

theorem faultsAtFetch_iff (h : m.isReady = true) :
    m.faultsAtFetch = true ↔ Memory.index? m.registers.pc.toNat = none := by
  simp only [faultsAtFetch, h, Bool.true_and, decide_eq_true_iff, Memory.index?_eq_none_iff]
  omega

theorem next_of_faultsAtFetch (h : m.faultsAtFetch = true) :
    m.next = (m.write .mar m.registers.pc.toNat).fault .addressRange := by
  have hready : m.isReady = true := (Bool.and_eq_true_iff.1 h).1
  have ha := (faultsAtFetch_iff hready).1 h
  simp [next, step, hready, ha]

theorem state_perform (m : Machine) (e : Effect) :
    (m.perform e).state = if e.halts then .halted else m.state := by
  unfold perform
  cases e.assignment? <;> cases e.halts <;> rfl

theorem state_executeFetched_ne_faulted {w : Word} {e : Effect} (hready : m.isReady = true)
    (he : (m.fetch w).effect w = .ok e) (address : Nat) :
    (m.executeFetched address w).machine.state ≠ .faulted := by
  have hfetched : (m.fetch w).state = .ready := isReady_iff.1 hready
  rw [machine_executeFetched_ok he, state_perform, hfetched]
  split <;> nofun

/-- A step fails exactly if it stops the machine with a fault. -/
theorem ok_step_eq_false_iff : m.step.answer.ok = false ↔ m.faults = true := by
  constructor
  · intro h
    obtain ⟨hready, -, hfaulted⟩ := step_failed h
    simp [faults, isReady_iff.2 hready, next, hfaulted.state]
  · intro h
    obtain ⟨hready, hstate⟩ := Bool.and_eq_true_iff.1 h
    have hstate : m.step.machine.state = .faulted := of_decide_eq_true hstate
    cases ha : Memory.index? m.registers.pc.toNat with
    | none => simp [step, hready, ha]
    | some a =>
      rw [step_of_fetched hready ha] at hstate ⊢
      cases he : (m.fetch (m.memory.get a)).effect (m.memory.get a) with
      | error f => simp [executeFetched, he]
      | ok e => exact absurd hstate (state_executeFetched_ne_faulted hready he _)

theorem instructionCount_next (h : m.isReady = true) :
    m.next.instructionCount = m.instructionCount + if m.faultsAtFetch then 0 else 1 := by
  cases ha : Memory.index? m.registers.pc.toNat with
  | none =>
    have hfetch := (faultsAtFetch_iff h).2 ha
    rw [next_of_faultsAtFetch hfetch, if_pos hfetch]
    rfl
  | some a =>
    have hfetch : ¬ m.faultsAtFetch = true := by simp [faultsAtFetch_iff h, ha]
    rw [if_neg hfetch, next, step_of_fetched h ha]
    cases he : (m.fetch (m.memory.get a)).effect (m.memory.get a) with
    | error f =>
      rw [machine_executeFetched_error he]
      rfl
    | ok e =>
      rw [machine_executeFetched_ok he]
      unfold perform
      cases e.assignment? <;> cases e.halts <;> rfl

/-- Only the last of the steps of a run can fault at the fetch, so all others are counted. -/
theorem instructionCount_iterate {n : Nat} (h : ∀ i < n, (next^[i] m).isReady = true) :
    (next^[n] m).instructionCount =
      m.instructionCount + if 0 < n ∧ (next^[n - 1] m).faultsAtFetch then n - 1 else n := by
  induction n with
  | zero => rfl
  | succ n ih =>
    have hready := h n (Nat.lt_succ_self n)
    have hbefore : ¬ (0 < n ∧ (next^[n - 1] m).faultsAtFetch = true) := by
      rintro ⟨hn, hfetch⟩
      obtain ⟨k, rfl⟩ := Nat.exists_eq_succ_of_ne_zero (Nat.pos_iff_ne_zero.1 hn)
      rw [Nat.succ_sub_one] at hfetch
      rw [Function.iterate_succ_apply', next_of_faultsAtFetch hfetch] at hready
      cases hready
    have hcount := ih fun i hi => h i (Nat.lt_succ_of_lt hi)
    rw [if_neg hbefore] at hcount
    rw [Function.iterate_succ_apply', instructionCount_next hready, hcount, Nat.add_sub_cancel]
    by_cases hfetch : (next^[n] m).faultsAtFetch = true
    · simp [hfetch]
    · simp [hfetch, Nat.add_assoc]

def stepsWithin (m : Machine) : Nat → Nat
  | 0 => 0
  | n + 1 => if m.isReady then m.next.stepsWithin n + 1 else 0

theorem stepsWithin_le (m : Machine) (n : Nat) : m.stepsWithin n ≤ n := by
  induction n generalizing m with
  | zero => exact Nat.le_refl 0
  | succ n ih =>
    rw [stepsWithin]
    split
    · exact Nat.succ_le_succ (ih m.next)
    · exact Nat.zero_le _

theorem isReady_of_lt_stepsWithin {n i : Nat} (h : i < m.stepsWithin n) :
    (next^[i] m).isReady = true := by
  induction n generalizing m i with
  | zero => cases h
  | succ n ih =>
    by_cases hready : m.isReady = true
    · rw [stepsWithin, if_pos hready] at h
      cases i with
      | zero => exact hready
      | succ i => exact ih (m := m.next) (Nat.lt_of_succ_lt_succ h)
    · rw [stepsWithin, if_neg hready] at h
      cases h

theorem not_ready_of_stepsWithin_lt {n : Nat} (h : m.stepsWithin n < n) :
    (next^[m.stepsWithin n] m).state ≠ .ready := by
  induction n generalizing m with
  | zero => cases h
  | succ n ih =>
    by_cases hready : m.isReady = true
    · rw [stepsWithin, if_pos hready] at h ⊢
      exact ih (Nat.lt_of_succ_lt_succ h)
    · rw [stepsWithin, if_neg hready]
      exact fun hstate => hready (isReady_iff.2 hstate)

/-- A run makes as many steps as its bound and the machine allow. -/
theorem stepsWithin_eq_min (m : Machine) (n : Nat) :
    (m.stepsWithin n : ℕ∞) = min (n : ℕ∞) m.stepsToStop := by
  apply le_antisymm
  · apply le_min (Nat.cast_le.2 (m.stepsWithin_le n))
    apply le_iInf₂
    intro k hk
    refine Nat.cast_le.2 (Nat.le_of_not_lt fun hlt => hk ?_)
    exact isReady_iff.1 (isReady_of_lt_stepsWithin hlt)
  · rcases Nat.lt_or_eq_of_le (m.stepsWithin_le n) with hlt | heq
    · have hstop : m.stepsToStop ≤ m.stepsWithin n :=
        iInf₂_le (m.stepsWithin n) (not_ready_of_stepsWithin_lt hlt)
      exact (min_le_right _ _).trans hstop
    · rw [heq]
      exact min_le_left _ _

namespace Progress

theorem proceed_eq_iterate (p : Progress) (n : Nat) :
    p.proceed n = advance^[p.machine.stepsWithin n] p := by
  induction n generalizing p with
  | zero => rfl
  | succ n ih =>
    rw [proceed, stepsWithin]
    split
    · rw [ih]
      rfl
    · rfl

variable (p : Progress) (n : Nat)

theorem machine_iterate : (advance^[n] p).machine = next^[n] p.machine := by
  induction n generalizing p with
  | zero => rfl
  | succ n ih => exact ih p.advance

theorem steps_iterate : (advance^[n] p).steps = p.steps + n := by
  induction n with
  | zero => rfl
  | succ n ih =>
    rw [Function.iterate_succ_apply', ← Nat.add_assoc, ← ih]
    rfl

theorem trace_iterate :
    (advance^[n] p).trace.toList = p.trace.toList ++ p.machine.traceOf n := by
  induction n with
  | zero => simp [traceOf]
  | succ n ih =>
    rw [Function.iterate_succ_apply', traceOf, List.range_succ, List.flatMap_append,
      ← List.append_assoc, ← traceOf, ← ih, List.flatMap_singleton, ← machine_iterate]
    exact Array.toList_appendList

theorem last_iterate : (advance^[n + 1] p).last = (next^[n] p.machine).step.answer := by
  rw [Function.iterate_succ_apply', ← machine_iterate]
  rfl

theorem lookup_steps_step (m : Machine) : m.step.answer.details.lookup "steps" = none := by
  unfold step executeFetched
  simp only
  split
  · rfl
  · split
    · split <;> rfl
    · rfl

theorem lookup_steps_answer :
    (advance^[n] (start m)).answer.details.lookup "steps" = some (.number n) := by
  have hsteps : (advance^[n] (start m)).steps = n := by
    rw [steps_iterate]
    exact Nat.zero_add n
  unfold answer
  rw [hsteps]
  split
  · next hfailed =>
    cases n with
    | zero => exact absurd hfailed (by simp [start])
    | succ n =>
      rw [last_iterate, List.lookup_append, lookup_steps_step]
      rfl
  · rfl

end Progress

theorem machine_run (m : Machine) (n : Int) :
    (m.run n).machine = next^[m.stepsWithin n.toNat] m := by
  rw [run, Progress.proceed_eq_iterate]
  exact Progress.machine_iterate _ _

theorem trace_run (m : Machine) (n : Int) :
    (m.run n).trace = m.traceOf (m.stepsWithin n.toNat) := by
  rw [run, Progress.proceed_eq_iterate]
  exact (Progress.trace_iterate _ _).trans (List.nil_append _)

theorem lookup_steps_run (m : Machine) (n : Int) :
    (m.run n).answer.details.lookup "steps" = some (.number (m.stepsWithin n.toNat)) := by
  rw [run, Progress.proceed_eq_iterate]
  exact Progress.lookup_steps_answer _

theorem ok_run_eq_false_iff {n : Int} :
    (m.run n).answer.ok = false ↔
      0 < m.stepsWithin n.toNat ∧ (next^[m.stepsWithin n.toNat - 1] m).faults = true := by
  rw [run, Progress.proceed_eq_iterate, Progress.ok_answer]
  change (Progress.advance^[m.stepsWithin n.toNat] _).last.ok = false ↔ _
  cases m.stepsWithin n.toNat with
  | zero => simp [Progress.start]
  | succ k =>
    rw [Progress.last_iterate, ok_step_eq_false_iff]
    exact (and_iff_right (Nat.succ_pos k)).symm

/-- The steps of one run go on where those of another one have ended. -/
theorem stepsWithin_add (m : Machine) (a b : Nat) :
    m.stepsWithin (a + b) =
      m.stepsWithin a + (next^[m.stepsWithin a] m).stepsWithin b := by
  have h := congrArg Progress.steps (Progress.proceed_add a b (.start m))
  simp only [Progress.proceed_eq_iterate, Progress.steps_iterate, Progress.machine_iterate] at h
  simpa [Progress.start] using h

theorem traceOf_add (m : Machine) (a b : Nat) :
    m.traceOf (a + b) = m.traceOf a ++ (next^[a] m).traceOf b := by
  simp only [traceOf, List.range_add, List.flatMap_append, List.flatMap_map,
    ← Function.iterate_add_apply]
  simp only [Nat.add_comm]

/-- Two runs in a row do what one run does that may make the steps of both. A run is a number of
calls of `step`: as many as its bound and the machine allow. It fails exactly if the last of them
faults, and it counts all of them but one that faults at the fetch. -/
theorem runs_compose (m : Machine) :
    (∀ a b : Nat,
      let first := m.run a
      let second := first.machine.run b
      let whole := m.run (a + b)
      second.machine = whole.machine ∧
      first.trace ++ second.trace = whole.trace ∧
      ∃ j k : Nat, first.answer.details.lookup "steps" = some (.number j) ∧
        second.answer.details.lookup "steps" = some (.number k) ∧
        whole.answer.details.lookup "steps" = some (.number (j + k))) ∧
    ∀ n : Int, ∃ steps : Nat,
      (m.run n).answer.details.lookup "steps" = some (.number steps) ∧
      (steps : ℕ∞) = min (n.toNat : ℕ∞) m.stepsToStop ∧
      (m.run n).machine = next^[steps] m ∧
      (m.run n).trace = m.traceOf steps ∧
      ((m.run n).answer.ok = false ↔ 0 < steps ∧ (next^[steps - 1] m).faults = true) ∧
      (m.run n).machine.instructionCount = m.instructionCount +
        if 0 < steps ∧ (next^[steps - 1] m).faultsAtFetch then steps - 1 else steps := by
  constructor
  · intro a b first second whole
    -- A run is iterated steps, and the steps of the two runs add up.
    have hwhole := m.stepsWithin_add a b
    have hfirst : first.machine = next^[m.stepsWithin a] m := m.machine_run a
    rw [← hfirst] at hwhole
    refine ⟨?_, ?_, m.stepsWithin a, first.machine.stepsWithin b, m.lookup_steps_run a,
      first.machine.lookup_steps_run b, ?_⟩
    · calc second.machine = next^[first.machine.stepsWithin b] first.machine :=
            first.machine.machine_run b
        _ = next^[m.stepsWithin (a + b)] m := by
            rw [hwhole, Nat.add_comm, Function.iterate_add_apply, ← hfirst]
        _ = whole.machine := (m.machine_run (a + b)).symm
    · calc first.trace ++ second.trace
          = m.traceOf (m.stepsWithin a) ++ first.machine.traceOf (first.machine.stepsWithin b) :=
            congrArg₂ (· ++ ·) (m.trace_run a) (first.machine.trace_run b)
        _ = m.traceOf (m.stepsWithin (a + b)) := by rw [hwhole, traceOf_add, ← hfirst]
        _ = whole.trace := (m.trace_run (a + b)).symm
    · rw [← Int.natCast_add, ← hwhole]
      exact m.lookup_steps_run (a + b)
  · intro n
    refine ⟨m.stepsWithin n.toNat, m.lookup_steps_run n, m.stepsWithin_eq_min n.toNat,
      m.machine_run n, m.trace_run n, ok_run_eq_false_iff, ?_⟩
    rw [machine_run]
    exact instructionCount_iterate fun i hi => isReady_of_lt_stepsWithin hi

end WordMachine.Machine
