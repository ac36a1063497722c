import WordMachine.Machine.Run
import WordMachine.Proofs.Machine.Execution
import WordMachine.Proofs.Results

namespace WordMachine

namespace Kind

theorem name_ne_empty (k : Kind) : k.name ≠ "" := by
  cases k <;> decide

theorem name_injective {k l : Kind} (h : k.name = l.name) : k = l := by
  cases k <;> cases l <;> first | rfl | exact absurd h (by decide)

end Kind

namespace Status

variable {α : Type} {command message : String} {details : List (String × α)}

@[simp] theorem ok_done : (done command message details).ok = true := rfl

@[simp] theorem ok_failed {kind? : Option String} :
    (failed command kind? message details).ok = false := rfl

@[simp] theorem kind?_failed_name (k : Kind) :
    (failed command (some k.name) message details).kind? = some k.name := by
  simp only [failed, if_neg k.name_ne_empty]

@[simp] theorem ok_ofCause {cause : Cause} : (ofCause command cause details).ok = false := rfl

@[simp] theorem kind?_ofCause {cause : Cause} :
    (ofCause command cause details).kind? = some cause.kind.name :=
  kind?_failed_name cause.kind

end Status

theorem Memory.inRange_eq_error {a : Int} {cause : Cause} :
    inRange a = .error cause ↔ index? a = none ∧ cause = .memoryRange a := by
  unfold inRange
  cases index? a with
  | some i => simp
  | none => simp [eq_comm]

namespace Machine

variable {m n : Machine} {w : Word}

/-- The second machine has the memory and the condition code of the first one, and what the operator
has set in it. -/
structure Keeps (m n : Machine) : Prop where
  memory : n.memory = m.memory
  cc : n.registers.read .cc = m.registers.read .cc
  debug : n.debug = m.debug
  filename : n.filename = m.filename
  maxSteps : n.maxSteps = m.maxSteps

namespace Keeps

theorem refl (m : Machine) : Keeps m m := ⟨rfl, rfl, rfl, rfl, rfl⟩

theorem trans {k : Machine} (h : Keeps m n) (h' : Keeps n k) : Keeps m k where
  memory := h'.memory.trans h.memory
  cc := h'.cc.trans h.cc
  debug := h'.debug.trans h.debug
  filename := h'.filename.trans h.filename
  maxSteps := h'.maxSteps.trans h.maxSteps

theorem write (m : Machine) {r : Register} (hr : r ≠ .cc) (v : Int) : Keeps m (m.write r v) :=
  ⟨rfl, Registers.read_write_of_ne m.registers v hr, rfl, rfl, rfl⟩

theorem fault (m : Machine) (code : FaultCode) : Keeps m (m.fault code) :=
  ⟨rfl, read_fault_of_ne m code nofun, rfl, rfl, rfl⟩

theorem fetch (m : Machine) (w : Word) : Keeps m (m.fetch w) :=
  ⟨rfl, read_fetch m w .cc, rfl, rfl, rfl⟩

theorem perform (m : Machine) {e : Effect}
    (hopen : ∀ r v, e.assignment? = some (r, v) → r.IsOpen) : Keeps m (m.perform e) := by
  obtain ⟨n, hn, heq⟩ : ∃ n : Machine, Keeps m n ∧
      m.perform e = if e.halts then { n with state := .halted } else n := by
    unfold Machine.perform
    cases ha : e.assignment? with
    | none => exact ⟨m, refl m, rfl⟩
    | some assignment =>
      have hr : assignment.1 ≠ .cc := by
        intro hcc
        have hr : assignment.1.IsOpen := hopen _ _ ha
        rw [hcc] at hr
        exact hr
      exact ⟨m.write assignment.1 assignment.2, write m hr _, rfl⟩
  rw [heq]
  split
  · exact ⟨hn.memory, hn.cc, hn.debug, hn.filename, hn.maxSteps⟩
  · exact hn

theorem executeFetched (m : Machine) (address : Nat) (w : Word) :
    Keeps m (m.executeFetched address w).machine := by
  have hfetch := fetch m w
  cases he : (m.fetch w).effect w with
  | error f =>
    rw [machine_executeFetched_error he]
    exact hfetch.trans (fault _ f.code)
  | ok e =>
    rw [machine_executeFetched_ok he]
    exact hfetch.trans (perform _ (effect_eq_ok he).2)

theorem step (m : Machine) : Keeps m m.step.machine := by
  unfold Machine.step
  simp only
  split
  · exact refl m
  · split
    · exact executeFetched m _ _
    · exact (write m (by decide) _).trans (fault _ .addressRange)

/-- However many steps are made, they keep what each of them keeps. -/
theorem proceed (p : Progress) (k : Nat) : Keeps p.machine (p.proceed k).machine := by
  induction k generalizing p with
  | zero => exact refl p.machine
  | succ k ih =>
    rw [Progress.proceed]
    split
    · exact (step p.machine).trans (ih p.advance)
    · exact refl p.machine

theorem run (m : Machine) (k : Int) : Keeps m (m.run k).machine := proceed (.start m) k.toNat

end Keeps

/-- The machine has stopped with one of the two fault codes. -/
structure Faulted (m : Machine) : Prop where
  state : m.state = .faulted
  mfr : m.registers.read .mfr ∈ [FaultCode.illegalOperation.value, FaultCode.addressRange.value]

theorem faulted_fault (m : Machine) (code : FaultCode) : (m.fault code).Faulted where
  state := rfl
  mfr := by
    rw [read_fault_mfr]
    cases code <;> decide

theorem kind_of_effectiveAddress {f : Fields} {indexed : Bool} {cause : Cause}
    (h : m.effectiveAddress f indexed = .error cause) : cause.kind = .runtime := by
  unfold effectiveAddress at h
  simp only at h
  split at h
  · -- With indirection memory has to have the address that is read from, too.
    obtain hread | ⟨a, -, hfind⟩ := bind_eq_error.1 h
    · obtain ⟨-, rfl⟩ := Memory.inRange_eq_error.1 (map_eq_error.1 (map_eq_error.1 hread))
      rfl
    · split at hfind
      · cases hfind
      · cases hfind
        rfl
  · simp only [bind, Except.bind] at h
    split at h
    · cases h
    · cases h
      rfl

theorem kind_of_addressing {f : Fields} {indexed : Bool} {effect : Fin memorySize → Effect}
    {fault : Fault} (h : m.addressing f indexed effect = .error fault) :
    fault.cause.kind = .runtime := by
  unfold addressing at h
  split at h
  · cases h
  · next cause hc =>
    cases h
    exact kind_of_effectiveAddress hc

theorem kind_of_effect {f : Fault} (h : m.effect w = .error f) : f.cause.kind = .runtime := by
  unfold effect at h
  simp only at h
  split at h
  · cases h
  · exact kind_of_addressing h
  · exact kind_of_addressing h
  · exact kind_of_addressing h
  · split at h
    · cases h
      rfl
    · exact kind_of_addressing h
  · cases h
    rfl

/-- A step that fails was made by a ready machine and leaves it faulted. -/
theorem step_failed (h : m.step.answer.ok = false) :
    m.state = .ready ∧ m.step.answer.kind? = some Kind.runtime.name ∧ m.step.machine.Faulted := by
  unfold step at h ⊢
  simp only at h ⊢
  split at h
  · simp at h
  · next hready =>
    have hready : m.state = .ready := by simpa [isReady] using hready
    simp only [hready, isReady, decide_true, Bool.not_true, Bool.false_eq_true, if_false]
    refine ⟨trivial, ?_⟩
    split at h
    · next a ha =>
      cases he : (m.fetch (m.memory.get a)).effect (m.memory.get a) with
      | ok e => simp [executeFetched, he] at h
      | error f =>
        rw [machine_executeFetched_error he]
        refine ⟨?_, faulted_fault _ f.code⟩
        simp only [executeFetched, he, Status.kind?_ofCause, kind_of_effect he]
    · exact ⟨rfl, faulted_fault _ .addressRange⟩

namespace Progress

def Sound (p : Progress) : Prop :=
  p.last.ok = false → p.last.kind? = some Kind.runtime.name ∧ p.machine.Faulted

theorem sound_start (m : Machine) : (start m).Sound := nofun

theorem sound_advance (p : Progress) : p.advance.Sound := fun h => (step_failed h).2

theorem sound_proceed {p : Progress} (h : p.Sound) (k : Nat) : (p.proceed k).Sound := by
  induction k generalizing p with
  | zero => exact h
  | succ k ih =>
    rw [proceed]
    split
    · exact ih p.sound_advance
    · exact h

theorem ok_answer (p : Progress) : p.answer.ok = p.last.ok := by
  unfold answer
  cases h : p.last.ok with
  | false => simpa using h
  | true => simp

theorem proceed_of_not_ready {p : Progress} (h : p.machine.isReady = false) (k : Nat) :
    p.proceed k = p := by
  cases k with
  | zero => rfl
  | succ k => rw [proceed, h, if_neg (by decide)]

end Progress

theorem run_failed {k : Int} (h : (m.run k).answer.ok = false) :
    m.state = .ready ∧ (m.run k).answer.kind? = some Kind.runtime.name ∧
      (m.run k).machine.Faulted := by
  have hlast : ((Progress.start m).proceed k.toNat).last.ok = false := by
    rw [← Progress.ok_answer]
    exact h
  obtain ⟨hkind, hfaulted⟩ := Progress.sound_proceed (Progress.sound_start m) k.toNat hlast
  refine ⟨?_, ?_, hfaulted⟩
  · -- A machine that is not ready makes no step, and a run without steps does not fail.
    refine Decidable.not_not.1 fun hready => ?_
    have hnot : (Progress.start m).machine.isReady = false := decide_eq_false hready
    rw [Progress.proceed_of_not_ready hnot] at hlast
    simp [Progress.start] at hlast
  · simpa [run, Progress.answer, hlast] using hkind

end Machine
end WordMachine
