import WordMachine.Proofs.Console.Invariant
import WordMachine.Proofs.Console.Loading
import WordMachine.Proofs.Files.ReadFailure
import WordMachine.Proofs.Machine.Faulting

namespace WordMachine

theorem Status.ofFailure_eq_ok {command : String} {f : Failure} {s : Status Datum}
    (h : Status.ofFailure command f = .ok s) :
    s.ok = false ∧ ∃ cause line?, f = .reported cause line? ∧ s.kind? = some cause.kind.name := by
  cases f with
  | aborted abort => cases h
  | reported cause line? =>
    cases h
    exact ⟨rfl, cause, line?, rfl, Status.kind?_failed_name cause.kind⟩

def CommandName.ofLine? (line : Text) : Option CommandName :=
  (Text.words line).head?.bind read?

/-- A line that names `ipl` and goes on with a path. -/
def GivesPath (line : Text) : Prop :=
  CommandName.ofLine? line = some .ipl ∧ (Text.words line).tail ≠ []

namespace Command

theorem name_of_ofArguments? {name : CommandName} {arguments : List Text} {c : Command}
    (h : ofArguments? name arguments = some c) : c.name = name := by
  unfold ofArguments? at h
  split at h <;> cases h <;> rfl

theorem name_of_read {line : Text} {c : Command} (h : read line = .ok c) :
    CommandName.ofLine? line = some c.name := by
  unfold read at h
  unfold CommandName.ofLine?
  split at h
  · cases h
  · next word words hwords =>
    rw [hwords, List.head?_cons, Option.bind_some]
    split at h
    · cases h
    · next name hname =>
      simp only at h
      split at h
      · next hc =>
        cases h
        rw [hname, name_of_ofArguments? hc]
      · cases h

/-- The arguments that a line gives to the command it names: its other words, or all that follows the
first one, blanks included, as the path of an `ipl`. -/
def argumentsOf (line : Text) (name : CommandName) : List Text :=
  if name = .ipl ∧ (Text.words line).tail ≠ [] then [Text.afterFirstWord line]
  else (Text.words line).tail

theorem read_of_ofLine? {line : Text} {name : CommandName}
    (h : CommandName.ofLine? line = some name) :
    read line = match ofArguments? name (argumentsOf line name) with
      | some c => .ok c
      | none => .error ⟨name.name, .argumentCount name.name name.arity.1 name.arity.2
          (argumentsOf line name).length⟩ := by
  unfold CommandName.ofLine? at h
  unfold read argumentsOf
  cases hwords : Text.words line with
  | nil => simp [hwords] at h
  | cons word words =>
    rw [hwords, List.head?_cons, Option.bind_some] at h
    simp only [h, List.tail_cons]
    rfl

theorem read_of_givesPath {line : Text} (h : GivesPath line) :
    read line = .ok (.ipl (Text.afterFirstWord line)) := by
  rw [read_of_ofLine? h.1, argumentsOf, if_pos ⟨rfl, h.2⟩]
  rfl

theorem givesPath_of_read {line path : Text} (h : read line = .ok (.ipl path)) : GivesPath line := by
  have hname : CommandName.ofLine? line = some .ipl := name_of_read h
  refine ⟨hname, fun htail => ?_⟩
  rw [read_of_ofLine? hname, argumentsOf, if_neg (fun hpath => hpath.2 htail), htail] at h
  cases h

end Command

namespace Machine

variable {m : Machine} {o : CommandOutcome} {s : Status Datum}

/-- Memory, registers, state and count are those at power-on. -/
structure Cleared (m : Machine) : Prop where
  memory : m.memory = powerOn.memory
  registers : m.registers = powerOn.registers
  state : m.state = powerOn.state
  instructionCount : m.instructionCount = powerOn.instructionCount

theorem cleared_clear (m : Machine) : m.clear.Cleared := ⟨rfl, rfl, rfl, rfl⟩

/-- A command that leaves the machine as it was if it fails. -/
def Atomic (m : Machine) (o : CommandOutcome) : Prop :=
  ∀ s, o.answer = .ok s → s.ok = false → o.machine = m

theorem refuse_failed {command : String} {cause : Cause}
    (h : (m.refuse command cause).answer = .ok s) : s.kind? = some cause.kind.name := by
  change Status.ofFailure command (.ofCause cause) = .ok s at h
  obtain ⟨-, cause', line?, hcause, hkind⟩ := Status.ofFailure_eq_ok h
  rw [hkind, Failure.ofCause_eq_reported hcause]

theorem atomic_refuse (m : Machine) (command : String) (cause : Cause) :
    Atomic m (m.refuse command cause) := fun _ _ _ => rfl

theorem atomic_of_ok (h : o.answer = .ok s) (hok : s.ok = true) : Atomic m o := by
  intro s' hs' hfailed
  rw [h] at hs'
  cases hs'
  rw [hok] at hfailed
  cases hfailed

theorem atomic_load (m : Machine) : Atomic m m.load := by
  unfold load
  split
  · exact atomic_refuse m _ _
  · exact atomic_of_ok rfl rfl

theorem atomic_store (m : Machine) : Atomic m m.store := by
  unfold store
  simp only
  split
  · exact atomic_refuse m _ _
  · exact atomic_of_ok rfl rfl

theorem Atomic.thenAdvance (h : Atomic m o) (command : String) (touched : List String) :
    Atomic m (thenAdvance o command touched) := by
  unfold Machine.thenAdvance
  split
  · split
    · next hok => exact atomic_of_ok rfl hok
    · exact h
  · exact h

theorem atomic_loadNext (m : Machine) : Atomic m m.loadNext := by
  unfold loadNext
  exact (atomic_load m).thenAdvance _ _

theorem atomic_storeNext (m : Machine) : Atomic m m.storeNext := by
  unfold storeNext
  exact (atomic_store m).thenAdvance _ _

theorem atomic_setRegister (m : Machine) (target : Text) (value : NumberArgument) :
    Atomic m (m.setRegister target value) := by
  unfold setRegister
  split
  · exact atomic_refuse m _ _
  · split
    · exact atomic_refuse m _ _
    · exact atomic_of_ok rfl rfl

theorem machine_dump (m : Machine) (start? stop? : Option NumberArgument) :
    (m.dump start? stop?).machine = m := by
  unfold dump
  split <;> rfl

theorem loadImage_failed {records : LoadImage} {start? : Option Int}
    (h : (m.loadImage records start?).answer = .ok s) (hok : s.ok = false) :
    s.kind? = some Kind.loadFile.name ∧ (m.loadImage records start?).machine.Cleared := by
  unfold loadImage at h ⊢
  simp only [Memory.ofRecords_eq] at h ⊢
  cases hfind : records.find? LoadRecord.isBeyond with
  | none =>
    simp only [hfind] at h
    cases h
    cases hok
  | some r =>
    simp only [hfind] at h ⊢
    exact ⟨refuse_failed h, cleared_clear m⟩

theorem loadFile_failed {files : FileTree} {path : Text}
    (h : (m.loadFile files path).answer = .ok s) (hok : s.ok = false) :
    (s.kind? = some Kind.io.name ∨ s.kind? = some Kind.loadFile.name) ∧
      (m.loadFile files path).machine.Cleared := by
  unfold loadFile at h ⊢
  cases hread : LoadImage.ofFile files path with
  | ok records =>
    simp only [hread] at h ⊢
    obtain ⟨hkind, hcleared⟩ := loadImage_failed h hok
    exact ⟨.inr hkind, hcleared⟩
  | error f =>
    simp only [hread] at h ⊢
    refine ⟨?_, cleared_clear m⟩
    obtain ⟨-, cause, line?, rfl, hkind⟩ := Status.ofFailure_eq_ok h
    have hpath : '\x00' ∉ path := by
      intro hnull
      rw [LoadImage.ofFile_of_null hnull] at hread
      cases hread
    obtain ⟨cause', line'?, hreported, hio | hload⟩ := LoadImage.ofFile_eq_error hpath hread
    · cases hreported
      exact .inl (hio ▸ hkind)
    · cases hreported
      exact .inr (hload ▸ hkind)

/-- A machine that was ready has stopped with a fault and has its memory and its condition code. -/
structure StoppedBy (m n : Machine) : Prop where
  ready : m.state = .ready
  faulted : n.Faulted
  memory : n.memory = m.memory
  cc : n.registers.read .cc = m.registers.read .cc

theorem stepLimit_eq_error {count? : Option NumberArgument} {cause : Cause}
    (h : m.stepLimit count? = .error cause) : ∃ t, cause = .badStepCount t := by
  unfold stepLimit at h
  split at h
  · cases h
  · cases h
  · next t =>
    obtain ⟨-, -, rfl⟩ := mapError_eq_error.1 h
    exact ⟨t, rfl⟩

/-- A command that is no `ipl` fails with a fault while it steps or runs, or else leaves the machine
as it was. -/
theorem command_failed {files : FileTree} {c : Command} (hipl : c.name ≠ .ipl)
    (h : (m.command files c).answer = .ok s) (hok : s.ok = false) :
    if (c.name = .step ∨ c.name = .run) ∧ s.kind? = some Kind.runtime.name then
      m.StoppedBy (m.command files c).machine
    else (m.command files c).machine = m := by
  -- All commands but a step and a run leave the machine as it was when they fail.
  have hatomic (hname : c.name ≠ .step ∧ c.name ≠ .run) (h : (m.command files c).machine = m) :
      if (c.name = .step ∨ c.name = .run) ∧ s.kind? = some Kind.runtime.name then
        m.StoppedBy (m.command files c).machine
      else (m.command files c).machine = m := by
    rw [if_neg (by simp [hname])]
    exact h
  cases c with
  | ipl path => exact absurd rfl hipl
  | step =>
    cases h
    obtain ⟨hready, hkind, hfaulted⟩ := step_failed hok
    have hkeeps := Keeps.step m
    rw [if_pos ⟨.inl rfl, hkind⟩]
    exact ⟨hready, hfaulted, hkeeps.memory, hkeeps.cc⟩
  | run count? =>
    simp only [command] at h ⊢
    cases hlimit : m.stepLimit count? with
    | error cause =>
      simp only [hlimit] at h ⊢
      -- The number of steps is refused, so the run has not begun.
      have hkind : s.kind? ≠ some Kind.runtime.name := by
        obtain ⟨t, rfl⟩ := stepLimit_eq_error hlimit
        rw [refuse_failed h]
        exact show some Kind.command.name ≠ some Kind.runtime.name by decide
      rw [if_neg (fun hruntime => hkind hruntime.2)]
      rfl
    | ok n =>
      simp only [hlimit] at h ⊢
      cases h
      obtain ⟨hready, hkind, hfaulted⟩ := run_failed hok
      have hkeeps := Keeps.run m n
      rw [if_pos ⟨.inr rfl, hkind⟩]
      exact ⟨hready, hfaulted, hkeeps.memory, hkeeps.cc⟩
  | load => exact hatomic (by decide) (atomic_load m s h hok)
  | loadNext => exact hatomic (by decide) (atomic_loadNext m s h hok)
  | store => exact hatomic (by decide) (atomic_store m s h hok)
  | storeNext => exact hatomic (by decide) (atomic_storeNext m s h hok)
  | set target value =>
    exact hatomic (by simp [Command.name]) (atomic_setRegister m target value s h hok)
  | dump start? stop? => exact hatomic (by simp [Command.name]) (machine_dump m start? stop?)
  | reset | regs | debug =>
    cases h
    cases hok

/-- What a command line leaves that fails: a machine as at power-on if it gives a path to `ipl`, a
faulted one if it steps or runs into a fault, and the machine as it was in every other case. -/
theorem execute_failed {files : FileTree} {line : Text}
    (h : (m.execute files line).answer = .ok s) (hok : s.ok = false) :
    (GivesPath line →
      (s.kind? = some Kind.io.name ∨ s.kind? = some Kind.loadFile.name) ∧
        (m.execute files line).machine.Cleared) ∧
    ((CommandName.ofLine? line = some .step ∨ CommandName.ofLine? line = some .run) ∧
        s.kind? = some Kind.runtime.name →
      m.StoppedBy (m.execute files line).machine) ∧
    (¬ GivesPath line →
      ¬((CommandName.ofLine? line = some .step ∨ CommandName.ofLine? line = some .run) ∧
        s.kind? = some Kind.runtime.name) →
      (m.execute files line).machine = m) := by
  unfold execute at h ⊢
  cases hread : Command.read line with
  | error refusal =>
    simp only [hread] at h ⊢
    cases h
    refine ⟨fun hpath => ?_, fun hruntime => ?_, fun _ _ => trivial⟩
    · rw [Command.read_of_givesPath hpath] at hread
      cases hread
    · -- A line that is no command is not one of running.
      rw [Status.kind?_failed_name, Option.some.injEq] at hruntime
      exact absurd (Kind.name_injective hruntime.2) (by decide)
  | ok c =>
    simp only [hread] at h ⊢
    have hname := Command.name_of_read hread
    by_cases hpath : GivesPath line
    · rw [Command.read_of_givesPath hpath] at hread
      cases hread
      refine ⟨fun _ => loadFile_failed h hok, ?_, fun hnot => absurd hpath hnot⟩
      intro hruntime
      rw [hname] at hruntime
      exact absurd hruntime.1 (by simp [Command.name])
    · have hipl : c.name ≠ .ipl := by
        intro hipl
        cases c <;> cases hipl
        exact hpath (Command.givesPath_of_read hread)
      have hfailed := command_failed hipl h hok
      simp only [hname, Option.some.injEq]
      refine ⟨fun hgives => absurd hgives hpath, fun hruntime => ?_, fun _ hother => ?_⟩
      · rwa [if_pos hruntime] at hfailed
      · rwa [if_neg hother] at hfailed

def illegalStart : Machine :=
  powerOn.after [.line ⟨[], []⟩ "set MBR 004000".toList, .line ⟨[], []⟩ "store".toList]

theorem illegalStart_run_failed :
    ∃ s, (illegalStart.execute ⟨[], []⟩ "RUN 5".toList).answer = .ok s ∧ s.ok = false ∧
      illegalStart.StoppedBy (illegalStart.execute ⟨[], []⟩ "RUN 5".toList).machine := by
  refine ⟨_, rfl, rfl, ?_⟩
  have h := @execute_failed illegalStart _ ⟨[], []⟩ "RUN 5".toList rfl rfl
  exact h.2.1 ⟨.inr (by decide), rfl⟩

end Machine
end WordMachine
