import WordMachine.Proofs.Console.Failing
import WordMachine.Proofs.Machine.Running

namespace WordMachine.Machine

variable {m n : Machine}

namespace Action

/-- The command that an action carries out. A line that is refused carries out none, and records are
loaded without one. -/
def command? : Action → Option Command
  | line _ text => (Command.read text).toOption
  | command _ c => some c
  | file _ path => some (.ipl path)
  | image .. => none

/-- The name of what an action carries out. To load records is an `ipl`. -/
def name? : Action → Option CommandName
  | image .. => some .ipl
  | action => action.command?.map Command.name

/-- The action clears the machine, whatever comes of it. A line that gives `ipl` no path is refused
and does not count. -/
def Restarts (action : Action) : Prop := action.name? = some .reset ∨ action.name? = some .ipl

theorem name?_of_command? {action : Action} {c : Command} (h : action.command? = some c) :
    action.name? = some c.name := by
  cases action with
  | image records start? => cases h
  | line files text => exact congrArg (Option.map Command.name) h
  | command files c => exact congrArg (Option.map Command.name) h
  | file files path => exact congrArg (Option.map Command.name) h

end Action

theorem act_of_command? {action : Action} {c : Command} (h : action.command? = some c)
    (m : Machine) :
    ∃ files, m.act action = m.command files c := by
  cases action with
  | line files text =>
    refine ⟨files, ?_⟩
    rw [act, execute, toOption_eq_some.1 h]
  | command files c' =>
    cases h
    exact ⟨files, rfl⟩
  | file files path =>
    cases h
    exact ⟨files, rfl⟩
  | image records start? => cases h

/-- An action carries out a command, or loads records, or is refused and leaves the machine as it
is. -/
theorem act_cases (m : Machine) (action : Action) :
    (∃ c files, action.name? = some c.name ∧ m.act action = m.command files c) ∨
      (∃ records start?, action = .image records start?) ∨
      (action.name? = none ∧ (m.act action).machine = m) := by
  cases hc : action.command? with
  | some c =>
    obtain ⟨files, hact⟩ := act_of_command? hc m
    exact .inl ⟨c, files, Action.name?_of_command? hc, hact⟩
  | none =>
    right
    cases action with
    | image records start? => exact .inl ⟨records, start?, rfl⟩
    | command files c => cases hc
    | file files path => cases hc
    | line files text =>
      refine .inr ⟨congrArg (Option.map Command.name) hc, ?_⟩
      obtain ⟨refusal, hread⟩ := toOption_eq_none.1 hc
      rw [act, execute, hread]

/-- The second machine is the first one after the operator has adjusted it by hand: open registers,
what the operator sets and, if words are `stored`, memory. -/
structure Adjusted (stored : Prop) (m n : Machine) : Prop where
  state : n.state = m.state
  instructionCount : n.instructionCount = m.instructionCount
  closed (r : Register) (h : ¬ r.IsOpen) : n.registers.read r = m.registers.read r
  memory (h : ¬ stored) : n.memory = m.memory

namespace Adjusted

variable {stored : Prop}

theorem refl (m : Machine) : Adjusted stored m m := ⟨rfl, rfl, fun _ _ => rfl, fun _ => rfl⟩

theorem trans {k : Machine} (h : Adjusted stored m n) (h' : Adjusted stored n k) :
    Adjusted stored m k where
  state := h'.state.trans h.state
  instructionCount := h'.instructionCount.trans h.instructionCount
  closed r hr := (h'.closed r hr).trans (h.closed r hr)
  memory hs := (h'.memory hs).trans (h.memory hs)

theorem write (m : Machine) {r : Register} (hr : r.IsOpen) (v : Int) :
    Adjusted stored m (m.write r v) where
  state := rfl
  instructionCount := rfl
  closed q hq := Registers.read_write_of_ne m.registers v (by rintro rfl; exact hq hr)
  memory _ := rfl

theorem load (m : Machine) : Adjusted stored m m.load.machine := by
  unfold Machine.load
  split
  · exact refl m
  · exact write m (r := .mbr) trivial _

theorem store (hstored : stored) (m : Machine) : Adjusted stored m m.store.machine := by
  unfold Machine.store
  simp only
  split
  · exact refl m
  · exact ⟨rfl, rfl, fun _ _ => rfl, fun h => absurd hstored h⟩

theorem thenAdvance {o : CommandOutcome} (h : Adjusted stored m o.machine) (command : String)
    (touched : List String) : Adjusted stored m (thenAdvance o command touched).machine := by
  unfold Machine.thenAdvance
  split
  · split
    · exact h.trans (write o.machine (r := .mar) trivial _)
    · exact h
  · exact h

theorem setRegister (m : Machine) (target : Text) (value : NumberArgument) :
    Adjusted stored m (m.setRegister target value).machine := by
  unfold Machine.setRegister
  split
  · exact refl m
  · next r hr =>
    split
    · exact refl m
    · exact write m (Register.isOpen_of_settable? hr) _

/-- All commands adjust the machine but the four that clear it or make it go. -/
theorem command (m : Machine) (files : FileTree) {c : Command}
    (h : c.name ∉ [.ipl, .reset, .step, .run]) :
    Adjusted (c.name = .store ∨ c.name = .storeNext) m (m.command files c).machine := by
  cases c with
  | ipl path => simp [Command.name] at h
  | reset => simp [Command.name] at h
  | step => simp [Command.name] at h
  | run count? => simp [Command.name] at h
  | load => exact load m
  | loadNext =>
    rw [Machine.command, Machine.loadNext]
    exact (load m).thenAdvance _ _
  | store => exact store (.inl rfl) m
  | storeNext =>
    rw [Machine.command, Machine.storeNext]
    exact (store (.inr rfl) m).thenAdvance _ _
  | set target value => exact setRegister m target value
  | regs => exact refl m
  | dump start? stop? =>
    rw [Machine.command, machine_dump]
    exact refl m
  | debug => exact ⟨rfl, rfl, fun _ _ => rfl, fun _ => rfl⟩

end Adjusted

theorem command_cases (m : Machine) (files : FileTree) {c : Command} (hreset : c.name ≠ .reset)
    (hipl : c.name ≠ .ipl) :
    c = .step ∨ (∃ count?, c = .run count?) ∨
      Adjusted (c.name = .store ∨ c.name = .storeNext) m (m.command files c).machine := by
  by_cases hstep : c.name = .step
  · cases c <;> cases hstep
    exact .inl rfl
  · by_cases hrun : c.name = .run
    · cases c <;> cases hrun
      exact .inr (.inl ⟨_, rfl⟩)
    · exact .inr (.inr (.command m files (by simp [hreset, hipl, hstep, hrun])))

theorem stepsWithin_of_not_ready (h : m.isReady = false) (n : Nat) : m.stepsWithin n = 0 := by
  cases n with
  | zero => rfl
  | succ n => rw [stepsWithin, h, if_neg Bool.false_ne_true]

theorem machine_run_of_not_ready (h : m.isReady = false) (n : Int) : (m.run n).machine = m := by
  rw [machine_run, stepsWithin_of_not_ready h]
  rfl

theorem isReady_eq_false_iff : m.isReady = false ↔ m.state ≠ .ready := by
  simp [isReady]

/-- Nothing but a reset or an `ipl` changes the state of a stopped machine. -/
theorem adjusted_act_of_stopped (h : m.state ≠ .ready) {action : Action}
    (haction : ¬ action.Restarts) : Adjusted True m (m.act action).machine := by
  have hready := isReady_eq_false_iff.2 h
  rcases act_cases m action with ⟨c, files, hname, hact⟩ | ⟨records, start?, rfl⟩ | ⟨-, hrefused⟩
  · rw [hact]
    simp only [Action.Restarts, hname, Option.some.injEq, not_or] at haction
    rcases command_cases m files haction.1 haction.2 with rfl | ⟨count?, rfl⟩ | hadjusted
    · rw [command, step_of_not_ready hready]
      exact .refl m
    · rw [command]
      split
      · exact .refl m
      · rw [machine_run_of_not_ready hready]
        exact .refl m
    · exact ⟨hadjusted.state, hadjusted.instructionCount, hadjusted.closed, (absurd trivial ·)⟩
  · exact absurd (.inr rfl) haction
  · rw [hrefused]
    exact .refl m

theorem adjusted_after_of_stopped (h : m.state ≠ .ready) {actions : List Action}
    (hactions : ∀ action ∈ actions, ¬ action.Restarts) : Adjusted True m (m.after actions) := by
  induction actions generalizing m with
  | nil => exact .refl m
  | cons action actions ih =>
    obtain ⟨haction, hactions⟩ := List.forall_mem_cons.1 hactions
    have hfirst := adjusted_act_of_stopped h haction
    exact hfirst.trans (ih (hfirst.state ▸ h) hactions)

theorem state_loadImage (m : Machine) (records : LoadImage) (start? : Option Int) :
    (m.loadImage records start?).machine.state = .ready := by
  unfold loadImage
  simp only
  split <;> rfl

theorem state_loadFile (m : Machine) (files : FileTree) (path : Text) :
    (m.loadFile files path).machine.state = .ready := by
  unfold loadFile
  simp only
  split
  · rfl
  · exact state_loadImage _ _ _

theorem state_act_of_restarts {action : Action} (h : action.Restarts) (m : Machine) :
    (m.act action).machine.state = .ready := by
  rcases act_cases m action with ⟨c, files, hname, hact⟩ | ⟨records, start?, rfl⟩ | ⟨hnone, -⟩
  · rw [hact]
    rw [Action.Restarts, hname] at h
    cases c <;> rcases h with h | h <;> cases h
    · exact state_loadFile m files _
    · rfl
  · exact state_loadImage m records start?
  · rw [Action.Restarts, hnone] at h
    rcases h with h | h <;> cases h

theorem name?_of_stops {action : Action} (h : m.state = .ready)
    (hstops : (m.act action).machine.state ≠ .ready) :
    action.name? = some .step ∨ action.name? = some .run := by
  by_cases hrestarts : action.Restarts
  · exact absurd (state_act_of_restarts hrestarts m) hstops
  rcases act_cases m action with ⟨c, files, hname, hact⟩ | ⟨records, start?, rfl⟩ | ⟨-, hrefused⟩
  · simp only [Action.Restarts, hname, Option.some.injEq, not_or] at hrestarts ⊢
    rcases command_cases m files hrestarts.1 hrestarts.2 with rfl | ⟨count?, rfl⟩ | hadjusted
    · exact .inl rfl
    · exact .inr rfl
    · rw [hact, hadjusted.state] at hstops
      exact absurd h hstops
  · exact absurd (.inr rfl) hrestarts
  · rw [hrefused] at hstops
    exact absurd h hstops

/-- A machine that is not ready stays as it has stopped until it is cleared: meanwhile a step answers
that it has halted and a run that it has made no step, and neither changes anything. Only a step or a
run stops a ready machine, and a machine that is cleared is ready. -/
theorem stopped_until_restart :
    (∀ (m : Machine) (actions : List Action), m.state ≠ .ready →
      (∀ action ∈ actions, ¬ action.Restarts) →
      let n := m.after actions
      n.state = m.state ∧
      (∀ r ∈ [Register.ir, .mfr, .cc], n.registers.read r = m.registers.read r) ∧
      n.instructionCount = m.instructionCount ∧
      (∀ action, action.command? = some .step → (n.act action).machine = n ∧
        ∃ s, (n.act action).answer = .ok s ∧ s.ok = true ∧ s.message = "halted") ∧
      ∀ action count? k, action.command? = some (.run count?) → n.stepLimit count? = .ok k →
        (n.act action).machine = n ∧
        ∃ s, (n.act action).answer = .ok s ∧ s.ok = true ∧
          s.details.lookup "steps" = some (.number 0)) ∧
    (∀ (m : Machine) (action : Action), m.state = .ready → (m.act action).machine.state ≠ .ready →
      action.name? = some .step ∨ action.name? = some .run) ∧
    ∀ (m : Machine) (action : Action), action.Restarts → (m.act action).machine.state = .ready := by
  refine ⟨fun m actions hstopped hactions => ?_, fun m action => name?_of_stops,
    fun m action hrestarts => state_act_of_restarts hrestarts m⟩
  intro n
  -- None of the actions clears the machine, so they only adjust it.
  have hadjusted : Adjusted True m n := adjusted_after_of_stopped hstopped hactions
  have hready : n.isReady = false := isReady_eq_false_iff.2 (hadjusted.state ▸ hstopped)
  refine ⟨hadjusted.state, fun r hr => hadjusted.closed r ?_, hadjusted.instructionCount, ?_, ?_⟩
  · have hclosed : ∀ q ∈ [Register.ir, .mfr, .cc], ¬ q.IsOpen := by simp [Register.IsOpen]
    exact hclosed r hr
  · intro action hstep
    obtain ⟨files, hact⟩ := act_of_command? hstep n
    rw [hact, command, step_of_not_ready hready]
    exact ⟨rfl, _, rfl, rfl, rfl⟩
  · intro action count? k hrun hlimit
    obtain ⟨files, hact⟩ := act_of_command? hrun n
    have hnone := stepsWithin_of_not_ready hready k.toNat
    have hsteps := n.lookup_steps_run k
    have hok : (n.run k).answer.ok = true := by
      simp [← Bool.not_eq_false, ok_run_eq_false_iff, hnone]
    rw [hact, command, hlimit]
    rw [hnone] at hsteps
    exact ⟨machine_run_of_not_ready hready k, _, rfl, hok, hsteps⟩

def attempts : List Action :=
  ["set PC 0", "set MBR 0x0400", "store+", "ipl", "run 3"].map fun line =>
    .line ⟨[], []⟩ line.toList

/-- Neither a new program nor a run takes the fault back, but a reset does. -/
theorem illegalStart_stays_faulted :
    let faulted := (illegalStart.act (.line ⟨[], []⟩ "run 5".toList)).machine
    let n := faulted.after attempts
    n.state = .faulted ∧ n.registers.read .mfr = 4 ∧ n.instructionCount = 1 ∧
      (n.execute ⟨[], []⟩ "step".toList).machine = n ∧
      (n.act (.line ⟨[], []⟩ "reset".toList)).machine.state = .ready := by
  intro faulted n
  have hstopped : faulted.state ≠ .ready := by
    rw [show faulted.state = .faulted from rfl]
    decide
  have hattempts : ∀ action ∈ attempts, ¬ action.Restarts := by
    unfold Action.Restarts
    decide
  obtain ⟨hstays, -, hrestart⟩ := stopped_until_restart
  obtain ⟨hstate, hregisters, hcount, hstep, -⟩ := hstays faulted attempts hstopped hattempts
  have hmfr := hregisters .mfr (by decide)
  have hreset : (Action.line ⟨[], []⟩ "reset".toList).Restarts := .inl (by decide)
  exact ⟨hstate, hmfr, hcount, (hstep (.line ⟨[], []⟩ "step".toList) rfl).1,
    hrestart n _ hreset⟩

end WordMachine.Machine
