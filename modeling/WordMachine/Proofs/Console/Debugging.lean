import WordMachine.Proofs.Console.Stopping
import WordMachine.Proofs.Machine.Visible

namespace WordMachine.Machine

structure SameButDebug (m n : Machine) : Prop where
  memory : n.memory = m.memory
  registers : n.registers = m.registers
  state : n.state = m.state
  instructionCount : n.instructionCount = m.instructionCount
  filename : n.filename = m.filename
  maxSteps : n.maxSteps = m.maxSteps

structure SameOutcome (o o' : CommandOutcome) : Prop where
  answer : o'.answer = o.answer
  machine : SameButDebug o.machine o'.machine

namespace SameButDebug

variable {m n : Machine}

theorem refl (m : Machine) : SameButDebug m m := ⟨rfl, rfl, rfl, rfl, rfl, rfl⟩

theorem symm (h : SameButDebug m n) : SameButDebug n m :=
  ⟨h.memory.symm, h.registers.symm, h.state.symm, h.instructionCount.symm, h.filename.symm,
    h.maxSteps.symm⟩

theorem trans {k : Machine} (h : SameButDebug m n) (h' : SameButDebug n k) : SameButDebug m k where
  memory := h'.memory.trans h.memory
  registers := h'.registers.trans h.registers
  state := h'.state.trans h.state
  instructionCount := h'.instructionCount.trans h.instructionCount
  filename := h'.filename.trans h.filename
  maxSteps := h'.maxSteps.trans h.maxSteps

variable (h : SameButDebug m n)
include h

theorem agreeOn : AgreeOn Set.univ m n := ⟨h.memory, h.state, fun r _ => by rw [h.registers]⟩

theorem write (r : Register) (v : Int) : SameButDebug (m.write r v) (n.write r v) :=
  ⟨h.memory, congrArg (Registers.write · r v) h.registers, h.state, h.instructionCount, h.filename,
    h.maxSteps⟩

theorem clear : SameButDebug m.clear n.clear := ⟨rfl, rfl, rfl, rfl, h.filename, h.maxSteps⟩

theorem next : SameButDebug m.next n.next := by
  have hstep := (h.agreeOn.step (Set.subset_univ _)).2
  have hm := Keeps.step m
  have hn := Keeps.step n
  refine ⟨hstep.memory, Registers.ext_read fun r => hstep.read (.inr trivial), hstep.state, ?_,
    hn.filename.trans (h.filename.trans hm.filename.symm),
    hn.maxSteps.trans (h.maxSteps.trans hm.maxSteps.symm)⟩
  cases hready : m.isReady with
  | false =>
    rw [Machine.next, Machine.next, step_of_not_ready hready,
      step_of_not_ready (h.agreeOn.isReady.trans hready)]
    exact h.instructionCount
  | true =>
    have hready' := h.agreeOn.isReady.trans hready
    rw [instructionCount_next hready, instructionCount_next hready', faultsAtFetch, faultsAtFetch,
      hready, hready', h.registers, h.instructionCount]

theorem iterate (k : Nat) : SameButDebug (Machine.next^[k] m) (Machine.next^[k] n) := by
  induction k generalizing m n with
  | zero => exact h
  | succ k ih => exact ih h.next

theorem step : n.step.answer = m.step.answer ∧ SameButDebug m.step.machine n.step.machine :=
  ⟨(h.agreeOn.step (Set.subset_univ _)).1, h.next⟩

theorem run (k : Int) :
    (n.run k).answer = (m.run k).answer ∧ SameButDebug (m.run k).machine (n.run k).machine := by
  refine ⟨(h.agreeOn.run (Set.subset_univ _) k).1, ?_⟩
  rw [machine_run, machine_run, h.agreeOn.stepsWithin (Set.subset_univ _)]
  exact h.iterate _

end SameButDebug

namespace SameOutcome

variable {m n : Machine} {o o' : CommandOutcome}

theorem thenAdvance (ho : SameOutcome o o') (command : String) (touched : List String) :
    SameOutcome (thenAdvance o command touched) (thenAdvance o' command touched) := by
  unfold Machine.thenAdvance
  rw [ho.answer]
  split
  · split
    · rw [andWrite, andWrite, ho.machine.registers]
      exact ⟨rfl, ho.machine.write _ _⟩
    · exact ho
  · exact ho

variable (h : SameButDebug m n)
include h

theorem refuse (command : String) (cause : Cause) :
    SameOutcome (m.refuse command cause) (n.refuse command cause) := ⟨rfl, h⟩

theorem load : SameOutcome m.load n.load := by
  unfold Machine.load
  rw [h.memory, h.registers]
  split
  · exact refuse h _ _
  · exact ⟨rfl, h.write _ _⟩

theorem store : SameOutcome m.store n.store := by
  unfold Machine.store
  rw [h.memory, h.registers]
  simp only
  split
  · exact refuse h _ _
  · exact ⟨rfl, rfl, rfl, h.state, h.instructionCount, h.filename, h.maxSteps⟩

theorem setRegister (target : Text) (value : NumberArgument) :
    SameOutcome (m.setRegister target value) (n.setRegister target value) := by
  unfold Machine.setRegister
  split
  · exact refuse h _ _
  · next r _ =>
    split
    · exact refuse h _ _
    · next v _ =>
      have hwrite := h.write r v
      simp only [hwrite.registers]
      exact ⟨rfl, hwrite⟩

theorem dump (start? stop? : Option NumberArgument) :
    SameOutcome (m.dump start? stop?) (n.dump start? stop?) := by
  have hbounds : n.dumpBounds start? stop? = m.dumpBounds start? stop? := by
    unfold dumpBounds
    rw [h.registers]
  have hline : n.dumpLine = m.dumpLine := by
    unfold dumpLine
    rw [h.memory]
  unfold Machine.dump
  rw [hbounds]
  split
  · exact refuse h _ _
  · exact ⟨by rw [hline], h⟩

theorem regs (files : FileTree) : SameOutcome (m.command files .regs) (n.command files .regs) := by
  have htable : n.registerTable = m.registerTable := by
    unfold registerTable registerColumns
    rw [h.registers, h.state]
  refine ⟨?_, h⟩
  rw [Machine.command, Machine.command, htable, h.registers, h.state]

theorem loadImage (records : LoadImage) (start? : Option Int) :
    SameOutcome (m.loadImage records start?) (n.loadImage records start?) := by
  have hclear := h.clear
  unfold Machine.loadImage
  simp only
  split
  · exact refuse hclear _ _
  · next memory _ =>
    have hloaded : SameButDebug { m.clear with memory } { n.clear with memory } :=
      ⟨rfl, rfl, rfl, rfl, hclear.filename, hclear.maxSteps⟩
    exact ⟨rfl, (hloaded.write _ _).write _ _⟩

theorem loadFile (files : FileTree) (path : Text) :
    SameOutcome (m.loadFile files path) (n.loadFile files path) := by
  unfold Machine.loadFile
  simp only
  split
  · exact ⟨rfl, h.clear⟩
  · have hnamed : SameButDebug { m.clear with filename := path } { n.clear with filename := path } :=
      ⟨rfl, rfl, rfl, rfl, rfl, h.maxSteps⟩
    exact loadImage hnamed _ _

/-- Every command but `debug` answers alike, and leaves machines that are alike. -/
theorem command (files : FileTree) {c : Command} (hc : c.name ≠ .debug) :
    SameOutcome (m.command files c) (n.command files c) := by
  cases c with
  | ipl path => exact loadFile h files path
  | step =>
    obtain ⟨hanswer, hmachine⟩ := h.step
    exact ⟨congrArg Except.ok hanswer, hmachine⟩
  | run count? =>
    have hlimit : n.stepLimit count? = m.stepLimit count? := by
      unfold stepLimit
      rw [h.maxSteps]
    rw [Machine.command, Machine.command, hlimit]
    split
    · exact refuse h _ _
    · obtain ⟨hanswer, hmachine⟩ := h.run _
      exact ⟨congrArg Except.ok hanswer, hmachine⟩
  | reset => exact ⟨rfl, h.clear⟩
  | load =>
    rw [Machine.command, Machine.command]
    exact load h
  | loadNext =>
    rw [Machine.command, Machine.command, loadNext, loadNext]
    exact (load h).thenAdvance _ _
  | store =>
    rw [Machine.command, Machine.command]
    exact store h
  | storeNext =>
    rw [Machine.command, Machine.command, storeNext, storeNext]
    exact (store h).thenAdvance _ _
  | set target value => exact setRegister h target value
  | regs => exact regs h files
  | dump start? stop? => exact dump h start? stop?
  | debug => exact absurd rfl hc

theorem act {action : Action} (haction : action.name? ≠ some .debug) :
    SameOutcome (m.act action) (n.act action) := by
  have hcommand {c : Command} (files : FileTree) (hname : action.name? = some c.name) :
      SameOutcome (m.command files c) (n.command files c) :=
    command h files fun hc => haction (hname.trans (congrArg some hc))
  cases action with
  | command files c => exact hcommand files rfl
  | file files path => exact hcommand files rfl
  | image records start? => exact loadImage h records start?
  | line files text =>
    rw [Machine.act, Machine.act, execute, execute]
    cases hread : Command.read text with
    | error refusal => exact ⟨rfl, h⟩
    | ok c => exact hcommand files (Action.name?_of_command? (toOption_eq_some.2 hread))

end SameOutcome

/-- What the commands of a history answer, its `debug` commands left out. -/
def otherAnswers (m : Machine) : List Action → List (Except Abort (Status Datum))
  | [] => []
  | action :: actions =>
    let o := m.act action
    if action.name? = some .debug then o.machine.otherAnswers actions
    else o.answer :: o.machine.otherAnswers actions

def withoutDebug (actions : List Action) : List Action :=
  actions.filter fun action => action.name? ≠ some .debug

theorem SameButDebug.act_debug {action : Action} (h : action.name? = some .debug) (m : Machine) :
    SameButDebug m (m.act action).machine := by
  rcases act_cases m action with ⟨c, files, hname, hact⟩ | ⟨records, start?, rfl⟩ | ⟨hnone, -⟩
  · obtain rfl : c = .debug := by
      cases c <;> cases hname.symm.trans h
      rfl
    rw [hact]
    exact ⟨rfl, rfl, rfl, rfl, rfl, rfl⟩
  · cases h
  · cases hnone.symm.trans h

/-- Taking the `debug` commands out of a history changes no other answer, and nothing of what it
leaves but the flag. -/
theorem sameButDebug_withoutDebug {m n : Machine} (h : SameButDebug m n) (actions : List Action) :
    n.otherAnswers (withoutDebug actions) = m.otherAnswers actions ∧
      SameButDebug (m.after actions) (n.after (withoutDebug actions)) := by
  induction actions generalizing m n with
  | nil => exact ⟨rfl, h⟩
  | cons action actions ih =>
    by_cases hdebug : action.name? = some .debug
    · have hskip : withoutDebug (action :: actions) = withoutDebug actions := by
        simp [withoutDebug, hdebug]
      rw [hskip, otherAnswers, if_pos hdebug]
      exact ih ((SameButDebug.act_debug hdebug m).symm.trans h)
    · have hkeep : withoutDebug (action :: actions) = action :: withoutDebug actions := by
        simp [withoutDebug, hdebug]
      have hact := SameOutcome.act h hdebug
      obtain ⟨hanswers, hafter⟩ := ih hact.machine
      rw [hkeep, otherAnswers, otherAnswers, if_neg hdebug, if_neg hdebug, hact.answer, hanswers]
      exact ⟨rfl, hafter⟩

/-- Debugging changes no behaviour. Two histories that are the same without their `debug` commands,
wherever those stand, give the same answers to all other commands, and they leave machines that are
alike in all but the debug flag; so do two machines that were alike in all but the flag before. -/
theorem debugging_immaterial {m n : Machine} (h : SameButDebug m n) {actions actions' : List Action}
    (hactions : withoutDebug actions = withoutDebug actions') :
    m.otherAnswers actions = n.otherAnswers actions' ∧
      SameButDebug (m.after actions) (n.after actions') := by
  obtain ⟨hanswers, hafter⟩ := sameButDebug_withoutDebug (.refl m) actions
  obtain ⟨hanswers', hafter'⟩ := sameButDebug_withoutDebug h.symm actions'
  rw [hactions] at hanswers hafter
  exact ⟨hanswers.symm.trans hanswers', hafter.trans hafter'.symm⟩

/-- A program is keyed in and run, under debugging for a part of the way. -/
def watched : List Action :=
  ["set MBR 0x0405", "debug", "store+", "step", "debug x", " Debug ", "run 3", "DEBUG"].map
    fun line => .line ⟨[], []⟩ line.toList

def unwatched : List Action :=
  ["set MBR 0x0405", "store+", "step", "debug x", "run 3"].map fun line =>
    .line ⟨[], []⟩ line.toList

theorem watched_answered_alike :
    powerOn.otherAnswers watched = powerOn.otherAnswers unwatched ∧
      SameButDebug (powerOn.after watched) (powerOn.after unwatched) ∧
      (powerOn.after watched).debug ≠ (powerOn.after unwatched).debug := by
  have hactions : withoutDebug watched = withoutDebug unwatched := rfl
  obtain ⟨hanswers, hafter⟩ := debugging_immaterial (.refl powerOn) hactions
  exact ⟨hanswers, hafter, by decide⟩

end WordMachine.Machine
