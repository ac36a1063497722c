import WordMachine.Notebook
import WordMachine.Proofs.Console.Failing
import WordMachine.Proofs.Numeral.Decimal

namespace WordMachine

theorem Memory.index?_of_not_isWritable {a : Int} (h : Numeral.isWritable a = false) :
    index? a = none := by
  rw [index?_eq_none_iff]
  refine Decidable.not_not.1 fun hin => ?_
  have hlt : a.natAbs < 10000 := by
    have hsize : memorySize = 2048 := rfl
    omega
  rw [Numeral.isWritable_of_natAbs_lt hlt] at h
  cases h

/-- A command that answers a status, of a success or of a failure. -/
def CommandOutcome.Answers (o : CommandOutcome) : Prop := ∃ s, o.answer = .ok s

namespace Machine

variable {m : Machine} {o : CommandOutcome}

/-- The commands that answer no status, what ends them, and the machine that they leave. -/
inductive Unanswered (m : Machine) (files : FileTree) : Command → Abort → Machine → Prop
  | path {path : Text} (hpath : '\x00' ∈ path) :
    Unanswered m files (.ipl path) .nullInPath m.clear
  | record {path : Text} {records : LoadImage} {r : LoadRecord}
    (hread : LoadImage.ofFile files path = .ok records)
    (hfirst : records.find? LoadRecord.isBeyond = some r)
    (hlong : Numeral.isWritable r.address = false) :
    Unanswered m files (.ipl path) .unwritable ({ m with filename := path } : Machine).clear
  | dump {start : NumberArgument} {stop? : Option NumberArgument} {a : Int}
    (hstart : start.value = .ok a) (hstop : ∀ stop ∈ stop?, ∃ b, stop.value = .ok b)
    (hlong : Numeral.isWritable a = false) :
    Unanswered m files (.dump (some start) stop?) .unwritable m

theorem Unanswered.name_eq {files : FileTree} {c : Command} {abort : Abort} {n : Machine}
    (h : Unanswered m files c abort n) : c.name = .ipl ∨ c.name = .dump := by
  cases h with
  | path => exact .inl rfl
  | record => exact .inl rfl
  | dump => exact .inr rfl

theorem answers_refuse {command : String} {cause : Cause}
    (h : ∀ v ∈ cause.numbers, Numeral.isWritable v = true) :
    CommandOutcome.Answers (m.refuse command cause) := by
  refine ⟨.failed command (some cause.kind.name) cause.message [], ?_⟩
  rw [refuse, Failure.ofCause, Failure.report_of_forall h]
  rfl

theorem answers_refuse_of_numbers {command : String} {cause : Cause} (h : cause.numbers = []) :
    CommandOutcome.Answers (m.refuse command cause) := by
  apply answers_refuse
  simp [h]

theorem answers_refuse_mar (m : Machine) (command : String) :
    CommandOutcome.Answers (m.refuse command (.memoryRange m.registers.mar.toNat)) := by
  apply answers_refuse
  intro v hv
  have hlt := m.registers.mar.isLt
  rw [List.mem_singleton.1 hv]
  apply Numeral.isWritable_of_natAbs_lt
  omega

theorem answers_load (m : Machine) : CommandOutcome.Answers m.load := by
  unfold load
  split
  · next cause hread =>
    obtain ⟨-, rfl⟩ := Memory.inRange_eq_error.1 (map_eq_error.1 hread)
    exact answers_refuse_mar m "load"
  · exact ⟨_, rfl⟩

theorem answers_store (m : Machine) : CommandOutcome.Answers m.store := by
  unfold store
  simp only
  split
  · next cause hwrite =>
    obtain ⟨-, rfl⟩ := Memory.inRange_eq_error.1 (map_eq_error.1 hwrite)
    exact answers_refuse_mar m "store"
  · exact ⟨_, rfl⟩

theorem answers_thenAdvance (h : CommandOutcome.Answers o) (command : String)
    (touched : List String) : CommandOutcome.Answers (thenAdvance o command touched) := by
  obtain ⟨s, hs⟩ := h
  unfold thenAdvance
  simp only [hs]
  split
  · exact ⟨_, rfl⟩
  · exact ⟨s, hs⟩

theorem answers_loadNext (m : Machine) : CommandOutcome.Answers m.loadNext := by
  unfold loadNext
  exact answers_thenAdvance (answers_load m) _ _

theorem answers_storeNext (m : Machine) : CommandOutcome.Answers m.storeNext := by
  unfold storeNext
  exact answers_thenAdvance (answers_store m) _ _

theorem NumberArgument.value_eq_error {a : NumberArgument} {cause : Cause}
    (h : a.value = .error cause) : cause.numbers = [] := by
  unfold NumberArgument.value at h
  split at h
  · cases h
  · obtain ⟨-, -, rfl⟩ := mapError_eq_error.1 h
    rfl

theorem answers_setRegister (m : Machine) (target : Text) (value : NumberArgument) :
    CommandOutcome.Answers (m.setRegister target value) := by
  unfold setRegister
  split
  · exact answers_refuse_of_numbers rfl
  · split
    · next cause hvalue => exact answers_refuse_of_numbers (NumberArgument.value_eq_error hvalue)
    · exact ⟨_, rfl⟩

theorem answer_refuse_eq_error {command : String} {cause : Cause} {abort : Abort} :
    (m.refuse command cause).answer = .error abort ↔
      abort = .unwritable ∧ ∃ v ∈ cause.numbers, Numeral.isWritable v = false := by
  rw [refuse, Failure.ofCause, Failure.report]
  split
  · next hall =>
    have hnone : ¬ ∃ v ∈ cause.numbers, Numeral.isWritable v = false := by
      rintro ⟨v, hv, hlong⟩
      rw [List.all_eq_true.1 hall v hv] at hlong
      cases hlong
    exact iff_of_false nofun fun h => hnone h.2
  · next hall =>
    have hlong : ∃ v ∈ cause.numbers, Numeral.isWritable v = false := by
      simpa [List.all_eq_true] using hall
    constructor
    · intro h
      cases h
      exact ⟨rfl, hlong⟩
    · rintro ⟨rfl, -⟩
      rfl

def dumpStart (m : Machine) : Option NumberArgument → Except Cause Int
  | some start => start.value
  | none => .ok m.registers.pc.toNat

def dumpStop (start : Int) : Option NumberArgument → Except Cause Int
  | some stop => stop.value
  | none => .ok (start + 9)

theorem dumpBounds_eq (m : Machine) (start? stop? : Option NumberArgument) :
    m.dumpBounds start? stop? = (do
      let start ← m.dumpStart start?
      let stop ← dumpStop start stop?
      let _ ← Memory.inRange start
      return (start, min (if stop < start then start + 9 else stop)
        (min (start + 99) (memorySize - 1)))) := by
  cases start? <;> cases stop? <;> rfl

theorem dumpStop_eq_ok_iff {start : Int} {stop? : Option NumberArgument} :
    (∃ b, dumpStop start stop? = .ok b) ↔ ∀ stop ∈ stop?, ∃ b, stop.value = .ok b := by
  cases stop? with
  | none => simp [dumpStop]
  | some stop => simp [dumpStop]

theorem dumpBounds_eq_error {start? stop? : Option NumberArgument} {cause : Cause}
    (h : m.dumpBounds start? stop? = .error cause) :
    cause.numbers = [] ∨ ∃ a, m.dumpStart start? = .ok a ∧ (∃ b, dumpStop a stop? = .ok b) ∧
      cause = .memoryRange a := by
  rw [dumpBounds_eq] at h
  obtain hstart | ⟨a, hstart, h⟩ := bind_eq_error.1 h
  · cases start? with
    | none => cases hstart
    | some start => exact .inl (NumberArgument.value_eq_error hstart)
  · obtain hstop | ⟨b, hstop, h⟩ := bind_eq_error.1 h
    · cases stop? with
      | none => cases hstop
      | some stop => exact .inl (NumberArgument.value_eq_error hstop)
    · obtain hrange | ⟨_, -, h⟩ := bind_eq_error.1 h
      · obtain ⟨-, rfl⟩ := Memory.inRange_eq_error.1 hrange
        exact .inr ⟨a, hstart, ⟨b, hstop⟩, rfl⟩
      · cases h

/-- A dump is not answered exactly if it starts at a number that is too long for decimal. -/
theorem answer_dump_eq_error {start? stop? : Option NumberArgument} {abort : Abort} :
    (m.dump start? stop?).answer = .error abort ↔
      abort = .unwritable ∧ ∃ start a, start? = some start ∧ start.value = .ok a ∧
        (∀ stop ∈ stop?, ∃ b, stop.value = .ok b) ∧ Numeral.isWritable a = false := by
  unfold dump
  constructor
  · intro h
    split at h
    · next cause hbounds =>
      obtain ⟨rfl, v, hv, hlong⟩ := answer_refuse_eq_error.1 h
      obtain hnone | ⟨a, hstart, hstop, rfl⟩ := dumpBounds_eq_error hbounds
      · rw [hnone] at hv
        cases hv
      · obtain rfl : v = a := List.mem_singleton.1 hv
        refine ⟨rfl, ?_⟩
        cases start? with
        | some start => exact ⟨start, v, rfl, hstart, dumpStop_eq_ok_iff.1 hstop, hlong⟩
        | none =>
          -- A dump without a start begins at PC, which is short.
          obtain rfl := Except.ok.inj hstart
          have hpc := m.registers.pc.isLt
          rw [Numeral.isWritable_of_natAbs_lt (by omega)] at hlong
          cases hlong
    · cases h
  · rintro ⟨rfl, start, a, rfl, hstart, hstop, hlong⟩
    obtain ⟨b, hstop⟩ := (@dumpStop_eq_ok_iff a stop?).2 hstop
    have hrange : Memory.inRange a = .error (.memoryRange a) :=
      Memory.inRange_eq_error.2 ⟨Memory.index?_of_not_isWritable hlong, rfl⟩
    have hbounds : m.dumpBounds (some start) stop? = .error (.memoryRange a) := by
      rw [dumpBounds_eq, dumpStart, hstart]
      change dumpStop a stop? >>= _ = _
      rw [hstop]
      change Memory.inRange a >>= _ = _
      rw [hrange]
      rfl
    rw [hbounds]
    exact answer_refuse_eq_error.2 ⟨rfl, a, List.mem_singleton_self a, hlong⟩

/-- Loading records is not answered exactly if the first one that is beyond memory has an address
too long for decimal. -/
theorem answer_loadImage_eq_error {records : LoadImage} {start? : Option Int} {abort : Abort} :
    (m.loadImage records start?).answer = .error abort ↔
      abort = .unwritable ∧ ∃ r, records.find? LoadRecord.isBeyond = some r ∧
        Numeral.isWritable r.address = false := by
  unfold loadImage
  simp only [Memory.ofRecords_eq]
  cases hfind : records.find? LoadRecord.isBeyond with
  | none => simp
  | some r =>
    simp only [Option.some.injEq, exists_eq_left']
    rw [answer_refuse_eq_error]
    simp [Cause.numbers]

theorem machine_loadImage_of_beyond {records : LoadImage} {start? : Option Int} {r : LoadRecord}
    (h : records.find? LoadRecord.isBeyond = some r) :
    (m.loadImage records start?).machine = m.clear := by
  unfold loadImage
  simp only [Memory.ofRecords_eq, h]
  rfl

theorem loadFile_unanswered_iff {files : FileTree} {path : Text} {abort : Abort} {n : Machine} :
    (m.loadFile files path).answer = .error abort ∧ (m.loadFile files path).machine = n ↔
      Unanswered m files (.ipl path) abort n := by
  by_cases hpath : '\x00' ∈ path
  · have hread := LoadImage.ofFile_of_null (t := files) hpath
    simp only [loadFile, hread]
    constructor
    · rintro ⟨h, rfl⟩
      cases h
      exact .path hpath
    · intro h
      cases h with
      | path => exact ⟨rfl, rfl⟩
      | record hread' => rw [hread] at hread'; cases hread'
  · cases hread : LoadImage.ofFile files path with
    | error f =>
      -- A file under a path without null characters that cannot be read is reported.
      obtain ⟨cause, line?, rfl, -⟩ := LoadImage.ofFile_eq_error hpath hread
      simp only [loadFile, hread]
      constructor
      · rintro ⟨h, -⟩
        cases h
      · intro h
        cases h with
        | path hnull => exact absurd hnull hpath
        | record hread' => rw [hread] at hread'; cases hread'
    | ok records =>
      simp only [loadFile, hread, answer_loadImage_eq_error]
      constructor
      · rintro ⟨⟨rfl, r, hfirst, hlong⟩, rfl⟩
        rw [machine_loadImage_of_beyond hfirst]
        exact .record hread hfirst hlong
      · intro h
        cases h with
        | path hnull => exact absurd hnull hpath
        | @record path records' r hread' hfirst hlong =>
          obtain rfl := Except.ok.inj (hread.symm.trans hread')
          exact ⟨⟨rfl, r, hfirst, hlong⟩, machine_loadImage_of_beyond hfirst⟩

/-- A command is not answered in the three cases alone. -/
theorem command_unanswered_iff {files : FileTree} {c : Command} {abort : Abort} {n : Machine} :
    (m.command files c).answer = .error abort ∧ (m.command files c).machine = n ↔
      Unanswered m files c abort n := by
  -- A command of any other name answers a status, so that neither side holds.
  have hanswers (hname : ¬(c.name = .ipl ∨ c.name = .dump))
      (h : CommandOutcome.Answers (m.command files c)) :
      (m.command files c).answer = .error abort ∧ (m.command files c).machine = n ↔
        Unanswered m files c abort n := by
    apply iff_of_false _ fun hunanswered => hname hunanswered.name_eq
    rintro ⟨herror, -⟩
    obtain ⟨s, hs⟩ := h
    rw [hs] at herror
    cases herror
  cases c with
  | ipl path => exact loadFile_unanswered_iff
  | step => exact hanswers (by decide) ⟨_, rfl⟩
  | run count? =>
    apply hanswers (by simp [Command.name])
    simp only [command]
    cases hlimit : m.stepLimit count? with
    | error cause =>
      obtain ⟨t, rfl⟩ := stepLimit_eq_error hlimit
      exact answers_refuse_of_numbers rfl
    | ok k => exact ⟨_, rfl⟩
  | reset => exact hanswers (by decide) ⟨_, rfl⟩
  | load => exact hanswers (by decide) (answers_load m)
  | loadNext => exact hanswers (by decide) (answers_loadNext m)
  | store => exact hanswers (by decide) (answers_store m)
  | storeNext => exact hanswers (by decide) (answers_storeNext m)
  | set target value =>
    exact hanswers (by simp [Command.name]) (answers_setRegister m target value)
  | regs => exact hanswers (by decide) ⟨_, rfl⟩
  | dump start? stop? =>
    simp only [command, answer_dump_eq_error, machine_dump]
    constructor
    · rintro ⟨⟨rfl, start, a, rfl, hstart, hstop, hlong⟩, rfl⟩
      exact .dump hstart hstop hlong
    · intro h
      cases h with
      | dump hstart hstop hlong => exact ⟨⟨rfl, _, _, rfl, hstart, hstop, hlong⟩, rfl⟩
  | debug => exact hanswers (by decide) ⟨_, rfl⟩

theorem execute_unanswered_iff {files : FileTree} {line : Text} {abort : Abort} {n : Machine} :
    (m.execute files line).answer = .error abort ∧ (m.execute files line).machine = n ↔
      ∃ c, Command.read line = .ok c ∧ Unanswered m files c abort n := by
  unfold execute
  cases Command.read line with
  | error refusal => exact iff_of_false nofun nofun
  | ok c => simp [command_unanswered_iff]

end Machine

namespace Notebook

open Machine

/-- What the lines of a command cell do, blank ones left out, each of them on the machine that the
one before it has left. -/
def outcomes (m : Machine) (files : FileTree) : List Text → List CommandOutcome
  | [] => []
  | line :: rest =>
    if Text.trim line = [] then outcomes m files rest
    else m.execute files line :: outcomes (m.execute files line).machine files rest

def isAnswered (o : CommandOutcome) : Bool := o.answer.isOk

theorem events_runCommands (m : Machine) (files : FileTree) (lines : List Text) :
    (runCommands m files lines).events =
      (((outcomes m files lines).takeWhile isAnswered ++
        ((outcomes m files lines).dropWhile isAnswered).take 1).flatMap commandEvents) := by
  induction lines generalizing m with
  | nil => rfl
  | cons line rest ih =>
    rw [runCommands, outcomes]
    split
    · exact ih m
    · cases h : (m.execute files line).answer with
      | error abort => simp [isAnswered, h, Except.isOk, Except.toBool]
      | ok s => simp [isAnswered, h, Except.isOk, Except.toBool, ih]

/-- A line is left without an answer in the three cases alone, and such a line is the last one that
a command cell carries out. -/
theorem unanswered_exactly (m : Machine) (files : FileTree) :
    (∀ line abort n,
      (m.execute files line).answer = .error abort ∧ (m.execute files line).machine = n ↔
        ∃ c, Command.read line = .ok c ∧ Unanswered m files c abort n) ∧
    ∀ lines, (runCommands m files lines).events =
      (((outcomes m files lines).takeWhile isAnswered ++
        ((outcomes m files lines).dropWhile isAnswered).take 1).flatMap commandEvents) :=
  ⟨fun _ _ _ => execute_unanswered_iff, events_runCommands m files⟩

/-- A path that is a null character is not reported but ends the command. -/
theorem not_forall_reachable_answers :
    ¬ ∀ (actions : List Action) (files : FileTree) (line : Text),
      CommandOutcome.Answers ((powerOn.after actions).execute files line) := by
  intro h
  obtain ⟨s, hs⟩ := h [] ⟨[], []⟩ ['i', 'p', 'l', ' ', '\x00']
  have herror : (powerOn.execute ⟨[], []⟩ ['i', 'p', 'l', ' ', '\x00']).answer =
      .error .nullInPath := rfl
  rw [after, List.foldl_nil, herror] at hs
  cases hs

end Notebook
end WordMachine
