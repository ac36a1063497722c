import WordMachine.Proofs.Console.Depositing

namespace WordMachine

namespace Status

variable {α : Type} {s : Status α} {command name : String}

/-- A status of the command with a name, with a kind exactly if it is one of a failure. -/
structure Bears (s : Status α) (name : String) : Prop where
  command : s.command = name
  ok_iff : s.ok = true ↔ s.kind? = none

theorem bears_done (command message : String) (details : List (String × α)) :
    (done command message details).Bears command := ⟨rfl, iff_of_true rfl rfl⟩

theorem bears_failed (command : String) (kind? : Option String) (message : String)
    (details : List (String × α)) : (failed command kind? message details).Bears command :=
  ⟨rfl, iff_of_false nofun nofun⟩

theorem bears_ofCause (command : String) (cause : Cause) (details : List (String × α)) :
    (ofCause command cause details).Bears command := bears_failed _ _ _ _

theorem bears_ofFailure {f : Failure} (h : ofFailure command f = .ok s) : s.Bears command := by
  cases f with
  | aborted abort => cases h
  | reported cause line? =>
    cases h
    exact bears_failed _ _ _ _

end Status

/-- The command that a command begins with: those that move MAR on load or store first. -/
def CommandName.plain : CommandName → CommandName
  | loadNext => load
  | storeNext => store
  | name => name

theorem CommandName.name_plain_eq_iff {c : CommandName} :
    c.plain.name = c.name ↔ ¬(c = loadNext ∨ c = storeNext) := by
  cases c <;> decide

def CommandOutcome.Bears (o : CommandOutcome) (name : String) : Prop :=
  ∀ s, o.answer = .ok s → s.Bears name

namespace Command

theorem length_of_ofArguments? {name : CommandName} {arguments : List Text} {c : Command}
    (h : ofArguments? name arguments = some c) :
    name.arity.1 ≤ arguments.length ∧ arguments.length ≤ name.arity.2 := by
  unfold ofArguments? at h
  split at h <;> cases h <;> simp [CommandName.arity]

theorem argumentsOf_of_ne_ipl {line : Text} {name : CommandName} (h : name ≠ .ipl) :
    argumentsOf line name = (Text.words line).tail := if_neg fun hpath => h hpath.1

theorem ofArguments?_of_read {line : Text} {c : Command} (h : read line = .ok c) :
    ofArguments? c.name (argumentsOf line c.name) = some c := by
  rw [read_of_ofLine? (name_of_read h)] at h
  split at h
  · next c' hc =>
    cases h
    exact hc
  · cases h

theorem words_tail_of_read {line : Text} {c : Command} (h : read line = .ok c)
    (harity : c.name.arity = (0, 0)) : (Text.words line).tail = [] := by
  have hlength := (length_of_ofArguments? (ofArguments?_of_read h)).2
  have hipl : c.name ≠ .ipl := by
    intro hipl
    rw [hipl] at harity
    cases harity
  rw [harity, argumentsOf_of_ne_ipl hipl] at hlength
  exact List.length_eq_zero_iff.1 (Nat.le_zero.1 hlength)

end Command

namespace Machine

variable {m : Machine} {o : CommandOutcome} {s : Status Datum}

theorem bears_of_ok {name : String} (h : o.answer = .ok s) (hs : s.Bears name) :
    CommandOutcome.Bears o name := by
  intro s' hs'
  rw [h] at hs'
  cases hs'
  exact hs

theorem bears_refuse (m : Machine) (command : String) (cause : Cause) :
    CommandOutcome.Bears (m.refuse command cause) command :=
  fun _ hs => Status.bears_ofFailure hs

theorem bears_load (m : Machine) : CommandOutcome.Bears m.load "load" := by
  unfold load
  split
  · exact bears_refuse m _ _
  · exact bears_of_ok rfl (Status.bears_done _ _ _)

theorem bears_store (m : Machine) : CommandOutcome.Bears m.store "store" := by
  unfold store
  simp only
  split
  · exact bears_refuse m _ _
  · exact bears_of_ok rfl (Status.bears_done _ _ _)

theorem bears_thenAdvance {plain : String} (h : CommandOutcome.Bears o plain) {command : String}
    {touched : List String} (hs : (thenAdvance o command touched).answer = .ok s) :
    s.Bears (if s.ok then command else plain) := by
  unfold thenAdvance at hs
  split at hs
  · next s' hs' =>
    have hplain := h s' hs'
    split at hs
    · next hok =>
      cases hs
      rw [if_pos hok]
      exact ⟨rfl, hplain.ok_iff⟩
    · next hfailed =>
      obtain rfl := Except.ok.inj (hs'.symm.trans hs)
      rw [if_neg hfailed]
      exact hplain
  · next abort habort =>
    rw [habort] at hs
    cases hs

theorem bears_setRegister (m : Machine) (target : Text) (value : NumberArgument) :
    CommandOutcome.Bears (m.setRegister target value) "set" := by
  unfold setRegister
  split
  · exact bears_refuse m _ _
  · split
    · exact bears_refuse m _ _
    · exact bears_of_ok rfl (Status.bears_done _ _ _)

theorem bears_dump (m : Machine) (start? stop? : Option NumberArgument) :
    CommandOutcome.Bears (m.dump start? stop?) "dump" := by
  unfold dump
  split
  · exact bears_refuse m _ _
  · exact bears_of_ok rfl (Status.bears_done _ _ _)

theorem bears_loadImage (m : Machine) (records : LoadImage) (start? : Option Int) :
    CommandOutcome.Bears (m.loadImage records start?) "ipl" := by
  unfold loadImage
  simp only
  split
  · exact bears_refuse _ _ _
  · exact bears_of_ok rfl (Status.bears_done _ _ _)

theorem bears_loadFile (m : Machine) (files : FileTree) (path : Text) :
    CommandOutcome.Bears (m.loadFile files path) "ipl" := by
  unfold loadFile
  simp only
  split
  · exact fun _ hs => Status.bears_ofFailure hs
  · exact bears_loadImage _ _ _

theorem bears_step (m : Machine) : m.step.answer.Bears "step" := by
  unfold step
  simp only
  split
  · exact Status.bears_done _ _ _
  · split
    · unfold executeFetched
      simp only
      split
      · exact Status.bears_done _ _ _
      · exact Status.bears_ofCause _ _ _
    · exact Status.bears_ofCause _ _ _

/-- A run answers the failure of its last step under its own name. -/
theorem bears_run (m : Machine) (k : Int) : (m.run k).answer.Bears "run" := by
  have hsound := Progress.sound_proceed (Progress.sound_start m) k.toNat
  simp only [run, Progress.answer]
  split
  · next hfailed =>
    rw [Bool.not_eq_true'] at hfailed
    have hkind := (hsound hfailed).1
    exact ⟨rfl, iff_of_false (by simp [hfailed]) (by simp [hkind])⟩
  · exact Status.bears_done _ _ _

/-- A command answers under its own name, and if it fails, under that of the one it begins with. -/
theorem bears_command {files : FileTree} {c : Command} (h : (m.command files c).answer = .ok s) :
    s.Bears (if s.ok then c.name else c.name.plain).name := by
  -- All but two commands begin with no other one.
  have hown (hc : c.name.plain = c.name) (hbears : s.Bears c.name.name) :
      s.Bears (if s.ok then c.name else c.name.plain).name := by
    rwa [hc, ite_self]
  cases c with
  | ipl path => exact hown rfl (bears_loadFile m files path s h)
  | step =>
    cases h
    exact hown rfl (bears_step m)
  | run count? =>
    refine hown rfl ?_
    simp only [command] at h
    split at h
    · exact bears_refuse m _ _ s h
    · cases h
      exact bears_run m _
  | load => exact hown rfl (bears_load m s h)
  | loadNext =>
    rw [command, loadNext] at h
    rw [apply_ite CommandName.name]
    exact bears_thenAdvance (bears_load m) h
  | store => exact hown rfl (bears_store m s h)
  | storeNext =>
    rw [command, storeNext] at h
    rw [apply_ite CommandName.name]
    exact bears_thenAdvance (bears_store m) h
  | set target value => exact hown rfl (bears_setRegister m target value s h)
  | dump start? stop? => exact hown rfl (bears_dump m start? stop? s h)
  | reset | regs | debug =>
    cases h
    exact hown rfl (Status.bears_done _ _ _)

/-- A line that gives `load+` or `store+` to a machine with MAR beyond memory. -/
structure Overruns (m : Machine) (line : Text) : Prop where
  name : CommandName.ofLine? line = some .loadNext ∨ CommandName.ofLine? line = some .storeNext
  alone : (Text.words line).tail = []
  beyond : memorySize ≤ m.registers.mar.toNat

theorem ok_of_succeeds (h : CommandOutcome.Succeeds o) (hs : o.answer = .ok s) : s.ok = true := by
  obtain ⟨s', hs', hok⟩ := h
  obtain rfl := Except.ok.inj (hs'.symm.trans hs)
  exact hok

/-- Moving MAR on fails exactly if MAR is beyond memory. -/
theorem ok_eq_false_iff_beyond {files : FileTree} {c : Command}
    (hc : c.name = .loadNext ∨ c.name = .storeNext) (h : (m.command files c).answer = .ok s) :
    s.ok = false ↔ memorySize ≤ m.registers.mar.toNat := by
  have hiff (hin : m.registers.mar.toNat < memorySize →
        CommandOutcome.Succeeds (m.command files c))
      (hbeyond : memorySize ≤ m.registers.mar.toNat → CommandOutcome.Fails (m.command files c)) :
      s.ok = false ↔ memorySize ≤ m.registers.mar.toNat := by
    constructor
    · intro hfailed
      refine Nat.le_of_not_lt fun hlt => ?_
      rw [ok_of_succeeds (hin hlt) h] at hfailed
      cases hfailed
    · intro hle
      obtain ⟨s', hs', hfailed⟩ := hbeyond hle
      obtain rfl := Except.ok.inj (hs'.symm.trans h)
      exact hfailed
  cases c with
  | loadNext =>
    exact hiff (fun hlt => (@loadNext_of_inMemory m ⟨_, hlt⟩ rfl).1)
      fun hle => (loadNext_of_beyond hle).1
  | storeNext =>
    exact hiff (fun hlt => (@storeNext_of_inMemory m ⟨_, hlt⟩ rfl).1)
      fun hle => (storeNext_of_beyond hle).1
  | _ => simp [Command.name] at hc

theorem overruns_iff {line : Text} {c : Command} (h : Command.read line = .ok c) :
    m.Overruns line ↔
      (c.name = .loadNext ∨ c.name = .storeNext) ∧ memorySize ≤ m.registers.mar.toNat := by
  have hname := Command.name_of_read h
  constructor
  · intro hoverruns
    have hline := hoverruns.name
    simp only [hname, Option.some.injEq] at hline
    exact ⟨hline, hoverruns.beyond⟩
  · rintro ⟨hc, hbeyond⟩
    have harity : c.name.arity = (0, 0) := by rcases hc with hc | hc <;> rw [hc] <;> rfl
    exact ⟨by simpa only [hname, Option.some.injEq] using hc,
      Command.words_tail_of_read h harity, hbeyond⟩

theorem not_overruns_of_refused {line : Text} {refusal : Refusal}
    (h : Command.read line = .error refusal) : ¬ m.Overruns line := by
  rintro ⟨hname, halone, -⟩
  rcases hname with hname | hname <;>
    rw [Command.read_of_ofLine? hname, Command.argumentsOf_of_ne_ipl (by decide), halone] at h <;>
    cases h

/-- Each answer names the command that the line gives, and has a kind exactly if it is one of a
failure; but where `load+` or `store+` finds MAR beyond memory, the answer names `load` or
`store`. -/
theorem answer_names_command {files : FileTree} {line : Text} {name : CommandName}
    (hname : CommandName.ofLine? line = some name) (h : (m.execute files line).answer = .ok s) :
    (s.ok = true ↔ s.kind? = none) ∧ (s.command = name.name ↔ ¬ m.Overruns line) ∧
      (m.Overruns line → s.ok = false ∧ s.command = name.plain.name) := by
  unfold execute at h
  cases hread : Command.read line with
  | error refusal =>
    have hbears : s.Bears name.name := by
      simp only [hread] at h
      cases h
      rw [Command.read_of_ofLine? hname] at hread
      split at hread <;> cases hread
      exact Status.bears_failed _ _ _ _
    have hnot : ¬ m.Overruns line := not_overruns_of_refused hread
    exact ⟨hbears.ok_iff, iff_of_true hbears.command hnot, fun hoverruns => absurd hoverruns hnot⟩
  | ok c =>
    obtain rfl : c.name = name := Option.some.inj ((Command.name_of_read hread).symm.trans hname)
    simp only [hread] at h
    have hbears := bears_command h
    refine ⟨hbears.ok_iff, ?_⟩
    rw [overruns_iff hread]
    by_cases hc : c.name = .loadNext ∨ c.name = .storeNext
    · -- The answer is that of the plain command exactly if MAR has not been moved on.
      have hplain : c.name.plain.name ≠ c.name.name := fun e => CommandName.name_plain_eq_iff.1 e hc
      rw [← ok_eq_false_iff_beyond hc h]
      cases hok : s.ok with
      | true =>
        rw [hok, if_pos rfl] at hbears
        exact ⟨iff_of_true hbears.command nofun, nofun⟩
      | false =>
        rw [hok, if_neg Bool.false_ne_true] at hbears
        refine ⟨iff_of_false ?_ (not_not.2 ⟨hc, rfl⟩), fun _ => ⟨rfl, hbears.command⟩⟩
        rw [hbears.command]
        exact hplain
    · have hown := CommandName.name_plain_eq_iff.2 hc
      rw [apply_ite CommandName.name, hown, ite_self] at hbears
      exact ⟨iff_of_true hbears.command fun hoverruns => hc hoverruns.1,
        fun hoverruns => absurd hoverruns.1 hc⟩

def leavingMemory : List Action := [.line ⟨[], []⟩ "set MAR 2048".toList]

theorem mar_leavingMemory :
    memorySize ≤ (powerOn.after leavingMemory).registers.mar.toNat := by decide

theorem leavingMemory_storeNext_named :
    ∃ s, ((powerOn.after leavingMemory).execute ⟨[], []⟩ "Store+".toList).answer = .ok s ∧
      s.ok = false ∧ s.kind? ≠ none ∧ s.command = "store" := by
  obtain ⟨⟨s, hs, hfailed⟩, -⟩ := storeNext_of_beyond mar_leavingMemory
  obtain ⟨hkind, -, hplain⟩ := @answer_names_command (powerOn.after leavingMemory) s ⟨[], []⟩
    "Store+".toList .storeNext (by decide) hs
  obtain ⟨-, hcommand⟩ := hplain ⟨.inr (by decide), by decide, mar_leavingMemory⟩
  refine ⟨s, hs, hfailed, fun hnone => ?_, hcommand⟩
  rw [hkind.2 hnone] at hfailed
  cases hfailed

/-- A load that fails is not answered for the command that was to move MAR on. -/
theorem not_forall_reachable_names :
    ¬ ∀ (actions : List Action) (files : FileTree) (line : Text) (name : CommandName)
      (s : Status Datum), CommandName.ofLine? line = some name →
      ((powerOn.after actions).execute files line).answer = .ok s →
        s.command = name.name ∧ (s.ok = true ↔ s.kind? = none) := by
  intro h
  obtain ⟨⟨s, hs, hfailed⟩, -⟩ := loadNext_of_beyond mar_leavingMemory
  have hgiven := (h leavingMemory ⟨[], []⟩ "load+".toList .loadNext s (by decide) hs).1
  have hanswered := (@bears_command _ s ⟨[], []⟩ .loadNext hs).command
  rw [hgiven, hfailed] at hanswered
  exact absurd hanswered (by decide)

end Machine
end WordMachine
