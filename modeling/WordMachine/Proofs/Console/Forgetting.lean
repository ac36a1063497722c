import WordMachine.Proofs.Console.Failing
import WordMachine.Proofs.Console.Loading
import WordMachine.Proofs.Files.Differing

namespace WordMachine

def LoadImage.lastAt? (records : LoadImage) (a : Fin memorySize) : Option LoadRecord :=
  records.reverse.find? fun r => decide (r.address = a.val)

theorem Memory.get_foldl_deposit (memory : Memory) (records : LoadImage) (a : Fin memorySize) :
    (records.foldl deposit memory).get a =
      (records.lastAt? a).elim (memory.get a) fun r => BitVec.ofInt 16 r.word := by
  induction records using List.reverseRecOn with
  | nil => rfl
  | append_singleton records r ih =>
    rw [List.foldl_append, List.foldl_cons, List.foldl_nil, get_deposit, LoadImage.lastAt?,
      List.reverse_append, List.reverse_singleton, List.singleton_append, List.find?_cons]
    by_cases h : r.address = a.val
    · simp only [h, if_true, decide_true, Option.elim_some]
    · simp only [h, if_false, decide_false]
      exact ih

/-- Answers of an `ipl` that differ at most in the start that they report. -/
structure Status.SameButStart (s s' : Status Datum) : Prop where
  command : s'.command = s.command
  ok : s'.ok = s.ok
  kind? : s'.kind? = s.kind?
  start : ∃ shown start start',
    s.details.lookup "start" = some (.number start) ∧
    s'.details.lookup "start" = some (.number start') ∧
    s.message = shown ++ String.ofList (Numeral.octalColumn start) ∧
    s'.message = shown ++ String.ofList (Numeral.octalColumn start')
  details : s'.details.filter (·.1 ≠ "start") = s.details.filter (·.1 ≠ "start")

/-- Outcomes that differ at most in PC, in MAR and in the start that is reported. What is traced are
the two registers. -/
structure CommandOutcome.SameButStart (o o' : CommandOutcome) : Prop where
  machine : ∃ pc mar, o'.machine = (o.machine.write .pc pc).write .mar mar
  answer : ∃ s s', o.answer = .ok s ∧ o'.answer = .ok s' ∧ s.SameButStart s'
  trace : o.trace = o.machine.shown [o.machine.writeLine .pc, o.machine.writeLine .mar]
  trace' : o'.trace = o'.machine.shown [o'.machine.writeLine .pc, o'.machine.writeLine .mar]

namespace Machine

def loadedStatus (records : LoadImage) (start : Int) : Status Datum :=
  .done "ipl"
    (s!"Loaded {records.length} word(s); PC <- " ++ String.ofList (Numeral.octalColumn start)) [
    ("records", .number records.length),
    ("first_address", .ofOption records.firstAddress?),
    ("start", .number start),
    ("state", .word ControlState.ready.name)]

def loadedOutcome (m : Machine) (records : LoadImage) (start : Int) : CommandOutcome :=
  let m := m.loaded records start
  ⟨m, m.shown [m.writeLine .pc, m.writeLine .mar], .ok (loadedStatus records start)⟩

variable {records : LoadImage}

/-- Records that are all in memory are loaded, and the first one that is not is refused. -/
theorem loadImage_eq (m : Machine) (records : LoadImage) (start? : Option Int) :
    m.loadImage records start? = match records.find? LoadRecord.isBeyond with
      | some r => m.clear.refuse "ipl" (.loadRange r.address)
      | none => m.loadedOutcome records (start?.getD (records.firstAddress?.getD 0)) := by
  unfold loadImage
  simp only [Memory.ofRecords_eq]
  cases records.find? LoadRecord.isBeyond <;> rfl

theorem not_succeeds_ofFailure (m : Machine) (command : String) (f : Failure) :
    ¬ CommandOutcome.Succeeds ⟨m, [], Status.ofFailure command f⟩ := by
  rintro ⟨s, hs, hok⟩
  rw [(Status.ofFailure_eq_ok hs).1] at hok
  cases hok

/-- Loading a file succeeds and leaves the records of the file, or fails whatever the listing beside
it is. -/
theorem loadFile_cases (m : Machine) (files : FileTree) (path : Text) :
    (∃ records, LoadImage.ofFile files path = .ok records ∧
      records.find? LoadRecord.isBeyond = none ∧
      ∀ files', LoadImage.ofFile files' path = .ok records →
        m.loadFile files' path = ({ m with filename := path } : Machine).loadedOutcome records
          ((LoadImage.startHint? files' path records).getD (records.firstAddress?.getD 0))) ∨
    ¬ CommandOutcome.Succeeds (m.loadFile files path) ∧
      ∀ files', LoadImage.ofFile files' path = LoadImage.ofFile files path →
        m.loadFile files' path = m.loadFile files path := by
  cases hread : LoadImage.ofFile files path with
  | error f =>
    have hfailed {files' : FileTree} (h : LoadImage.ofFile files' path = .error f) :
        m.loadFile files' path = ⟨m.clear, [], Status.ofFailure "ipl" f⟩ := by
      rw [loadFile, h]
    refine .inr ⟨?_, fun files' h => (hfailed h).trans (hfailed hread).symm⟩
    rw [hfailed hread]
    exact not_succeeds_ofFailure _ _ _
  | ok records =>
    cases hfind : records.find? LoadRecord.isBeyond with
    | none =>
      refine .inl ⟨records, rfl, hfind, fun files' h => ?_⟩
      rw [loadFile_of_read m h, loadImage_eq, hfind]
    | some r =>
      have hfailed {files' : FileTree} (h : LoadImage.ofFile files' path = .ok records) :
          m.loadFile files' path =
            ({ m with filename := path } : Machine).clear.refuse "ipl" (.loadRange r.address) := by
        rw [loadFile_of_read m h, loadImage_eq, hfind]
      refine .inr ⟨?_, fun files' h => (hfailed h).trans (hfailed hread).symm⟩
      rw [hfailed hread]
      exact not_succeeds_ofFailure _ _ _

theorem succeeds_loadedOutcome (m : Machine) (records : LoadImage) (start : Int) :
    CommandOutcome.Succeeds (m.loadedOutcome records start) := ⟨_, rfl, rfl⟩

def loadMessage (records : LoadImage) : String := s!"Loaded {records.length} word(s); PC <- "

theorem message_loadedStatus (records : LoadImage) (start : Int) :
    (loadedStatus records start).message =
      loadMessage records ++ String.ofList (Numeral.octalColumn start) := rfl

theorem lookup_start_loadedStatus (records : LoadImage) (start : Int) :
    (loadedStatus records start).details.lookup "start" = some (.number start) := by
  simp [loadedStatus, Status.done, List.lookup_cons]

theorem sameButStart_loadedStatus (records : LoadImage) (start start' : Int) :
    (loadedStatus records start).SameButStart (loadedStatus records start') where
  command := by simp only [loadedStatus, Status.done]
  ok := by simp only [loadedStatus, Status.done]
  kind? := by simp only [loadedStatus, Status.done]
  start := ⟨loadMessage records, start, start', lookup_start_loadedStatus records start,
    lookup_start_loadedStatus records start', message_loadedStatus records start,
    message_loadedStatus records start'⟩
  details := by simp [loadedStatus, Status.done]

theorem sameButStart_loadedOutcome (m : Machine) (records : LoadImage) (start start' : Int) :
    CommandOutcome.SameButStart (m.loadedOutcome records start)
      (m.loadedOutcome records start') where
  machine := ⟨start', start', rfl⟩
  answer := ⟨_, _, rfl, rfl, sameButStart_loadedStatus records start start'⟩
  trace := rfl
  trace' := rfl

/-- What is left of the records that have been loaded, and that nothing else is. -/
structure HoldsOnly (m : Machine) (records : LoadImage) : Prop where
  word : ∀ a, (m.memory.get a).toNat = (records.lastAt? a).elim 0 fun r => lowBits 16 r.word
  register : ∀ r, r ≠ .pc → r ≠ .mar → m.registers.read r = 0
  state : m.state = .ready
  instructionCount : m.instructionCount = 0

theorem holdsOnly_loaded (m : Machine) (records : LoadImage) (start : Int) :
    (m.loaded records start).HoldsOnly records where
  word a := by
    change ((records.foldl Memory.deposit .zero).get a).toNat = _
    rw [Memory.get_foldl_deposit, Memory.get_zero]
    cases records.lastAt? a <;> rfl
  register r hpc hmar := by
    change (Registers.startingAt start).read r = 0
    rw [Registers.read_startingAt, if_neg (not_or.2 ⟨hpc, hmar⟩)]
  state := rfl
  instructionCount := rfl

/-- An `ipl` that succeeds leaves the words of the records and nothing of what the machine held.
With another listing beside the load file, or with none, it succeeds or fails as before, and differs
at most in PC, MAR and the start that it reports. -/
theorem loadFile_forgets (m : Machine) (files : FileTree) (path : Text) :
    (CommandOutcome.Succeeds (m.loadFile files path) →
      ∃ records, LoadImage.ofFile files path = .ok records ∧
        (m.loadFile files path).machine.HoldsOnly records) ∧
    ∀ files', files.SameButFile files' (Path.siblingListing path) →
      (CommandOutcome.Succeeds (m.loadFile files path) ↔
        CommandOutcome.Succeeds (m.loadFile files' path)) ∧
      (CommandOutcome.Succeeds (m.loadFile files path) →
        CommandOutcome.SameButStart (m.loadFile files path) (m.loadFile files' path)) ∧
      (¬ CommandOutcome.Succeeds (m.loadFile files path) →
        m.loadFile files' path = m.loadFile files path) := by
  obtain ⟨records, hread, -, hload⟩ | ⟨hfailed, hsame⟩ := loadFile_cases m files path
  · have hstart := hload files hread
    have hsucceeds : CommandOutcome.Succeeds (m.loadFile files path) := by
      rw [hstart]
      exact succeeds_loadedOutcome _ _ _
    refine ⟨fun _ => ⟨records, hread, ?_⟩, fun files' hfiles => ?_⟩
    · rw [hstart]
      exact holdsOnly_loaded _ _ _
    · have hstart' := hload files' (hfiles.ofFile_eq.trans hread)
      rw [hstart']
      refine ⟨iff_of_true hsucceeds (succeeds_loadedOutcome _ _ _), fun _ => ?_,
        fun hfailed => absurd hsucceeds hfailed⟩
      rw [hstart]
      exact sameButStart_loadedOutcome _ _ _ _
  · refine ⟨fun h => absurd h hfailed, fun files' hfiles => ?_⟩
    have hequal := hsame files' hfiles.ofFile_eq
    rw [hequal]
    exact ⟨Iff.rfl, fun h => absurd h hfailed, fun _ => rfl⟩

/-- A load file that gives address 6 twice, without a listing. -/
def unlistedFiles : FileTree :=
  ⟨[(["p_load.txt".toList],
    .file (Text.Utf8.encode "000006 002603\n7 777777\n0x6 -1\n".toList))], []⟩

theorem loadFile_unlistedFiles :
    let m := { powerOn with instructionCount := 5, memory := Memory.zero.set ⟨3, by decide⟩ 9 }
    let o := m.loadFile unlistedFiles "p_load.txt".toList
    ∃ listed, unlistedFiles.writeFile "p_listing.txt".toList [0xff, 0x20] = .ok listed ∧
      CommandOutcome.SameButStart o (m.loadFile listed "p_load.txt".toList) ∧
      (o.machine.memory.get ⟨3, by decide⟩).toNat = 0 ∧
      (o.machine.memory.get ⟨6, by decide⟩).toNat = 65535 ∧
      o.machine.registers.read .mbr = 0 := by
  intro m o
  have hsucceeds : CommandOutcome.Succeeds o := ⟨_, rfl, rfl⟩
  obtain ⟨hholds, hlisting⟩ := loadFile_forgets m unlistedFiles "p_load.txt".toList
  obtain ⟨records, hread, hholds⟩ := hholds hsucceeds
  obtain rfl := Except.ok.inj (hread.symm.trans rfl)
  have hwrite : unlistedFiles.writeFile "p_listing.txt".toList [0xff, 0x20] = .ok _ := rfl
  obtain ⟨-, hsame, -⟩ := hlisting _ (FileTree.sameButFile_of_writeFile hwrite)
  exact ⟨_, hwrite, hsame hsucceeds, hholds.word _, hholds.word _,
    hholds.register .mbr nofun nofun⟩

end Machine
end WordMachine
