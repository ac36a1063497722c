import WordMachine.Console.Basic
import WordMachine.Proofs.Assembly.OutputFiles

namespace WordMachine

def LoadRecord.isBeyond (r : LoadRecord) : Bool := (Memory.index? r.address).isNone

namespace Memory

def deposit (memory : Memory) (r : LoadRecord) : Memory :=
  match index? r.address with
  | some i => memory.set i (BitVec.ofInt 16 r.word)
  | none => memory

theorem get_deposit (memory : Memory) (r : LoadRecord) (i : Fin memorySize) :
    (memory.deposit r).get i =
      if r.address = i.val then BitVec.ofInt 16 r.word else memory.get i := by
  unfold deposit
  cases h : index? r.address with
  | none =>
    have hne : r.address ≠ i.val := by
      intro e
      rw [e, index?_val] at h
      cases h
    rw [if_neg hne]
  | some j =>
    rw [index?_eq_some_iff] at h
    simp only [get_set, h, Int.natCast_inj, Fin.val_inj]

theorem get_foldl_deposit_of_forall_ne {records : LoadImage} {i : Fin memorySize}
    (h : ∀ r ∈ records, r.address ≠ i.val) (memory : Memory) :
    (records.foldl deposit memory).get i = memory.get i := by
  induction records generalizing memory with
  | nil => rfl
  | cons r records ih =>
    rw [List.foldl_cons, ih (fun q hq => h q (List.mem_cons_of_mem r hq)), get_deposit,
      if_neg (h r List.mem_cons_self)]

/-- The last word given for an address is the one that memory holds. -/
theorem get_foldl_deposit_append {before after : LoadImage} {r : LoadRecord} {i : Fin memorySize}
    (hr : r.address = i.val) (h : ∀ q ∈ after, q.address ≠ i.val) (memory : Memory) :
    ((before ++ r :: after).foldl deposit memory).get i = BitVec.ofInt 16 r.word := by
  rw [List.foldl_append, List.foldl_cons, get_foldl_deposit_of_forall_ne h, get_deposit, if_pos hr]

theorem write_eq_deposit (memory : Memory) (r : LoadRecord) :
    memory.write r.address r.word =
      if r.isBeyond then .error (.memoryRange r.address) else .ok (memory.deposit r) := by
  unfold write inRange LoadRecord.isBeyond deposit
  cases index? r.address <;> rfl

theorem ofRecords_eq (records : LoadImage) :
    ofRecords records = match records.find? LoadRecord.isBeyond with
      | some r => .error (.loadRange r.address)
      | none => .ok (records.foldl deposit zero) := by
  unfold ofRecords
  generalize zero = memory
  induction records generalizing memory with
  | nil => rfl
  | cons r records ih =>
    rw [List.foldlM_cons, write_eq_deposit, List.find?_cons, List.foldl_cons]
    cases r.isBeyond with
    | true => rfl
    | false => exact ih (memory.deposit r)

theorem ofRecords_of_fits {records : LoadImage} (h : ∀ r ∈ records, r.Fits) :
    ofRecords records = .ok (records.foldl deposit zero) := by
  have hnone : records.find? LoadRecord.isBeyond = none := by
    rw [List.find?_eq_none]
    intro r hr
    have hlow := (h r hr).address_nonneg
    have hhigh := (h r hr).address_lt
    rw [LoadRecord.isBeyond, Option.isNone_iff_eq_none, index?_eq_none_iff]
    omega
  rw [ofRecords_eq, hnone]

end Memory

theorem lowBits_of_le_memorySize {n : Nat} (h : n ≤ memorySize) : lowBits 12 (n : Int) = n := by
  rw [lowBits, BitVec.ofInt_natCast, BitVec.toNat_ofNat]
  exact Nat.mod_eq_of_lt (Nat.lt_of_le_of_lt h (by decide))

namespace Registers

/-- The registers after loading: zero, but for PC and MAR, which hold the start. -/
def startingAt (start : Int) : Registers := (zero.write .pc start).write .mar start

theorem read_zero (r : Register) : zero.read r = 0 := by
  cases r <;> simp [zero, read]

theorem read_startingAt (start : Int) (r : Register) :
    (startingAt start).read r = if r = .pc ∨ r = .mar then lowBits 12 start else 0 := by
  rw [startingAt]
  by_cases hmar : r = .mar
  · subst hmar
    rw [read_write_self, if_pos (.inr rfl)]
    rfl
  · rw [read_write_of_ne _ _ (Ne.symm hmar)]
    by_cases hpc : r = .pc
    · subst hpc
      rw [read_write_self, if_pos (.inl rfl)]
      rfl
    · rw [read_write_of_ne _ _ (Ne.symm hpc), read_zero, if_neg (not_or.2 ⟨hpc, hmar⟩)]

theorem startingAt_eq_iff (start start' : Int) :
    startingAt start = startingAt start' ↔ lowBits 12 start = lowBits 12 start' := by
  constructor
  · intro h
    exact congrArg (fun s : Registers => s.pc.toNat) h
  · intro h
    have hpc : BitVec.ofInt 12 start = BitVec.ofInt 12 start' := BitVec.eq_of_toNat_eq h
    simp only [startingAt, write, hpc]

end Registers

def CommandOutcome.Succeeds (o : CommandOutcome) : Prop := ∃ s, o.answer = .ok s ∧ s.ok = true

namespace Machine

def loaded (m : Machine) (records : LoadImage) (start : Int) : Machine :=
  { m.clear with
    memory := records.foldl Memory.deposit .zero
    registers := .startingAt start }

variable {records : LoadImage}

theorem loadImage_of_fits (h : ∀ r ∈ records, r.Fits) (m : Machine) (start? : Option Int) :
    (m.loadImage records start?).machine =
      m.loaded records (start?.getD (records.firstAddress?.getD 0)) := by
  simp only [loadImage, Memory.ofRecords_of_fits h]
  rfl

theorem succeeds_loadImage (h : ∀ r ∈ records, r.Fits) (m : Machine) (start? : Option Int) :
    CommandOutcome.Succeeds (m.loadImage records start?) := by
  simp only [CommandOutcome.Succeeds, loadImage, Memory.ofRecords_of_fits h]
  exact ⟨_, rfl, rfl⟩

theorem loadFile_of_read {files : FileTree} {path : Text} (m : Machine)
    (h : LoadImage.ofFile files path = .ok records) :
    m.loadFile files path =
      ({ m with filename := path } : Machine).loadImage records
        (LoadImage.startHint? files path records) := by
  rw [loadFile, h]
  rfl

end Machine

namespace Assembly

variable {text : Text} {a : Assembly}

/-- The address at which an assembly starts when it is loaded: 0 if it has no words. -/
def start (a : Assembly) : Int := a.startAddress?.getD 0

theorem firstAddress?_eq_none (h : a.startAddress? = none) : a.firstAddress? = none := by
  unfold startAddress? at h
  split at h
  · cases h
  · exact h

theorem getD_startAddress? (a : Assembly) :
    a.startAddress?.getD ((LoadImage.firstAddress? a.records).getD 0) = a.start := by
  rw [start]
  cases hs : a.startAddress? with
  | some address => rfl
  | none =>
    have hfirst := firstAddress?_eq_none hs
    rw [firstAddress?] at hfirst
    rw [hfirst]
    rfl

theorem loadImage_records (h : ofText text = .ok a) (m : Machine) :
    (m.loadImage a.records a.startAddress?).machine = m.loaded a.records a.start := by
  rw [Machine.loadImage_of_fits (fun r hr => fits_of_mem_records h hr), getD_startAddress?]

theorem loadImage_shown (h : ofText text = .ok a) (m : Machine) :
    (m.loadImage a.records (LoadImage.shownStart? a.listing a.records)).machine =
      m.loaded a.records ((a.decoyAddress?.map Int.ofNat).getD a.start) := by
  rw [shownStart?_eq h]
  cases a.decoyAddress? with
  | none => exact loadImage_records h m
  | some address => exact Machine.loadImage_of_fits (fun r hr => fits_of_mem_records h hr) m _

/-- Loading the output files of an assembly and loading its records give the same machine exactly
if no decoy shows another start. A start shown by a decoy changes PC and MAR alone, and nothing if
it agrees with the start of the assembly in its low 12 bits. -/
theorem loadFile_agrees_with_loadImage_iff (h : ofText text = .ok a) :
    (LoadImage.shownStart? a.listing a.records = a.startAddress? ↔
      ∀ address, a.decoyAddress? = some address → a.startAddress? = some (address : Int)) ∧
    ∀ (t t' : FileTree) (source outDir : Text) (w : WrittenAssembly),
      t.readText source = .ok text → t.assembleFile source outDir = (t', .ok w) →
      ∀ m : Machine,
        let byFile := m.loadFile t' w.loadPath
        let inMemory := m.loadImage a.records a.startAddress?
        CommandOutcome.Succeeds byFile ∧ CommandOutcome.Succeeds inMemory ∧
        byFile.machine.memory = inMemory.machine.memory ∧
        byFile.machine.state = inMemory.machine.state ∧
        byFile.machine.instructionCount = inMemory.machine.instructionCount ∧
        (byFile.machine.registers = inMemory.machine.registers ↔
          ∀ address, a.decoyAddress? = some address →
            lowBits 12 (address : Int) = lowBits 12 a.start) := by
  refine ⟨shownStart?_eq_iff h, ?_⟩
  intro t t' source outDir w hread hassemble m byFile inMemory
  obtain ⟨-, hpaths, t₀, t₁, hlisting, hload⟩ := FileTree.assembleFile_eq_ok hassemble
  have hw := WrittenAssembly.ofText hassemble hread
  obtain rfl : a = w.assembly := Except.ok.inj (h.symm.trans hw)
  have hlistingPath : w.listingPath = (Path.outputs source outDir).1 := congrArg Prod.fst hpaths
  have hloadPath : w.loadPath = (Path.outputs source outDir).2 := congrArg Prod.snd hpaths
  rw [hlistingPath] at hlisting
  rw [hloadPath] at hload
  obtain ⟨hfile, hhint⟩ := LoadImage.ofFile_startHint?_outputs h hlisting hload
  have hfits : ∀ r ∈ w.assembly.records, r.Fits := fun r hr => fits_of_mem_records h hr
  -- The load file gives the records and the listing beside it the start.
  have hby : byFile = ({ m with filename := w.loadPath } : Machine).loadImage w.assembly.records
      (LoadImage.shownStart? w.assembly.listing w.assembly.records) := by
    rw [← hhint, ← hloadPath]
    exact Machine.loadFile_of_read m (hloadPath ▸ hfile)
  have hbyMachine : byFile.machine = _ := hby ▸ loadImage_shown h _
  have hinMachine : inMemory.machine = _ := loadImage_records h m
  rw [hbyMachine, hinMachine]
  refine ⟨hby ▸ Machine.succeeds_loadImage hfits _ _, Machine.succeeds_loadImage hfits _ _,
    rfl, rfl, rfl, ?_⟩
  change Registers.startingAt _ = Registers.startingAt _ ↔ _
  rw [Registers.startingAt_eq_iff]
  cases w.assembly.decoyAddress? with
  | none => simp
  | some address => simp

/-- A program that starts at 6. Its first line is a decoy at address 0. -/
def decoyProgram : Text := "000000: ; entry point of the program\n LOC 6\n LDR 1,2,3\n".toList

def decoyFiles : FileTree := ⟨[(["program.asm".toList], .file (Text.Utf8.encode decoyProgram))], []⟩

theorem decoyProgram_loads_elsewhere :
    ∃ a t' w, ofText decoyProgram = .ok a ∧
      decoyFiles.assembleFile "program.asm".toList "out".toList = (t', .ok w) ∧
      (Machine.powerOn.loadFile t' w.loadPath).machine.memory =
        (Machine.powerOn.loadImage a.records a.startAddress?).machine.memory ∧
      (Machine.powerOn.loadFile t' w.loadPath).machine.registers ≠
        (Machine.powerOn.loadImage a.records a.startAddress?).machine.registers := by
  refine ⟨_, _, _, rfl, rfl, ?_⟩
  have h := (@loadFile_agrees_with_loadImage_iff decoyProgram _ rfl).2 decoyFiles _
    "program.asm".toList "out".toList _ rfl rfl .powerOn
  obtain ⟨-, -, hmemory, -, -, hregisters⟩ := h
  refine ⟨hmemory, fun heq => ?_⟩
  exact absurd (hregisters.1 heq 0 rfl) (by decide)

theorem not_forall_shownStart?_eq : ¬ ∀ (text : Text) (a : Assembly), ofText text = .ok a →
    LoadImage.shownStart? a.listing a.records = a.startAddress? := by
  intro h
  exact absurd (h decoyProgram _ rfl) (by decide)

end Assembly
end WordMachine
