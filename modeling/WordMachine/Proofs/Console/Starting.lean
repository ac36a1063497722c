import WordMachine.Proofs.Console.Forgetting

namespace WordMachine

namespace LoadImage

def listedStart? (t : FileTree) (path : Text) : Option Nat :=
  if t.hasFile (Path.siblingListing path) then
    match t.readText (Path.siblingListing path) with
    | .ok text => firstInstruction? text
    | .error _ => none
  else none

theorem startHint?_eq (t : FileTree) (path : Text) (records : LoadImage) :
    startHint? t path records = match listedStart? t path with
      | some address => some (address : Int)
      | none => records.firstAddress? := by
  unfold startHint? listedStart?
  simp only
  cases t.hasFile (Path.siblingListing path) with
  | false => rfl
  | true =>
    simp only [if_true]
    cases t.readText (Path.siblingListing path) with
    | error e => rfl
    | ok text =>
      simp only
      cases firstInstruction? text <;> rfl

theorem getD_startHint? (t : FileTree) (path : Text) (records : LoadImage) :
    (startHint? t path records).getD (records.firstAddress?.getD 0) =
      (listedStart? t path).elim (records.firstAddress?.getD 0) fun start => (start : Int) := by
  rw [startHint?_eq]
  cases listedStart? t path with
  | some start => rfl
  | none => cases records.firstAddress? <;> rfl

end LoadImage

namespace CommandOutcome

/-- A success that reports a start, of which PC and MAR hold the low 12 bits. -/
structure Reports (o : CommandOutcome) (start : Int) : Prop where
  detail : ∃ s, o.answer = .ok s ∧ s.ok = true ∧ s.details.lookup "start" = some (.number start)
  pc : o.machine.registers.read .pc = lowBits 12 start
  mar : o.machine.registers.read .mar = lowBits 12 start

/-- PC and MAR are at the start that is reported, and it is an address of memory. -/
def StartsAsReported (o : CommandOutcome) : Prop :=
  ∃ start : Fin memorySize, o.Reports start.val ∧ o.machine.registers.read .pc = start.val ∧
    o.machine.registers.read .mar = start.val

theorem Reports.unique {o : CommandOutcome} {start start' : Int} (h : o.Reports start)
    (h' : o.Reports start') : start = start' := by
  obtain ⟨s, hs, -, hlookup⟩ := h.detail
  obtain ⟨s', hs', -, hlookup'⟩ := h'.detail
  obtain rfl := Except.ok.inj (hs.symm.trans hs')
  exact Datum.number.inj (Option.some.inj (hlookup.symm.trans hlookup'))

/-- What is reported is true exactly if it is an address of memory. -/
theorem Reports.startsAsReported_iff_inMemory {o : CommandOutcome} {start : Int}
    (h : o.Reports start) :
    o.StartsAsReported ↔ 0 ≤ start ∧ start < memorySize := by
  constructor
  · rintro ⟨a, hreports, -, -⟩
    have hlt := a.isLt
    rw [h.unique hreports]
    omega
  · rintro ⟨hnonneg, hlt⟩
    obtain ⟨n, rfl⟩ := Int.eq_ofNat_of_zero_le hnonneg
    have hlt := Int.ofNat_lt.1 hlt
    have hlow := lowBits_of_le_memorySize (Nat.le_of_lt hlt)
    exact ⟨⟨n, hlt⟩, h, h.pc.trans hlow, h.mar.trans hlow⟩

end CommandOutcome

namespace Machine

variable {records : LoadImage}

theorem reports_loadedOutcome (m : Machine) (records : LoadImage) (start : Int) :
    CommandOutcome.Reports (m.loadedOutcome records start) start where
  detail := ⟨_, rfl, rfl, lookup_start_loadedStatus records start⟩
  pc := (Registers.read_startingAt start .pc).trans (if_pos (.inl rfl))
  mar := (Registers.read_startingAt start .mar).trans (if_pos (.inr rfl))

theorem firstAddress_inMemory (h : records.find? LoadRecord.isBeyond = none) :
    0 ≤ records.firstAddress?.getD 0 ∧ records.firstAddress?.getD 0 < memorySize := by
  cases records with
  | nil => exact ⟨Int.le_refl _, by decide⟩
  | cons r records =>
    have hbeyond := List.find?_eq_none.1 h r List.mem_cons_self
    rw [LoadRecord.isBeyond, Option.isNone_iff_eq_none, Memory.index?_eq_none_iff] at hbeyond
    change 0 ≤ r.address ∧ r.address < memorySize
    omega

theorem find?_eq_none_of_succeeds {m : Machine} {start? : Option Int}
    (h : CommandOutcome.Succeeds (m.loadImage records start?)) :
    records.find? LoadRecord.isBeyond = none := by
  rw [loadImage_eq] at h
  split at h
  · exact absurd h (not_succeeds_ofFailure _ _ _)
  · next hfind => exact hfind

/-- An `ipl` that succeeds reports the start that is given or that the listing shows, or else the
first record, and its low 12 bits are in PC and MAR. It is where they stand, and an address of
memory, exactly if the start that is given or that the listing shows is one; without such a start it
always is. -/
theorem startsAsReported_iff (m : Machine) :
    (∀ (records : LoadImage) (start? : Option Int),
      CommandOutcome.Succeeds (m.loadImage records start?) →
      CommandOutcome.Reports (m.loadImage records start?)
        (start?.getD (records.firstAddress?.getD 0)) ∧
      (CommandOutcome.StartsAsReported (m.loadImage records start?) ↔
        ∀ start, start? = some start → 0 ≤ start ∧ start < memorySize)) ∧
    ∀ (files : FileTree) (path : Text), CommandOutcome.Succeeds (m.loadFile files path) →
      (∃ records, LoadImage.ofFile files path = .ok records ∧
        CommandOutcome.Reports (m.loadFile files path)
          ((LoadImage.listedStart? files path).elim (records.firstAddress?.getD 0) fun start =>
            (start : Int))) ∧
      (CommandOutcome.StartsAsReported (m.loadFile files path) ↔
        ∀ start, LoadImage.listedStart? files path = some start → start < memorySize) := by
  constructor
  · intro records start? h
    -- Records that have been loaded are in memory, and so is the first of them.
    have hfind := find?_eq_none_of_succeeds h
    have hreports := reports_loadedOutcome m records (start?.getD (records.firstAddress?.getD 0))
    rw [loadImage_eq, hfind]
    refine ⟨hreports, hreports.startsAsReported_iff_inMemory.trans ?_⟩
    cases start? with
    | none => exact iff_of_true (firstAddress_inMemory hfind) nofun
    | some start => simp
  · intro files path h
    obtain ⟨records, hread, hfind, hload⟩ | ⟨hfailed, -⟩ := loadFile_cases m files path
    · have hreports := reports_loadedOutcome { m with filename := path } records
        ((LoadImage.startHint? files path records).getD (records.firstAddress?.getD 0))
      rw [← hload files hread, LoadImage.getD_startHint?] at hreports
      refine ⟨⟨records, hread, hreports⟩, hreports.startsAsReported_iff_inMemory.trans ?_⟩
      cases LoadImage.listedStart? files path with
      | none => exact iff_of_true (firstAddress_inMemory hfind) nofun
      | some start => simp
    · exact absurd h hfailed

/-- A load file of one word at address 6, and a listing that shows it beyond memory. -/
def strayFiles : FileTree :=
  ⟨[(["p_load.txt".toList], .file (Text.Utf8.encode "000006 002603\n".toList)),
    (["p_listing.txt".toList],
      .file (Text.Utf8.encode "777777  002603  LDR 1,2,3\n".toList))], []⟩

theorem strayFiles_startsElsewhere :
    CommandOutcome.StartsAsReported (powerOn.loadImage [⟨6, 0o002603⟩] none) ∧
    ¬ CommandOutcome.StartsAsReported (powerOn.loadFile strayFiles "p_load.txt".toList) := by
  obtain ⟨himage, hfile⟩ := startsAsReported_iff powerOn
  refine ⟨(himage _ none ⟨_, rfl, rfl⟩).2.2 nofun, fun h => ?_⟩
  have hlisted := (hfile strayFiles "p_load.txt".toList ⟨_, rfl, rfl⟩).2.1 h 0o777777 rfl
  exact absurd hlisted (by decide)

theorem not_forall_startsAsReported : ¬ ∀ (m : Machine) (files : FileTree) (path : Text),
    CommandOutcome.Succeeds (m.loadFile files path) →
      CommandOutcome.StartsAsReported (m.loadFile files path) := by
  intro h
  obtain ⟨start, -, hpc, -⟩ := h powerOn strayFiles "p_load.txt".toList ⟨_, rfl, rfl⟩
  have hregister : (powerOn.loadFile strayFiles "p_load.txt".toList).machine.registers.read .pc =
      4095 := rfl
  have hlt : start.val < 2048 := start.isLt
  omega

end Machine
end WordMachine
