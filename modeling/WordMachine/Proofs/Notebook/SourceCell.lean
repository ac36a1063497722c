import WordMachine.Proofs.Assembly.Execution
import WordMachine.Proofs.Notebook.Dispatch

namespace WordMachine

open Layout Emission

namespace SourceLine

variable {t t' : Text}

theorem codeWords_concat {c : Char} (t : Text) (hc : Text.isBlank c = true) :
    codeWords (t ++ [c]) = codeWords t := by
  rw [codeWords, codeWords]
  rcases Text.cut_concat_fst ';' c t with h | h
  · rw [h]
  · rw [h, Text.words_concat_of_isBlank _ hc]

theorem statement?_congr (h : codeWords t = codeWords t') :
    (read t).statement? = (read t').statement? := by
  rw [read_eq, read_eq, h]
  rfl

end SourceLine

theorem statements_eq_flatMap (t : Text) :
    statements t = (Text.splitWhere Text.isLineBreak t).flatMap fun l =>
      (SourceLine.read l).statement?.toList := by
  rw [statements, List.filterMap_eq_flatMap_toList]
  exact Text.flatMap_lines rfl t

theorem statements_concat {c : Char} (t : Text) (hc : Text.isBlank c = true) :
    statements (t ++ [c]) = statements t := by
  rw [statements_eq_flatMap, statements_eq_flatMap]
  by_cases hbreak : Text.isLineBreak c = true
  · rw [Text.splitWhere_append_sep t [] hbreak, List.flatMap_append]
    exact List.append_nil _
  · obtain ⟨ps, p, hps, hlast⟩ := Text.exists_splitWhere_concat Text.isLineBreak t
    rw [hps, hlast c (by simpa using hbreak), List.flatMap_append, List.flatMap_append]
    simp only [List.flatMap_cons, SourceLine.statement?_congr (SourceLine.codeWords_concat p hc)]

theorem statements_trimRight (t : Text) : statements (Text.trimRight t) = statements t :=
  Text.apply_trimRight (fun t _ hc => statements_concat t hc) t

theorem Settled.of_place {symbols : SymbolTable} {p : PlacedLine} {address : Nat}
    (h : Settled symbols p) (hplace : p.place = .at address) :
    address < memorySize ∧ ∃ w, p.word? = some w := by
  rcases h with hop | ⟨hop, hloc⟩ | ⟨hop, hloc, haddress, hvalue⟩
  · cases hplace
  · cases hplace
  · cases hplace
    exact ⟨haddress, _, rfl⟩

namespace Assembly

variable {text : Text} {a : Assembly}

/-- The word of the last line at an address, or zero if no line stands there. -/
def wordAt (a : Assembly) (address : Nat) : Word :=
  ((a.lines.reverse.find? fun p => p.place = .at address).bind (·.word?)).getD 0

theorem get_loaded_eq_wordAt (h : ofText text = .ok a) (m : Machine) (start : Int)
    (i : Fin memorySize) : (m.loaded a.records start).memory.get i = a.wordAt i := by
  have hmachine : (m.loadImage a.records (some start)).machine = m.loaded a.records start :=
    Machine.loadImage_of_fits (fun r hr => fits_of_mem_records h hr) m (some start)
  cases hfind : a.lines.reverse.find? fun p => decide (p.place = .at i.val) with
  | none =>
    rw [wordAt, hfind]
    have hother : ∀ r ∈ a.records, r.address ≠ (i.val : Int) := by
      apply PlacedLine.address_ne_of_place_ne
      intro p hp
      simpa using List.find?_eq_none.1 hfind p (List.mem_reverse.2 hp)
    exact (Memory.get_foldl_deposit_of_forall_ne hother .zero).trans (Memory.get_zero i)
  | some p =>
    obtain ⟨hplace, after, before, hlines, hafter⟩ := List.find?_eq_some_iff_append.1 hfind
    -- The line found first from the end is the last one at the address.
    have hlines : a.lines = before.reverse ++ p :: after.reverse := by
      rw [← List.reverse_reverse a.lines, hlines]
      simp
    have hplace : p.place = .at i.val := of_decide_eq_true hplace
    have hp : p ∈ a.lines := by simp [hlines]
    obtain ⟨-, w, hw⟩ := (settled_of_mem h hp).of_place hplace
    have hlast : ∀ q ∈ after.reverse, q.place ≠ .at i.val := by
      intro q hq
      simpa using hafter q (List.mem_reverse.1 hq)
    rw [← hmachine, get_loaded h hlines hplace hlast hw rfl, wordAt, hfind, Option.bind_some, hw,
      Option.getD_some]

theorem exists_start (h : ofText text = .ok a) :
    ∃ start < memorySize, a.start = (start : Int) ∧
      (a.startAddress? = some (start : Int) ∨ a.records = [] ∧ start = 0) := by
  rw [start]
  cases hs : a.startAddress? with
  | none =>
    have hfirst := firstAddress?_eq_none hs
    refine ⟨0, by decide, rfl, .inr ⟨?_, rfl⟩⟩
    rw [firstAddress?, LoadImage.firstAddress?, Option.map_eq_none_iff] at hfirst
    exact List.head?_eq_none_iff.1 hfirst
  | some s =>
    -- The start is the address of a line or of a record, and both are in memory.
    suffices hrange : ∃ address < memorySize, s = ((address : Nat) : Int) by
      obtain ⟨address, hlt, rfl⟩ := hrange
      exact ⟨address, hlt, rfl, .inl rfl⟩
    unfold startAddress? at hs
    split at hs
    · next address hfound =>
      cases hs
      obtain ⟨p, hp, hpa⟩ := List.exists_of_findSome?_eq_some hfound
      unfold PlacedLine.instructionAddress? at hpa
      split at hpa
      · next n op hplace hop =>
        split at hpa
        · cases hpa
        · cases hpa
          exact ⟨_, ((settled_of_mem h hp).of_place hplace).1, rfl⟩
      · cases hpa
    · rw [firstAddress?, LoadImage.firstAddress?] at hs
      obtain ⟨r, hr, rfl⟩ := Option.map_eq_some_iff.1 hs
      have hfits := fits_of_mem_records h (List.mem_of_head? hr)
      have hnonneg := hfits.address_nonneg
      have hlt := hfits.address_lt
      exact ⟨r.address.toNat, by omega, by omega⟩

end Assembly

structure Machine.HasLoaded (m : Machine) (a : Assembly) (start : Nat) : Prop where
  state : m.state = .ready
  register : ∀ r, m.registers.read r = if r = .pc ∨ r = .mar then start else 0
  word : ∀ i, m.memory.get i = a.wordAt i.val

theorem Machine.hasLoaded_loaded {text : Text} {a : Assembly} (h : Assembly.ofText text = .ok a)
    (m : Machine) {start : Nat} (hstart : start < memorySize) :
    (m.loaded a.records start).HasLoaded a start where
  state := rfl
  register r := by
    have hlow := lowBits_of_le_memorySize (Nat.le_of_lt hstart)
    exact (Registers.read_startingAt start r).trans (by rw [hlow])
  word := Assembly.get_loaded_eq_wordAt h m start

namespace Notebook

def failureMessage : Failure → String
  | .reported cause line? => "Assembly error: " ++ locatedMessage line? cause.message
  | .aborted abort => abort.message

def loadMessage (words start : Nat) : String :=
  s!"Loaded {words} word(s); PC <- " ++ String.ofList (Numeral.octalColumn start)

/-- What is shown when an assembly is loaded: its listing, PC and MAR while debugging is on, and the
message of the load. -/
def loadEvents (debug : Bool) (a : Assembly) (start : Nat) : List Event :=
  .output (String.ofList a.listing) ::
    ((if debug then [TraceLine.register .pc start, .register .mar start] else []).map
      (fun line => outputLine line.text) ++ [outputLine (loadMessage a.records.length start)])

theorem runSource_of_error {text : Text} {f : Failure} (h : Assembly.ofText text = .error f)
    (m : Machine) : runSource m text = ⟨m, [errorLine (failureMessage f)]⟩ := by
  rw [runSource, h]
  cases f <;> rfl

/-- Loading an assembly never fails. -/
theorem exists_loadImage_eq {text : Text} {a : Assembly} (h : Assembly.ofText text = .ok a)
    (m : Machine) {start : Nat} (hstart : a.start = (start : Int)) :
    ∃ details, m.loadImage a.records a.startAddress? =
      let loaded := m.loaded a.records start
      ⟨loaded, m.shown [loaded.writeLine .pc, loaded.writeLine .mar],
        .ok (.done "ipl" (loadMessage a.records.length start) details)⟩ := by
  have hfits : ∀ r ∈ a.records, r.Fits := fun r hr => Assembly.fits_of_mem_records h hr
  simp only [Machine.loadImage, Memory.ofRecords_of_fits hfits, a.getD_startAddress?, hstart]
  exact ⟨_, rfl⟩

theorem runSource_of_ok {text : Text} {a : Assembly} (h : Assembly.ofText text = .ok a)
    (m : Machine) {start : Nat} (hlt : start < memorySize) (hstart : a.start = (start : Int)) :
    runSource m text = ⟨m.loaded a.records start, loadEvents m.debug a start⟩ := by
  have hloaded := Machine.hasLoaded_loaded h m hlt
  have hpc : (m.loaded a.records start).writeLine .pc = .register .pc start := by
    rw [Machine.writeLine, hloaded.register, if_pos (.inl rfl)]
  have hmar : (m.loaded a.records start).writeLine .mar = .register .mar start := by
    rw [Machine.writeLine, hloaded.register, if_pos (.inr rfl)]
  have hmessage : loadMessage a.records.length start ≠ "" := by simp [loadMessage]
  obtain ⟨details, hload⟩ := exists_loadImage_eq h m hstart
  rw [runSource, h]
  simp only [hload, hpc, hmar, commandEvents, statusEvents, Status.done, if_true, if_neg hmessage]
  rfl

/-- A source cell that cannot be assembled shows one error and changes nothing. Any other is loaded,
which cannot fail: its listing is shown and then what loading shows, and the machine is ready at the
start, with the words of the assembly in its memory. -/
theorem source_cell_fate {code : Text} (h : isCommandCell code = false) (m : Machine)
    (files : FileTree) :
    (∀ f, Assembly.ofText code = .error f →
      ∃ f', Assembly.ofText (Text.trimRight code) = .error f' ∧
        runCell m files code = ⟨m, [errorLine (failureMessage f')]⟩) ∧
    ∀ a, Assembly.ofText code = .ok a →
      ∃ shown start, Assembly.ofText (Text.trimRight code) = .ok shown ∧ shown.code = a.code ∧
        (a.startAddress? = some ((start : Nat) : Int) ∨ a.records = [] ∧ start = 0) ∧
        (runCell m files code).events = loadEvents m.debug shown start ∧
        (runCell m files code).machine.HasLoaded a start := by
  rw [runCell_of_not_isCommandCell h]
  -- The cell is assembled without the blanks at its end, which state nothing.
  have hsame := Assembly.code_eq_of_statements_eq (statements_trimRight code).symm
  refine ⟨fun f hf => ?_, fun a ha => ?_⟩
  · obtain ⟨a, a', ha, -⟩ | ⟨f₀, f', -, hf'⟩ := hsame
    · cases hf.symm.trans ha
    · exact ⟨f', hf', runSource_of_error hf' m⟩
  · obtain ⟨a₀, shown, ha₀, hshown, hcode⟩ | ⟨f, f', hf, -⟩ := hsame
    · obtain rfl := Except.ok.inj (ha.symm.trans ha₀)
      obtain ⟨start, hlt, hstart, hcases⟩ := Assembly.exists_start ha
      obtain ⟨hrecords, -, -, hstart?⟩ := Assembly.Code.mk.inj hcode
      have hshownStart : shown.start = (start : Int) := by
        rw [← hstart, Assembly.start, Assembly.start, hstart?]
      rw [runSource_of_ok hshown m hlt hshownStart, ← hrecords]
      exact ⟨shown, start, hshown, hcode.symm, hcases, rfl, Machine.hasLoaded_loaded ha m hlt⟩
    · cases ha.symm.trans hf

/-- A cell that puts two words at address 7 and ends in blank lines. -/
def overlappingCell : Text := " LOC 6\n Data 1\n Data 2\n LOC 7\nLast: Data 3\n \n\n".toList

def misspelledCell : Text := " HLT\n LDD 1,0,6\n\n".toList

theorem overlappingCell_or_misspelledCell :
    let m : Machine := { Machine.powerOn with debug := true }
    let o := runCell m ⟨[], []⟩ overlappingCell
    (∃ message, runCell m ⟨[], []⟩ misspelledCell = ⟨m, [errorLine message]⟩) ∧
      o.events.length = 4 ∧ o.machine.registers.read .pc = 6 ∧
      o.machine.memory.get ⟨6, by decide⟩ = 1 ∧ o.machine.memory.get ⟨7, by decide⟩ = 3 := by
  intro m o
  obtain ⟨hfailed, -⟩ := @source_cell_fate misspelledCell rfl m ⟨[], []⟩
  obtain ⟨-, hloaded⟩ := @source_cell_fate overlappingCell rfl m ⟨[], []⟩
  obtain ⟨f', -, hcell⟩ := hfailed _ rfl
  obtain ⟨shown, start, -, -, hstart, hevents, -, hregister, hword⟩ := hloaded _ rfl
  obtain rfl : start = 6 := by
    rcases hstart with h | ⟨h, -⟩
    · exact (Int.ofNat_inj.1 (Option.some.inj h)).symm
    · cases h
  refine ⟨⟨_, hcell⟩, ?_, ?_, ?_, ?_⟩
  · rw [hevents]
    rfl
  · rw [hregister, if_pos (.inl rfl)]
  · rw [hword]
    rfl
  · rw [hword]
    rfl

end Notebook
end WordMachine
