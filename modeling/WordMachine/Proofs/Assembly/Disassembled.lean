import WordMachine.Proofs.Assembly.Determined
import WordMachine.Proofs.Assembly.Restating
import WordMachine.Proofs.Assembly.StartAddress

namespace WordMachine

/-- All operations but the directive are placed alike. -/
theorem Layout.placeOperation_congr {symbols : SymbolTable} {counter : Nat} {number : Int}
    {op op' : Text} {operands operands' : List Text} (h : isLoc op = false)
    (h' : isLoc op' = false) :
    placeOperation symbols counter number op operands =
      placeOperation symbols counter number op' operands' := by
  simp only [placeOperation, h, h', Bool.false_eq_true, if_false]

namespace PlacedLine

/-- A line put down anew from its label and its word. A line that takes no word is kept. -/
def disassembled (p : PlacedLine) : Text :=
  match p.line.op?, p.word? with
  | some op, some w => SourceLine.labelled p.line.label? (wordText op w)
  | _, _ => p.line.text

theorem disassembled_of_word? {p : PlacedLine} (h : p.word? = none) :
    p.disassembled = p.line.text := by
  rw [disassembled, h]
  cases p.line.op? <;> rfl

def restated (p : PlacedLine) : PlacedLine := { p with line := SourceLine.read p.disassembled }

/-- How a line that is read from `t` is put down anew. -/
inductive PutDown (symbols : SymbolTable) (t : Text) : PlacedLine → Prop
  | kept {p : PlacedLine} (htext : p.disassembled = t) (hp : p.restated = p)
    (hsettled : Settled symbols p) : PutDown symbols t p
  | word {p : PlacedLine} {op name : Text} {operands : List Text} {w : Word} {address : Nat}
    (hop : p.line.op? = some op) (hloc : Layout.isLoc op = false) (hplace : p.place = .at address)
    (haddress : address < memorySize) (hword : p.word? = some w)
    (hrestates : Restates w op name operands)
    (hreadable : (SourceLine.plain p.line.label? name operands).Readable name)
    (htext : p.disassembled =
      SourceLine.labelled p.line.label? (SourceLine.plainCode name operands)) : PutDown symbols t p

end PlacedLine

theorem Settled.putDown {symbols : SymbolTable} {p : PlacedLine} {t : Text} (h : Settled symbols p)
    (ht : p.line = SourceLine.read t) : p.PutDown symbols t := by
  have hkept (hword : p.word? = none) : p.PutDown symbols t := by
    have htext : p.disassembled = t := by
      rw [PlacedLine.disassembled_of_word? hword, ht, SourceLine.text_read]
    refine .kept htext ?_ h
    rw [PlacedLine.restated, htext, ← ht]
  cases h with
  | silent hop => exact hkept rfl
  | directive hop hloc => exact hkept rfl
  | @word line op address number v hop hloc haddress hvalue =>
    obtain ⟨name, operands, htext, hrestates⟩ := exists_restates hvalue
    have hlabel : ∀ label ∈ line.label?, SourceLine.IsCodeWord (label ++ [':']) := by
      simp only at ht
      subst ht
      exact (SourceLine.readable_read hop).label
    refine .word hop hloc rfl haddress rfl hrestates (hrestates.readable hlabel) ?_
    simp only [PlacedLine.disassembled, hop, htext]

namespace PlacedLine.PutDown

variable {symbols : SymbolTable} {p : PlacedLine} {t : Text}

theorem settled (h : p.PutDown symbols t) : Settled symbols p.restated := by
  cases h with
  | kept htext hp hsettled => exact hp.symm ▸ hsettled
  | @word op name operands w address hop hloc hplace haddress hword hrestates hreadable htext =>
    have hw : p.word? = some (BitVec.ofInt 16 (w.toNat : Int)) := by
      rw [hword]
      simp
    rw [restated, htext, SourceLine.read_plain hreadable, hplace, hw]
    exact .word rfl hrestates.loc haddress (hrestates.valued symbols 0)

/-- A line put down anew takes the same place and defines the same label. -/
theorem step_eq (h : p.PutDown symbols t) (s : SymbolTable) (counter : Nat) (number : Int) :
    Layout.step s counter number (SourceLine.read p.disassembled) =
      Layout.step s counter number p.line := by
  cases h with
  | kept htext hp hsettled => exact congrArg (Layout.step s counter number ·.line) hp
  | word hop hloc hplace haddress hword hrestates hreadable htext =>
    rw [htext, SourceLine.read_plain hreadable]
    simp only [Layout.step, SourceLine.plain, hop]
    split
    · rfl
    · exact Layout.placeOperation_congr hrestates.loc hloc

theorem instructionAddress?_restated (h : p.PutDown symbols t) :
    p.restated.instructionAddress? = p.instructionAddress? := by
  cases h with
  | kept htext hp hsettled => rw [hp]
  | word hop hloc hplace haddress hword hrestates hreadable htext =>
    rw [restated, htext, SourceLine.read_plain hreadable]
    simp only [instructionAddress?, SourceLine.plain, hop, hplace, hrestates.data]

theorem isLineBreak_eq_false (h : p.PutDown symbols t) (ht : ∀ c ∈ t, Text.isLineBreak c = false) :
    ∀ c ∈ p.disassembled, Text.isLineBreak c = false := by
  cases h with
  | kept htext hp hsettled => exact htext ▸ ht
  | @word op name operands w address hop hloc hplace haddress hword hrestates hreadable htext =>
    rw [htext, ← (SourceLine.write_plain p.line.label? name operands).2]
    exact fun c hc => (hreadable.isCodeChar_of_mem_codeText c hc).isLineBreak_eq_false

end PlacedLine.PutDown

namespace Assembly

variable {text : Text} {a : Assembly}

def disassembled (a : Assembly) : Text := Text.unlines (a.lines.map PlacedLine.disassembled)

theorem exists_putDown (h : ofText text = .ok a) {p : PlacedLine} (hp : p ∈ a.lines) :
    ∃ t ∈ Text.lines text, p.PutDown a.symbols t := by
  obtain ⟨t, ht, hread⟩ := exists_mem_lines h hp
  exact ⟨t, ht, (settled_of_mem h hp).putDown hread⟩

theorem lines_disassembled (h : ofText text = .ok a) :
    Text.lines a.disassembled = a.lines.map PlacedLine.disassembled := by
  apply Text.lines_unlines
  intro l hl
  obtain ⟨p, hp, rfl⟩ := List.mem_map.1 hl
  obtain ⟨t, ht, hputDown⟩ := exists_putDown h hp
  exact hputDown.isLineBreak_eq_false fun c hc => Text.isLineBreak_eq_false_of_mem_lines ht hc

theorem map_text_lines (h : ofText text = .ok a) : a.lines.map (·.line.text) = Text.lines text := by
  have hlines := congrArg (List.map SourceLine.text) (map_line h)
  rw [List.map_map, List.map_map] at hlines
  refine hlines.trans ((List.map_congr_left fun t _ => ?_).trans (List.map_id _))
  exact SourceLine.text_read t

theorem layout_disassembled (h : ofText text = .ok a) :
    (Layout.ofText a.disassembled).failure? = none ∧
      (Layout.ofText a.disassembled).symbols = a.symbols ∧
      (Layout.ofText a.disassembled).lines.map PlacedLine.shape =
        (a.lines.map PlacedLine.restated).map PlacedLine.shape := by
  have hstep : ∀ p ∈ a.lines, ∀ s counter number,
      Layout.step s counter number (SourceLine.read p.disassembled) =
        Layout.step s counter number (SourceLine.read p.line.text) := by
    intro p hp s counter number
    obtain ⟨t, ht, hread⟩ := exists_mem_lines h hp
    rw [((settled_of_mem h hp).putDown hread).step_eq, hread, SourceLine.text_read]
  obtain ⟨hfailure, hsymbols, hplaces⟩ := @Layout.ofLines_map_congr .empty 0 1 _ _ _ _ hstep
  rw [map_text_lines h, ← lines_disassembled h] at hfailure hsymbols hplaces
  change (Layout.ofText a.disassembled).failure? = (Layout.ofText text).failure? at hfailure
  rw [(of_ofText h).1] at hfailure
  refine ⟨hfailure, hsymbols.trans (symbols_eq h).symm, ?_⟩
  -- The lines are those that are read from the new text, and the places are the old ones.
  have hlines := Layout.map_line_ofLines hfailure
  have holdPlaces := congrArg (List.map Prod.snd) (map_shape h)
  rw [List.map_map, List.map_map] at holdPlaces
  rw [PlacedLine.map_shape_eq_zip, PlacedLine.map_shape_eq_zip]
  congr 1
  · refine hlines.trans ?_
    rw [lines_disassembled h, List.map_map, List.map_map]
    rfl
  · refine hplaces.trans (holdPlaces.symm.trans ?_)
    rw [List.map_map]
    rfl

/-- A program that is put down anew from its labels and its words is assembled to the same
records, symbols and start address. -/
theorem disassembled_reassembles (h : ofText text = .ok a) :
    ∃ a', ofText a.disassembled = .ok a' ∧ a'.records = a.records ∧ a'.symbols = a.symbols ∧
      a'.startAddress? = a.startAddress? := by
  obtain ⟨hfailure, hsymbols, hshape⟩ := layout_disassembled h
  -- The lines put down anew are settled by the old symbols, which are the new ones.
  have hsettled : ∀ q ∈ a.lines.map PlacedLine.restated,
      Settled (Layout.ofText a.disassembled).symbols q := by
    intro q hq
    obtain ⟨p, hp, rfl⟩ := List.mem_map.1 hq
    obtain ⟨t, -, hputDown⟩ := exists_putDown h hp
    rw [hsymbols]
    exact hputDown.settled
  obtain ⟨a', ha', hlines, hsymbols'⟩ := exists_ofText_eq_ok hfailure hsettled hshape
  have hrecords : a'.records = a.records := by
    rw [records, hlines]
    exact List.filterMap_map
  have haddresses : a'.lines.filterMap PlacedLine.instructionAddress? =
      a.lines.filterMap PlacedLine.instructionAddress? := by
    rw [hlines, List.filterMap_map]
    apply List.filterMap_congr
    intro p hp
    obtain ⟨t, -, hputDown⟩ := exists_putDown h hp
    exact hputDown.instructionAddress?_restated
  refine ⟨a', ha', hrecords, hsymbols'.trans hsymbols, ?_⟩
  rw [startAddress?, startAddress?, firstAddress?, firstAddress?, hrecords,
    ← List.head?_filterMap, ← List.head?_filterMap, haddresses]

/-- A program with a label used before its definition, indirection that is marked by a zero or a
one, an index operation, data that is cut to a word, and a halt with an operand. -/
def mixedProgram : Text :=
  "; mixed\n LOC 6\nTop: ldr 3,2,Out,1 ; x\n STX 2,Top,0\n data -1\nOut: HLT 7\nEnd:\n".toList

theorem mixedProgram_reassembles :
    ∃ a a', ofText mixedProgram = .ok a ∧ ofText a.disassembled = .ok a' ∧
      a'.records = a.records ∧ a'.symbols = a.symbols ∧ a'.startAddress? = a.startAddress? ∧
      Text.lines a.disassembled = ["; mixed".toList, " LOC 6".toList, "Top: LDR 3,2,9,1".toList,
        "STX 2,6".toList, "Data 65535".toList, "Out: HLT".toList, "End:".toList] := by
  have h : ofText mixedProgram = .ok _ := rfl
  obtain ⟨a', ha', hsame⟩ := disassembled_reassembles h
  exact ⟨_, a', h, ha', hsame.1, hsame.2.1, hsame.2.2, by decide⟩

end Assembly
end WordMachine
