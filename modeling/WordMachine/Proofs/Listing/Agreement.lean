import WordMachine.Proofs.Assembly.StartAddress

namespace WordMachine

namespace Numeral

/-- The number in a column: six octal digits and nothing else. -/
def columnNumber? (t : Text) : Option Nat :=
  if t.length = 6 ∧ t.all isOctalDigit then some (ofOctalDigits t) else none

theorem columnNumber?_octalColumn {n : Nat} (h : n < 0o1000000) :
    columnNumber? (octalColumn n) = some n := by
  have hvalue : ofOctalDigits (octalColumn n) = n := by
    apply Int.ofNat_inj.1
    rw [ofOctalDigits_octalColumn]
    omega
  rw [columnNumber?, if_pos ⟨length_octalColumn _, all_isOctalDigit_octalColumn _⟩, hvalue]

end Numeral

namespace ListingRow

def addressColumn (row : Text) : Text := row.take 6

def wordColumn (row : Text) : Text := (row.drop 8).take 6

/-- The columns of a listing line, as the load text has them. -/
def loadLine (row : Text) : Text := addressColumn row ++ ' ' :: wordColumn row

def record? (row : Text) : Option LoadRecord := do
  let address ← Numeral.columnNumber? (addressColumn row)
  let word ← Numeral.columnNumber? (wordColumn row)
  return ⟨address, word⟩

theorem padRight_octalColumn (v : Int) :
    Text.padRight 6 (Numeral.octalColumn v) = Numeral.octalColumn v := by
  simp [Text.padRight]

theorem addressColumn_columns (address word : Int) (source : Text) :
    addressColumn (columns (Numeral.octalColumn address) (Numeral.octalColumn word) source).text =
      Numeral.octalColumn address := by
  rw [addressColumn, take_text_columns source (by simp), padRight_octalColumn]

theorem wordColumn_columns (address word : Int) (source : Text) :
    wordColumn (columns (Numeral.octalColumn address) (Numeral.octalColumn word) source).text =
      Numeral.octalColumn word := by
  have hl : (Numeral.octalColumn address ++ [' ', ' ']).length = 8 := by simp
  rw [wordColumn, text, padRight_octalColumn, padRight_octalColumn, List.append_assoc,
    List.append_assoc, List.drop_left' hl, List.take_left' (Numeral.length_octalColumn word)]

theorem text_columns_nil (source : Text) :
    (columns [] [] source).text = List.replicate 16 ' ' ++ source := rfl

end ListingRow

/-- How a listing line shows a line of an assembly that is read from `t`. -/
inductive PlacedLine.ShownBy (t : Text) (p : PlacedLine) : Text → Prop
  | silent (hop : p.line.op? = none) : ShownBy t p t
  | directive {op : Text} (hop : p.line.op? = some op) (hloc : Layout.isLoc op = true) :
    ShownBy t p (List.replicate 16 ' ' ++ p.line.write op)
  | word {op row : Text} {address : Nat} {w : Word} (hop : p.line.op? = some op)
    (hloc : Layout.isLoc op = false) (hplace : p.place = .at address) (hword : p.word? = some w)
    (haddress : Numeral.columnNumber? (ListingRow.addressColumn row) = some address)
    (hcolumn : Numeral.columnNumber? (ListingRow.wordColumn row) = some w.toNat)
    (hsource : row.drop 16 = p.line.write op) : ShownBy t p row

namespace Settled

variable {symbols : SymbolTable} {p : PlacedLine} {r : LoadRecord}

theorem shownBy {t : Text} (h : Settled symbols p) (ht : p.line = SourceLine.read t) :
    p.ShownBy t p.row.text := by
  rcases h with hop | @⟨line, op, hop, hloc⟩ |
    @⟨line, op, address, number, v, hop, hloc, haddress, -⟩
  · rw [PlacedLine.text_row hop, ht, SourceLine.text_read]
    exact .silent hop
  · simp only [PlacedLine.row, hop, PlacedLine.record?, ListingRow.text_columns_nil]
    exact .directive hop hloc
  · have hlt : address < 2048 := haddress
    have hword := (BitVec.ofInt 16 v).isLt
    refine .word hop hloc rfl rfl ?_ ?_ (PlacedLine.drop_text_row hop)
    · simp only [PlacedLine.row, hop, PlacedLine.record?]
      rw [ListingRow.addressColumn_columns, Numeral.columnNumber?_octalColumn (by omega)]
    · simp only [PlacedLine.row, hop, PlacedLine.record?]
      rw [ListingRow.wordColumn_columns, Numeral.columnNumber?_octalColumn (by omega)]

theorem loadLine_row (h : Settled symbols p) (hr : p.record? = some r) :
    ListingRow.loadLine p.row.text = r.row.text ∧ ListingRow.record? p.row.text = some r := by
  rcases h with hop | @⟨line, op, hop, hloc⟩ | @⟨line, op, address, number, v, hop, -, haddress, -⟩
  · cases hr
  · cases hr
  · have hlt : address < 2048 := haddress
    have hword := (BitVec.ofInt 16 v).isLt
    cases hr
    simp only [PlacedLine.row, hop, PlacedLine.record?, ListingRow.loadLine, ListingRow.record?,
      ListingRow.addressColumn_columns, ListingRow.wordColumn_columns]
    rw [Numeral.columnNumber?_octalColumn (by omega), Numeral.columnNumber?_octalColumn (by omega)]
    exact ⟨rfl, rfl⟩

end Settled

def wordRows (texts rows : List Text) : List Text :=
  ((texts.zip rows).filter fun x => (SourceLine.read x.1).takesWord).map (·.2)

theorem wordRows_cons (t row : Text) (texts rows : List Text) :
    wordRows (t :: texts) (row :: rows) =
      if (SourceLine.read t).takesWord then row :: wordRows texts rows
      else wordRows texts rows := by
  rw [wordRows, List.zip_cons_cons, List.filter_cons]
  split
  · rfl
  · rfl

theorem map_wordRows {β : Type} {f : Text → β} {g : LoadRecord → β} {texts : List Text}
    {ps : List PlacedLine} (hline : ps.map (·.line) = texts.map SourceLine.read)
    (hps : ∀ p ∈ ps, p.record?.isSome = p.line.takesWord)
    (hrow : ∀ p ∈ ps, ∀ r, p.record? = some r → f p.row.text = g r) :
    (wordRows texts (ps.map fun p => p.row.text)).map f =
      (ps.filterMap PlacedLine.record?).map g := by
  induction ps generalizing texts with
  | nil => simp [wordRows]
  | cons p ps ih =>
    cases texts with
    | nil => cases hline
    | cons t texts =>
      obtain ⟨ht, hline⟩ : p.line = SourceLine.read t ∧ _ := List.cons.inj hline
      obtain ⟨hp, hps⟩ := List.forall_mem_cons.1 hps
      obtain ⟨hr, hrow⟩ := List.forall_mem_cons.1 hrow
      have hrest := ih hline hps hrow
      rw [List.map_cons, wordRows_cons, ← ht, ← hp]
      -- The row is among those selected exactly if the line has a record.
      cases hrecord : p.record? with
      | none =>
        rw [List.filterMap_cons_none hrecord]
        exact hrest
      | some r =>
        rw [List.filterMap_cons_some hrecord, List.map_cons, ← hrest, ← hr r hrecord]
        rfl

namespace Assembly

variable {text : Text} {a : Assembly}

theorem lines_load (h : ofText text = .ok a) :
    Text.lines a.load = a.records.map fun r => r.row.text := by
  rw [load_eq h, LoadImage.loadText_rows,
    Text.lines_unlines (LoadImage.isLineBreak_eq_false_of_mem_rows a.records)]

theorem map_readLine_lines_load (h : ofText text = .ok a) :
    (Text.lines a.load).map LoadImage.readLine = a.records.map fun r => .ok (some r) := by
  rw [lines_load h, List.map_map]
  apply List.map_congr_left
  intro r hr
  rw [Function.comp_apply]
  exact LoadImage.readLine_text_row (fits_of_mem_records h hr)

theorem shownBy_getElem? (h : ofText text = .ok a) {k : Nat} {t : Text}
    (ht : (Text.lines text)[k]? = some t) :
    ∃ (p : PlacedLine) (row : Text), a.lines[k]? = some p ∧ p.line = SourceLine.read t ∧
      (Text.lines a.listing)[k]? = some row ∧ p.ShownBy t row := by
  have hlines := congrArg (·[k]?) (map_line h)
  change (a.lines.map _)[k]? = ((Text.lines text).map _)[k]? at hlines
  rw [List.getElem?_map, List.getElem?_map, ht, Option.map_some] at hlines
  obtain ⟨p, hp, hread⟩ := Option.map_eq_some_iff.1 hlines
  refine ⟨p, p.row.text, hp, hread, ?_, ?_⟩
  · rw [lines_listing h, List.getElem?_map, hp, Option.map_some]
  · exact (settled_of_mem h (List.mem_of_getElem? hp)).shownBy hread

/-- The listing shows each source line on the line of the same number. The addresses and the words
in its columns are the records of the assembly, and the lines of the load text are these columns. -/
theorem listing_agrees_with_load (h : ofText text = .ok a) :
    (Text.lines a.listing).length = (Text.lines text).length ∧
      (∀ (k : Nat) (t : Text), (Text.lines text)[k]? = some t →
        ∃ (p : PlacedLine) (row : Text), a.lines[k]? = some p ∧ p.line = SourceLine.read t ∧
          (Text.lines a.listing)[k]? = some row ∧ p.ShownBy t row) ∧
      let rows := wordRows (Text.lines text) (Text.lines a.listing)
      rows.map ListingRow.record? = a.records.map some ∧
        Text.lines a.load = rows.map ListingRow.loadLine ∧
        (Text.lines a.load).map LoadImage.readLine = a.records.map fun r => .ok (some r) := by
  have hps : ∀ p ∈ a.lines, p.record?.isSome = p.line.takesWord :=
    fun p hp => (settled_of_mem h hp).isSome_record?
  have hrow : ∀ p ∈ a.lines, ∀ r, p.record? = some r →
      ListingRow.loadLine p.row.text = r.row.text ∧ ListingRow.record? p.row.text = some r :=
    fun p hp r hr => (settled_of_mem h hp).loadLine_row hr
  refine ⟨?_, fun k t ht => shownBy_getElem? h ht, ?_, ?_, map_readLine_lines_load h⟩
  · have hlength := congrArg List.length (map_line h)
    simpa [lines_listing h] using hlength
  · rw [lines_listing h]
    exact map_wordRows (map_line h) hps fun p hp r hr => (hrow p hp r hr).2
  · rw [lines_listing h, lines_load h]
    exact (map_wordRows (map_line h) hps fun p hp r hr => (hrow p hp r hr).1).symm

theorem sampleProgram_listing_agrees :
    ∃ a, ofText sampleProgram = .ok a ∧
      (Text.lines a.listing)[5]? = some "000011  000000  End: HLT".toList ∧
      (wordRows (Text.lines sampleProgram) (Text.lines a.listing)).map ListingRow.record? =
        [some ⟨6, 65535⟩, some ⟨7, 10⟩, some ⟨8, 33929⟩, some ⟨9, 0⟩] := by
  have h : ofText sampleProgram = .ok _ := rfl
  refine ⟨_, h, rfl, ?_⟩
  obtain ⟨-, -, hrecords, -, -⟩ := listing_agrees_with_load h
  rw [hrecords]
  rfl

end Assembly
end WordMachine
