import WordMachine.Proofs.Assembly.LoadText
import WordMachine.Proofs.Listing.Rows

namespace WordMachine

/-- Where the first of two readings that exclude each other is found: the first one counts only
before the second one is met. -/
theorem findSome?_orElse {α β : Type} {f g : α → Option β}
    (h : ∀ x, (f x).isSome → g x = none) (l : List α) :
    l.findSome? (fun x => f x <|> g x) =
      ((l.takeWhile fun x => (g x).isNone).findSome? f <|> l.findSome? g) := by
  induction l with
  | nil => rfl
  | cons x l ih =>
    cases hf : f x with
    | some a => simp [hf, h x (by simp [hf])]
    | none =>
      cases hg : g x with
      | some b => simp [hf, hg]
      | none => simpa [List.findSome?_cons, List.takeWhile_cons, hf, hg] using ih

namespace PlacedLine

theorem instructionAddress?_of_decoy {p : PlacedLine} (h : p.line.decoyAddress?.isSome) :
    p.instructionAddress? = none := by
  cases hop : p.line.op? with
  | none => simp [instructionAddress?, hop]
  | some op => simp [SourceLine.decoyAddress?, hop] at h

end PlacedLine

/-- What the row of a line shows: the address in a decoy, or the address of an instruction. -/
theorem Settled.instructionAddress?_row {symbols : SymbolTable} {p : PlacedLine} {t : Text}
    (h : Settled symbols p) (ht : p.line = SourceLine.read t) :
    instructionAddress? p.row.text = (p.line.decoyAddress? <|> p.instructionAddress?) := by
  have hdecoy {op : Text} (hop : p.line.op? = some op) : p.line.decoyAddress? = none := by
    simp [SourceLine.decoyAddress?, hop]
  rcases h with hop | @⟨line, op, hop, hloc⟩ | @⟨line, op, address, number, v, hop, hloc, haddress, -⟩
  · -- A line without an operation is shown as it is, so it may be a decoy.
    have hraw := SourceLine.instructionAddress?_of_op? (t := t) (by rw [← ht]; exact hop)
    simp only at ht
    subst ht
    simp only [PlacedLine.row, hop, ListingRow.text, PlacedLine.instructionAddress?]
    rw [SourceLine.text_read, hraw]
    simp
  · rw [hdecoy hop]
    simp only [PlacedLine.row, hop, PlacedLine.record?, PlacedLine.instructionAddress?]
    exact ListingRow.instructionAddress?_blank _
  · have hword : operationWord? (line.write op) = some op := by
      have hread : (SourceLine.read t).op? = some op := by rw [← ht]; exact hop
      have hword := SourceLine.operationWord?_write hread
      rwa [← ht] at hword
    -- An address of memory has no more than six octal digits.
    have hcolumn : ((address : Int) % 0o1000000).toNat = address := by
      have hlt : address < 2048 := haddress
      omega
    rw [hdecoy hop]
    simp only [PlacedLine.row, hop, PlacedLine.record?, PlacedLine.instructionAddress?]
    rw [ListingRow.instructionAddress?_columns, hword, hcolumn]
    cases hd : Emission.isData op <;> simp [Option.filter_some, namesInstruction, hloc, hd]

theorem Settled.isLineBreak_eq_false_of_mem_row {symbols : SymbolTable} {p : PlacedLine} {t : Text}
    {c : Char} (h : Settled symbols p) (ht : p.line = SourceLine.read t)
    (hbreak : ∀ c ∈ t, Text.isLineBreak c = false) (hc : c ∈ p.row.text) :
    Text.isLineBreak c = false := by
  have hwrite {op : Text} (hop : p.line.op? = some op) :
      ∀ c ∈ p.line.write op, Text.isLineBreak c = false := by
    rw [ht] at hop ⊢
    exact SourceLine.isLineBreak_eq_false_of_mem_write hop hbreak
  have hoctal (v : Int) : ∀ c ∈ Numeral.octalColumn v, Text.isBlank c = false :=
    fun c hc => Numeral.isBlank_eq_false_of_mem_octalColumn hc
  rcases h with hop | @⟨line, op, hop, hloc⟩ | @⟨line, op, address, number, v, hop, hloc, -, -⟩
  · simp only [PlacedLine.row, hop, ListingRow.text] at hc
    simp only at ht
    exact hbreak c (by rw [ht] at hc; exact hc)
  · simp only [PlacedLine.row, hop, PlacedLine.record?] at hc
    exact ListingRow.isLineBreak_eq_false_of_mem_text_columns (by simp) (by simp) (hwrite hop) hc
  · simp only [PlacedLine.row, hop, PlacedLine.record?] at hc
    exact ListingRow.isLineBreak_eq_false_of_mem_text_columns (hoctal _) (hoctal _) (hwrite hop) hc

namespace Assembly

variable {text : Text} {a : Assembly}

theorem exists_mem_lines (h : ofText text = .ok a) {p : PlacedLine} (hp : p ∈ a.lines) :
    ∃ t ∈ Text.lines text, p.line = SourceLine.read t := by
  have hl : p.line ∈ (Text.lines text).map SourceLine.read :=
    map_line h ▸ List.mem_map_of_mem hp
  obtain ⟨t, ht, hread⟩ := List.mem_map.1 hl
  exact ⟨t, ht, hread.symm⟩

theorem listing_eq (h : ofText text = .ok a) :
    a.listing = Text.unlines (a.lines.map fun p => p.row.text) := by
  rw [listing, listingText, listingRows_eq h, List.map_map]
  rfl

theorem isLineBreak_eq_false_of_mem_rows (h : ofText text = .ok a) :
    ∀ l ∈ a.lines.map fun p => p.row.text, ∀ c ∈ l, Text.isLineBreak c = false := by
  intro l hl c hc
  obtain ⟨p, hp, rfl⟩ := List.mem_map.1 hl
  obtain ⟨t, ht, hread⟩ := exists_mem_lines h hp
  exact (settled_of_mem h hp).isLineBreak_eq_false_of_mem_row hread
    (fun c hc => Text.isLineBreak_eq_false_of_mem_lines ht hc) hc

theorem lines_listing (h : ofText text = .ok a) :
    Text.lines a.listing = a.lines.map fun p => p.row.text := by
  rw [listing_eq h, Text.lines_unlines (isLineBreak_eq_false_of_mem_rows h)]

theorem carriageReturn_not_mem_listing (h : ofText text = .ok a) : '\r' ∉ a.listing := by
  rw [listing_eq h]
  exact Text.carriageReturn_not_mem_unlines (isLineBreak_eq_false_of_mem_rows h)

/-- The address in the first decoy that stands before the first instruction. -/
def decoyAddress? (a : Assembly) : Option Nat :=
  (a.lines.takeWhile fun p => p.instructionAddress?.isNone).findSome? fun p => p.line.decoyAddress?

theorem firstInstruction?_listing (h : ofText text = .ok a) :
    firstInstruction? a.listing =
      (a.decoyAddress? <|> a.lines.findSome? PlacedLine.instructionAddress?) := by
  have hrow : ∀ p ∈ a.lines, instructionAddress? p.row.text =
      (p.line.decoyAddress? <|> p.instructionAddress?) := by
    intro p hp
    obtain ⟨t, -, hread⟩ := exists_mem_lines h hp
    exact (settled_of_mem h hp).instructionAddress?_row hread
  rw [firstInstruction?, lines_listing h, List.findSome?_map, decoyAddress?,
    ← findSome?_orElse fun p hp => PlacedLine.instructionAddress?_of_decoy hp,
    ← List.head?_filterMap, ← List.head?_filterMap]
  exact congrArg List.head? (List.filterMap_congr hrow)

end Assembly

/-- Where a program starts that is given by its listing and its records. -/
def LoadImage.shownStart? (listing : Text) (records : LoadImage) : Option Int :=
  match firstInstruction? listing with
  | some address => some address
  | none => firstAddress? records

namespace Assembly

variable {text : Text} {a : Assembly}

theorem shownStart?_eq (h : ofText text = .ok a) :
    LoadImage.shownStart? a.listing a.records =
      match a.decoyAddress? with
      | some address => some (address : Int)
      | none => a.startAddress? := by
  rw [LoadImage.shownStart?, firstInstruction?_listing h]
  cases a.decoyAddress? <;> rfl

theorem shownStart?_eq_iff (h : ofText text = .ok a) :
    LoadImage.shownStart? a.listing a.records = a.startAddress? ↔
      ∀ address, a.decoyAddress? = some address → a.startAddress? = some (address : Int) := by
  rw [shownStart?_eq h]
  cases hd : a.decoyAddress? with
  | none => simp
  | some address =>
    simp only [Option.some.injEq, forall_eq']
    exact eq_comm

end Assembly
end WordMachine
