import Mathlib.Algebra.Ring.Int.Defs
import WordMachine.Proofs.Assembly.Settled
import WordMachine.Proofs.LoadImage.Reading
import WordMachine.Proofs.Numeral.Columns

namespace WordMachine

/-- A line takes a word if it has an operation other than `LOC`. -/
def SourceLine.takesWord (line : SourceLine) : Bool :=
  match line.op? with
  | some op => !Layout.isLoc op
  | none => false

structure LoadRecord.Fits (r : LoadRecord) : Prop where
  address_nonneg : 0 ≤ r.address
  address_lt : r.address < memorySize
  word_nonneg : 0 ≤ r.word
  word_lt : r.word < 2 ^ 16

theorem Settled.isSome_record? {symbols : SymbolTable} {p : PlacedLine} (h : Settled symbols p) :
    p.record?.isSome = p.line.takesWord := by
  rcases h with hop | ⟨hop, hloc⟩ | ⟨hop, hloc, -, -⟩
  · simp [PlacedLine.record?, SourceLine.takesWord, hop]
  · simp [PlacedLine.record?, SourceLine.takesWord, hop, hloc]
  · simp [PlacedLine.record?, SourceLine.takesWord, hop, hloc]

theorem Settled.fits {symbols : SymbolTable} {p : PlacedLine} {r : LoadRecord}
    (h : Settled symbols p) (hr : p.record? = some r) : r.Fits := by
  rcases h with hop | ⟨hop, hloc⟩ | @⟨line, op, address, number, v, -, -, haddress, -⟩
  · simp [PlacedLine.record?] at hr
  · simp [PlacedLine.record?] at hr
  · have hword := (BitVec.ofInt 16 v).isLt
    simp only [PlacedLine.record?, Option.some.injEq] at hr
    subst hr
    exact ⟨Int.natCast_nonneg _, Int.ofNat_lt.2 haddress, Int.natCast_nonneg _,
      Int.ofNat_lt.2 hword⟩

theorem PlacedLine.address_ne_of_place_ne {ps : List PlacedLine} {address : Nat}
    (h : ∀ p ∈ ps, p.place ≠ .at address) :
    ∀ r ∈ ps.filterMap record?, r.address ≠ (address : Int) := by
  intro r hr e
  obtain ⟨p, hp, hpr⟩ := List.mem_filterMap.1 hr
  unfold record? at hpr
  split at hpr
  · next n w hplace hw =>
    cases hpr
    exact h p hp (hplace.trans (congrArg Place.at (Int.ofNat_inj.1 e)))
  · cases hpr

namespace Assembly

variable {text : Text} {a : Assembly}

theorem fits_of_mem_records (h : ofText text = .ok a) {r : LoadRecord} (hr : r ∈ a.records) :
    r.Fits := by
  obtain ⟨p, hp, hpr⟩ := List.mem_filterMap.1 hr
  exact (settled_of_mem h hp).fits hpr

theorem length_records (h : ofText text = .ok a) :
    a.records.length = ((Text.lines text).map SourceLine.read).countP SourceLine.takesWord := by
  rw [← map_line h, List.countP_map, records, List.length_filterMap_eq_countP]
  exact List.countP_congr fun p hp => by simp [(settled_of_mem h hp).isSome_record?]

end Assembly

namespace LoadRecord

theorem text_row (r : LoadRecord) :
    r.row.text = Numeral.octalColumn r.address ++ ' ' :: Numeral.octalColumn r.word := rfl

theorem isLineBreak_eq_false_of_mem_text_row {r : LoadRecord} {c : Char} (h : c ∈ r.row.text) :
    Text.isLineBreak c = false := by
  have hcolumn (v : Int) (hc : c ∈ Numeral.octalColumn v) : Text.isLineBreak c = false :=
    Text.isLineBreak_eq_false_of_isBlank (Numeral.isBlank_eq_false_of_mem_octalColumn hc)
  rw [text_row, List.mem_append] at h
  rcases h with h | h
  · exact hcolumn _ h
  · rcases List.mem_cons.1 h with rfl | h
    · decide
    · exact hcolumn _ h

theorem words_text_row (r : LoadRecord) :
    Text.words r.row.text = [Numeral.octalColumn r.address, Numeral.octalColumn r.word] := by
  have hb (v : Int) : ∀ c ∈ Numeral.octalColumn v, Text.isBlank c = false :=
    fun c hc => Numeral.isBlank_eq_false_of_mem_octalColumn hc
  rw [text_row, Text.words_append_cons _ (Numeral.octalColumn_ne_nil _) (hb _) (by decide),
    Text.words_of_forall (Numeral.octalColumn_ne_nil _) (hb _)]

theorem trim_text_row (r : LoadRecord) : Text.trim r.row.text = r.row.text := by
  apply Text.trim_of_ends
  · intro c hc
    rw [text_row, List.head?_append_of_ne_nil _ (Numeral.octalColumn_ne_nil _)] at hc
    exact Numeral.isBlank_eq_false_of_mem_octalColumn (List.mem_of_mem_head? hc)
  · intro c hc
    have hlast : r.row.text.getLast? = (Numeral.octalColumn r.word).getLast? := by
      rw [text_row, List.append_cons, List.getLast?_append_of_ne_nil _ (Numeral.octalColumn_ne_nil _)]
    rw [hlast] at hc
    exact Numeral.isBlank_eq_false_of_mem_octalColumn (List.mem_of_mem_getLast? hc)

theorem isSilent_text_row (r : LoadRecord) : LoadImage.isSilent r.row.text = false := by
  obtain ⟨c, t, hc⟩ := List.exists_cons_of_ne_nil (Numeral.octalColumn_ne_nil r.address)
  have hdigit : Numeral.isOctalDigit c = true :=
    Numeral.isOctalDigit_of_mem_octalColumn (v := r.address) (by simp [hc])
  rw [text_row, hc, List.cons_append]
  apply LoadImage.isSilent_cons
  -- No comment mark is a digit.
  intro hmark
  have hnone : ∀ d ∈ ['#', ';', '/'], Numeral.isOctalDigit d = false :=
    Text.eq_false_of_all (by decide)
  rw [hnone c hmark] at hdigit
  cases hdigit

end LoadRecord

namespace LoadImage

theorem readLine_text_row {r : LoadRecord} (h : r.Fits) :
    readLine r.row.text = .ok (some r) := by
  -- Six octal digits show the whole number, since both are below 2^18.
  have haddress : r.address % 0o1000000 = r.address := by
    have := h.address_nonneg
    have hlt : r.address < 2048 := h.address_lt
    omega
  have hword : r.word % 0o1000000 = r.word := by
    have := h.word_nonneg
    have := h.word_lt
    omega
  have hn (v : Int) : number (Numeral.octalColumn v) = .ok (v % 0o1000000) := by
    rw [number, Numeral.readNumber_octalColumn]
    rfl
  have hsilent : isSilent (Text.trim r.row.text) = false := by
    rw [LoadRecord.trim_text_row, LoadRecord.isSilent_text_row]
  rw [readLine_of_words hsilent (LoadRecord.words_text_row r), hn, hn, haddress, hword]
  rfl

theorem readLines_rows {records : LoadImage} (h : ∀ r ∈ records, r.Fits) (before : Nat) :
    readLines before (records.map fun r => r.row.text) = .ok records := by
  induction records generalizing before with
  | nil => rfl
  | cons r records ih =>
    have hr := h r List.mem_cons_self
    have hrest := ih (fun q hq => h q (List.mem_cons_of_mem r hq)) (before + 1)
    rw [List.map_cons, readLines, readLine_text_row hr, hrest]
    rfl

theorem loadText_rows (records : LoadImage) :
    loadText (records.map LoadRecord.row) = Text.unlines (records.map fun r => r.row.text) := by
  rw [loadText, List.map_map]
  rfl

theorem isLineBreak_eq_false_of_mem_rows (records : LoadImage) :
    ∀ l ∈ records.map fun r => r.row.text, ∀ c ∈ l, Text.isLineBreak c = false := by
  intro l hl c hc
  obtain ⟨r, -, rfl⟩ := List.mem_map.1 hl
  exact LoadRecord.isLineBreak_eq_false_of_mem_text_row hc

theorem read_loadText {records : LoadImage} (h : ∀ r ∈ records, r.Fits) :
    read (loadText (records.map LoadRecord.row)) = .ok records := by
  rw [loadText_rows, read, Text.lines_unlines (isLineBreak_eq_false_of_mem_rows records),
    readLines_rows h 0]

end LoadImage

namespace Assembly

variable {text : Text} {a : Assembly}

theorem load_eq (h : ofText text = .ok a) : a.load = loadText (a.records.map LoadRecord.row) := by
  rw [load, loadRows_eq h]

theorem carriageReturn_not_mem_load (h : ofText text = .ok a) : '\r' ∉ a.load := by
  rw [load_eq h, LoadImage.loadText_rows]
  exact Text.carriageReturn_not_mem_unlines (LoadImage.isLineBreak_eq_false_of_mem_rows a.records)

theorem read_load (h : ofText text = .ok a) : LoadImage.read a.load = .ok a.records := by
  rw [load_eq h]
  exact LoadImage.read_loadText fun r hr => fits_of_mem_records h hr

/-- The load text of an assembly is read as the records of the assembly, and there is one of them
for each source line that takes a word. -/
theorem read_load_round_trip (h : ofText text = .ok a) :
    ∃ records, LoadImage.read a.load = .ok records ∧ records = a.records ∧
      records.firstAddress? = a.firstAddress? ∧
      records.length = ((Text.lines text).map SourceLine.read).countP SourceLine.takesWord :=
  ⟨a.records, read_load h, rfl, rfl, length_records h⟩

/-- A program with data that is cut to a word, a label used before its definition, a comment and
a line that takes no word. -/
def sampleProgram : Text :=
  "; counts\n LOC 6\n Data -1\n Data 65546\n LDX 2,End ; twice\nEnd: HLT\n".toList

theorem sampleProgram_round_trip :
    ∃ a, ofText sampleProgram = .ok a ∧
      LoadImage.read a.load = .ok [⟨6, 65535⟩, ⟨7, 10⟩, ⟨8, 33929⟩, ⟨9, 0⟩] := by
  have h : ofText sampleProgram = .ok _ := rfl
  refine ⟨_, h, ?_⟩
  obtain ⟨records, hread, hrecords, -, -⟩ := read_load_round_trip h
  rw [hread, hrecords]
  rfl

end Assembly
end WordMachine
