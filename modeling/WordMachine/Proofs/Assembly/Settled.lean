import WordMachine.Assembly.Basic

namespace WordMachine

open Layout Emission

/-- A line that has its place in memory but no word yet. -/
inductive Placed : PlacedLine → Prop
  | silent {line : SourceLine} (hop : line.op? = none) : Placed ⟨line, .nowhere, none⟩
  | directive {line : SourceLine} {op : Text} (hop : line.op? = some op) (hloc : isLoc op = true) :
    Placed ⟨line, .directive, none⟩
  | word {line : SourceLine} {op : Text} {address : Nat} (hop : line.op? = some op)
    (hloc : isLoc op = false) (haddress : address < memorySize) : Placed ⟨line, .at address, none⟩

/-- A line that is done with: its word, if it takes one, is the value that it states. -/
inductive Settled (symbols : SymbolTable) : PlacedLine → Prop
  | silent {line : SourceLine} (hop : line.op? = none) : Settled symbols ⟨line, .nowhere, none⟩
  | directive {line : SourceLine} {op : Text} (hop : line.op? = some op) (hloc : isLoc op = true) :
    Settled symbols ⟨line, .directive, none⟩
  | word {line : SourceLine} {op : Text} {address : Nat} {number v : Int}
    (hop : line.op? = some op) (hloc : isLoc op = false) (haddress : address < memorySize)
    (hvalue : value symbols number op line.operands = .ok v) :
    Settled symbols ⟨line, .at address, some (BitVec.ofInt 16 v)⟩

def LoadRecord.row (r : LoadRecord) : LoadRow :=
  ⟨Numeral.octalColumn r.address, Numeral.octalColumn r.word⟩

def PlacedLine.shape (p : PlacedLine) : SourceLine × Place := (p.line, p.place)

def PlacedLine.row (p : PlacedLine) : ListingRow :=
  match p.line.op? with
  | none => .raw p.line.text
  | some op =>
    match p.record? with
    | some r =>
      .columns (Numeral.octalColumn r.address) (Numeral.octalColumn r.word) (p.line.write op)
    | none => .columns [] [] (p.line.write op)

namespace Layout

theorem placed_step {symbols : SymbolTable} {counter : Nat} {number : Int} {line : SourceLine}
    (h : (step symbols counter number line).failure? = none) :
    Placed ⟨line, (step symbols counter number line).place, none⟩ := by
  cases hop : line.op? with
  | none => simpa only [step, hop] using Placed.silent hop
  | some op =>
    cases hd : defineLabel symbols counter line.label? with
    | error cause => simp [step, hop, hd] at h
    | ok symbols' =>
      simp only [step, hop, hd, placeOperation] at h ⊢
      by_cases hloc : isLoc op = true
      · simp only [hloc, if_true] at h ⊢
        cases hl : locTarget symbols' number line.operands with
        | error failure => simp [hl] at h
        | ok target => exact Placed.directive hop hloc
      · simp only [hloc, Bool.false_eq_true, if_false] at h ⊢
        by_cases hc : memorySize ≤ counter
        · simp [hc] at h
        · rw [if_neg hc]
          exact Placed.word hop (by simpa using hloc) (Nat.lt_of_not_le hc)

theorem placed_ofLines {symbols : SymbolTable} {counter : Nat} {number : Int} {texts : List Text}
    (h : (ofLines symbols counter number texts).failure? = none) :
    ∀ p ∈ (ofLines symbols counter number texts).lines, Placed p := by
  induction texts generalizing symbols counter number with
  | nil => simp [ofLines]
  | cons t texts ih =>
    rw [ofLines] at h ⊢
    cases hs : (step symbols counter number (SourceLine.read t)).failure? with
    | some failure => simp [hs] at h
    | none =>
      simp only [hs] at h ⊢
      intro p hp
      -- The first line is placed by this step, the others by the rest of the layout.
      rcases List.mem_cons.1 hp with rfl | hp
      · exact placed_step hs
      · exact ih h p hp

theorem map_line_ofLines {symbols : SymbolTable} {counter : Nat} {number : Int} {texts : List Text}
    (h : (ofLines symbols counter number texts).failure? = none) :
    (ofLines symbols counter number texts).lines.map (·.line) = texts.map SourceLine.read := by
  induction texts generalizing symbols counter number with
  | nil => rfl
  | cons t texts ih =>
    rw [ofLines] at h ⊢
    cases hs : (step symbols counter number (SourceLine.read t)).failure? with
    | some failure => simp [hs] at h
    | none =>
      simp only [hs] at h ⊢
      rw [List.map_cons, ih h, List.map_cons]

end Layout

namespace Emission

variable {symbols : SymbolTable} {number : Int} {placed : List PlacedLine}

/-- What emission makes of placed lines when it does not fail. -/
structure Complete (symbols : SymbolTable) (placed : List PlacedLine) (e : Emission) : Prop where
  settled : ∀ p ∈ e.lines, Settled symbols p
  shape : e.lines.map PlacedLine.shape = placed.map PlacedLine.shape
  listing : e.listing = e.lines.map PlacedLine.row
  load : e.load = (e.lines.filterMap PlacedLine.record?).map LoadRecord.row

theorem Complete.consRow {p : PlacedLine} {rest : Emission} (h : Complete symbols placed rest)
    (hp : Settled symbols p) (hr : p.record? = none) :
    Complete symbols (p :: placed) (consRow p p.row rest) where
  settled := List.forall_mem_cons.2 ⟨hp, h.settled⟩
  shape := congrArg (p.shape :: ·) h.shape
  listing := congrArg (p.row :: ·) h.listing
  load := by simpa [Emission.consRow, hr] using h.load

theorem Complete.consWord {line : SourceLine} {op : Text} {address : Nat} {v : Int}
    {rest : Emission} (h : Complete symbols placed rest) (hop : line.op? = some op)
    (hp : Settled symbols ⟨line, .at address, some (BitVec.ofInt 16 v)⟩) :
    Complete symbols (⟨line, .at address, none⟩ :: placed)
      (consWord ⟨line, .at address, none⟩ address (BitVec.ofInt 16 v) (line.write op) rest) where
  settled := List.forall_mem_cons.2 ⟨hp, h.settled⟩
  shape := congrArg ((line, Place.at address) :: ·) h.shape
  listing := by simp [Emission.consWord, h.listing, PlacedLine.row, PlacedLine.record?, hop]
  load := by simp [Emission.consWord, h.load, PlacedLine.record?, LoadRecord.row]

theorem complete_ofLines (hp : ∀ p ∈ placed, Placed p)
    (h : (ofLines symbols number placed).failure? = none) :
    Complete symbols placed (ofLines symbols number placed) := by
  induction placed generalizing number with
  | nil => exact ⟨by simp [ofLines], rfl, rfl, rfl⟩
  | cons p placed ih =>
    have hrest := fun q hq => hp q (List.mem_cons_of_mem p hq)
    rw [ofLines] at h ⊢
    -- A silent line is shown as it is, a directive with empty columns, and a word fills them.
    rcases hp p List.mem_cons_self with hop | ⟨hop, hloc⟩ | @⟨line, op, _, hop, hloc, haddress⟩
    · simp only [hop] at h ⊢
      have hrow := (ih hrest h).consRow (Settled.silent hop) rfl
      simpa only [PlacedLine.row, hop] using hrow
    · simp only [hop] at h ⊢
      have hrow := (ih hrest h).consRow (Settled.directive hop hloc) rfl
      simpa only [PlacedLine.row, hop, PlacedLine.record?] using hrow
    · simp only [hop] at h ⊢
      cases hv : value symbols number op line.operands with
      | error failure => simp [hv] at h
      | ok v =>
        simp only [hv] at h ⊢
        exact (ih hrest h).consWord hop (Settled.word hop hloc haddress hv)

end Emission

namespace Assembly

variable {text : Text} {a : Assembly}

theorem of_ofText (h : ofText text = .ok a) :
    (Layout.ofText text).failure? = none ∧
      (Emission.ofLayout (Layout.ofText text)).failure? = none ∧
      a = ⟨(Emission.ofLayout (Layout.ofText text)).lines, (Layout.ofText text).symbols,
        (Emission.ofLayout (Layout.ofText text)).listing,
        (Emission.ofLayout (Layout.ofText text)).load⟩ := by
  rw [ofText] at h
  split at h
  · cases h
  · next hlayout =>
    simp only at h
    split at h
    · cases h
    · next hemission => exact ⟨hlayout, hemission, by cases h; rfl⟩

theorem complete_of_ofText (h : ofText text = .ok a) :
    Emission.Complete a.symbols (Layout.ofText text).lines
      ⟨a.lines, a.listingRows, a.loadRows, none⟩ := by
  obtain ⟨hlayout, hemission, rfl⟩ := of_ofText h
  have hc := Emission.complete_ofLines (Layout.placed_ofLines hlayout) hemission
  exact ⟨hc.settled, hc.shape, hc.listing, hc.load⟩

theorem settled_of_mem (h : ofText text = .ok a) {p : PlacedLine} (hp : p ∈ a.lines) :
    Settled a.symbols p :=
  (complete_of_ofText h).settled p hp

theorem map_line (h : ofText text = .ok a) :
    a.lines.map (·.line) = (Text.lines text).map SourceLine.read := by
  have hshape := congrArg (List.map Prod.fst) (complete_of_ofText h).shape
  rw [List.map_map, List.map_map] at hshape
  exact hshape.trans (Layout.map_line_ofLines (of_ofText h).1)

theorem listingRows_eq (h : ofText text = .ok a) : a.listingRows = a.lines.map PlacedLine.row :=
  (complete_of_ofText h).listing

theorem loadRows_eq (h : ofText text = .ok a) : a.loadRows = a.records.map LoadRecord.row :=
  (complete_of_ofText h).load

end Assembly
end WordMachine
