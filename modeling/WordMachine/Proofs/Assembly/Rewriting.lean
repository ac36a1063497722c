import WordMachine.Proofs.Aligned
import WordMachine.Proofs.Assembly.StartAddress
import WordMachine.Proofs.Assembly.Statements

namespace WordMachine

/-- A source text with each line as the listing shows it. -/
def rewritten (text : Text) : Text :=
  Text.unlines ((Text.lines text).map SourceLine.rewrite)

theorem lines_rewritten (text : Text) :
    Text.lines (rewritten text) = (Text.lines text).map SourceLine.rewrite := by
  apply Text.lines_unlines
  intro l hl
  obtain ⟨t, ht, rfl⟩ := List.mem_map.1 hl
  exact SourceLine.isLineBreak_eq_false_of_mem_rewrite fun c hc =>
    Text.isLineBreak_eq_false_of_mem_lines ht hc

theorem rewritten_rewritten (text : Text) : rewritten (rewritten text) = rewritten text := by
  have hmap : ((Text.lines text).map SourceLine.rewrite).map SourceLine.rewrite =
      (Text.lines text).map SourceLine.rewrite := by
    rw [List.map_map]
    exact List.map_congr_left fun t _ => SourceLine.rewrite_rewrite t
  rw [rewritten, lines_rewritten, hmap, rewritten]

def PlacedLine.canonical (p : PlacedLine) : PlacedLine := { p with line := p.line.canonical }

namespace Layout

theorem step_canonical (symbols : SymbolTable) (counter : Nat) (number : Int) (line : SourceLine) :
    step symbols counter number line.canonical = step symbols counter number line := by
  rw [step, step, SourceLine.op?_canonical, SourceLine.label?_canonical,
    SourceLine.operands_canonical]

theorem ofLines_rewrite (symbols : SymbolTable) (counter : Nat) (number : Int)
    (texts : List Text) :
    ofLines symbols counter number (texts.map SourceLine.rewrite) =
      let layout := ofLines symbols counter number texts
      { layout with lines := layout.lines.map PlacedLine.canonical } := by
  induction texts generalizing symbols counter number with
  | nil => rfl
  | cons t texts ih =>
    rw [List.map_cons, ofLines, ofLines, SourceLine.read_rewrite, step_canonical]
    simp only
    split
    · rfl
    · rw [ih]
      rfl

end Layout

namespace Emission

theorem ofLines_canonical (symbols : SymbolTable) (number : Int) (placed : List PlacedLine) :
    ofLines symbols number (placed.map PlacedLine.canonical) =
      let e := ofLines symbols number placed
      { e with lines := e.lines.map PlacedLine.canonical } := by
  induction placed generalizing number with
  | nil => rfl
  | cons p placed ih =>
    obtain ⟨line, place, word?⟩ := p
    rw [List.map_cons, ofLines, ofLines, ih]
    simp only [PlacedLine.canonical, SourceLine.op?_canonical, SourceLine.operands_canonical,
      SourceLine.write_canonical]
    cases hop : line.op? with
    | none =>
      rw [SourceLine.canonical_of_op? hop]
      simp only [consRow, List.map_cons, PlacedLine.canonical, SourceLine.canonical_of_op? hop]
    | some op =>
      cases place with
      | «at» address =>
        dsimp only
        cases value symbols number op line.operands <;> rfl
      | nowhere => rfl
      | directive => rfl

end Emission
/-- What a listing row shows of a line: from column 16 on if the line has an operation. -/
def shownSource (line row : Text) : Text :=
  if (SourceLine.read line).op?.isSome then row.drop 16 else row

namespace PlacedLine

variable {p : PlacedLine}

theorem shownSource_row {t : Text} (ht : SourceLine.read t = p.line) :
    shownSource t p.row.text = SourceLine.rewrite t := by
  rw [shownSource, ht]
  cases h : p.line.op? with
  | none =>
    rw [SourceLine.rewrite_of_op?_none (ht ▸ h), text_row h, ← ht]
    rfl
  | some op =>
    rw [SourceLine.rewrite_of_op? (ht ▸ h), drop_text_row h, ht]
    rfl

end PlacedLine

namespace Assembly

variable {text : Text} {a : Assembly}

def canonical (a : Assembly) : Assembly := { a with lines := a.lines.map PlacedLine.canonical }

@[simp] theorem listing_canonical (a : Assembly) : a.canonical.listing = a.listing := rfl

@[simp] theorem code_canonical (a : Assembly) : a.canonical.code = a.code := by
  have hrecords : a.canonical.records = a.records := List.filterMap_map
  have haddress : PlacedLine.instructionAddress? ∘ PlacedLine.canonical =
      PlacedLine.instructionAddress? := by
    funext p
    rw [Function.comp, PlacedLine.instructionAddress?, PlacedLine.canonical,
      SourceLine.op?_canonical]
    rfl
  have hstart : a.canonical.startAddress? = a.startAddress? := by
    rw [startAddress?, firstAddress?, hrecords, canonical, List.findSome?_map, haddress]
    rfl
  rw [code, hrecords, hstart]
  rfl

theorem ofText_rewritten (text : Text) :
    ofText (rewritten text) = (ofText text).map canonical := by
  have hlayout : Layout.ofText (rewritten text) =
      { Layout.ofText text with lines := (Layout.ofText text).lines.map PlacedLine.canonical } := by
    rw [Layout.ofText, lines_rewritten]
    exact Layout.ofLines_rewrite .empty 0 1 (Text.lines text)
  have hemission : Emission.ofLayout (Layout.ofText (rewritten text)) =
      let e := Emission.ofLayout (Layout.ofText text)
      { e with lines := e.lines.map PlacedLine.canonical } := by
    rw [hlayout]
    exact Emission.ofLines_canonical (Layout.ofText text).symbols 1 (Layout.ofText text).lines
  rw [ofText, ofText, hemission, hlayout]
  dsimp only
  cases (Layout.ofText text).failure? with
  | some failure => rfl
  | none => cases (Emission.ofLayout (Layout.ofText text)).failure? <;> rfl

theorem shownSource_listing (h : ofText text = .ok a) :
    List.zipWith shownSource (Text.lines text) (Text.lines a.listing) =
      Text.lines (rewritten text) := by
  rw [lines_listing h, lines_rewritten, List.zipWith_map_right]
  exact zipWith_eq_map (map_line h).symm fun t p ht => PlacedLine.shownSource_row ht

/-- A rewritten program is assembled to the same listing and code, or fails in the same way, and
it is not changed by rewriting it again. -/
theorem rewritten_unchanged (text : Text) :
    (ofText (rewritten text)).map (fun a => (a.listing, a.code)) =
        (ofText text).map (fun a => (a.listing, a.code)) ∧
      rewritten (rewritten text) = rewritten text ∧
      ∀ a, ofText text = .ok a →
        List.zipWith shownSource (Text.lines text) (Text.lines a.listing) =
          Text.lines (rewritten text) := by
  refine ⟨?_, rewritten_rewritten text, fun a h => shownSource_listing h⟩
  rw [ofText_rewritten]
  cases ofText text with
  | error failure => rfl
  | ok a => simp [Except.map]

theorem looseProgram_rewritten :
    ∃ a, ofText looseProgram = .ok a ∧
      (ofText (rewritten looseProgram)).map (fun a => (a.listing, a.code)) =
        .ok (a.listing, a.code) ∧
      Text.lines (rewritten looseProgram) =
        ["; load".toList, "ldr 1,0,Sum ;it".toList, [], "End:".toList, "Sum: data 10".toList] := by
  have h : ofText looseProgram = .ok _ := rfl
  obtain ⟨hsame, -, hlines⟩ := rewritten_unchanged looseProgram
  refine ⟨_, h, ?_, ?_⟩
  · rw [hsame, h]
    rfl
  · rw [← hlines _ h]
    rfl

end Assembly
end WordMachine
