import WordMachine.Proofs.Assembly.Determined
import WordMachine.Proofs.Assembly.StartAddress
import WordMachine.Text.Lines

namespace WordMachine

namespace SymbolTable

variable {s s' : SymbolTable}

theorem entries_prefix_of_define {label : Text} {address : Int}
    (h : s.define label address = .ok s') : s.entries <+: s'.entries := by
  unfold define at h
  split at h
  · cases h
  · cases h
    exact List.prefix_append _ _

theorem extends_of_prefix (h : s.entries <+: s'.entries) : s.Extends s' := by
  intro l v hl
  obtain ⟨rest, hrest⟩ := h
  rw [get?] at hl ⊢
  rw [← hrest, List.lookup_append, hl]
  rfl

end SymbolTable

namespace Layout

variable {symbols : SymbolTable} {counter : Nat} {number : Int} {texts : List Text}

theorem entries_prefix_step (line : SourceLine) :
    symbols.entries <+: (step symbols counter number line).symbols.entries := by
  cases hop : line.op? with
  | none =>
    simp only [step, hop]
    exact List.prefix_refl _
  | some op =>
    cases hd : defineLabel symbols counter line.label? with
    | error cause =>
      simp only [step, hop, hd]
      exact List.prefix_refl _
    | ok symbols' =>
      simp only [step, hop, hd, placeOperation_symbols]
      cases hlabel : line.label? with
      | none =>
        rw [hlabel] at hd
        cases hd
        exact List.prefix_refl _
      | some label =>
        rw [hlabel] at hd
        exact SymbolTable.entries_prefix_of_define hd

/-- Layout adds symbols after those that are there. -/
theorem entries_prefix_ofLines (texts : List Text) :
    symbols.entries <+: (ofLines symbols counter number texts).symbols.entries := by
  induction texts generalizing symbols counter number with
  | nil => exact List.prefix_refl _
  | cons t texts ih =>
    have hstep := @entries_prefix_step symbols counter number (SourceLine.read t)
    rw [ofLines]
    simp only
    split
    · exact hstep
    · exact hstep.trans ih

theorem ofLines_append_of_failure? {f : Failure}
    (h : (ofLines symbols counter number texts).failure? = some f) (more : List Text) :
    ofLines symbols counter number (texts ++ more) = ofLines symbols counter number texts := by
  induction texts generalizing symbols counter number with
  | nil => cases h
  | cons t texts ih =>
    rw [ofLines] at h
    rw [List.cons_append, ofLines, ofLines]
    simp only at h ⊢
    split
    · rfl
    · next hnone =>
      rw [hnone] at h
      rw [ih h]

/-- Lines that are appended are laid out from the symbols and the counter that the lines before
them leave. -/
theorem exists_ofLines_append (h : (ofLines symbols counter number texts).failure? = none) :
    ∃ counter', ∀ more, ofLines symbols counter number (texts ++ more) =
      let before := ofLines symbols counter number texts
      let after := ofLines before.symbols counter' (number + texts.length) more
      { after with lines := before.lines ++ after.lines } := by
  induction texts generalizing symbols counter number with
  | nil =>
    refine ⟨counter, fun more => ?_⟩
    simp [ofLines]
  | cons t texts ih =>
    rw [ofLines] at h
    simp only at h
    cases hstep : (step symbols counter number (SourceLine.read t)).failure? with
    | some f =>
      rw [hstep] at h
      cases h
    | none =>
      rw [hstep] at h
      -- The first line does not fail, so the others are laid out after it.
      obtain ⟨counter', hmore⟩ := ih h
      refine ⟨counter', fun more => ?_⟩
      have hnumber : number + ((t :: texts).length : Int) = number + 1 + (texts.length : Int) := by
        rw [List.length_cons]
        omega
      rw [hnumber, List.cons_append, ofLines, ofLines]
      simp only [hstep, hmore more, List.cons_append]

theorem ofText_prefix {a : Text} (ha : a.EndsLine) (b : Text)
    (h : (ofText a).failure? = none) :
    (ofText a).lines <+: (ofText (a ++ b)).lines ∧
      (ofText a).symbols.entries <+: (ofText (a ++ b)).symbols.entries := by
  obtain ⟨counter, hmore⟩ := exists_ofLines_append h
  have hlayout := hmore (Text.lines b)
  rw [← Text.lines_append ha] at hlayout
  change ofText (a ++ b) = _ at hlayout
  rw [hlayout]
  exact ⟨List.prefix_append _ _, entries_prefix_ofLines (Text.lines b)⟩

end Layout

namespace Assembly

variable {text more : Text} {a c : Assembly}

theorem ofText_eq_error {f : Failure} (h : (Layout.ofText text).failure? = some f) :
    ofText text = .error f := by
  rw [ofText]
  simp only [h]

/-- The lines of a program are left as they are when others follow, and new symbols follow the
old ones. -/
theorem lines_prefix (htext : text.EndsLine) (h : ofText text = .ok a)
    (h' : ofText (text ++ more) = .ok c) :
    a.lines <+: c.lines ∧ a.symbols.entries <+: c.symbols.entries := by
  obtain ⟨hlines, hentries⟩ := Layout.ofText_prefix htext more (of_ofText h).1
  rw [← symbols_eq h, ← symbols_eq h'] at hentries
  refine ⟨?_, hentries⟩
  -- The first lines of the whole have the shape of the old ones, which more symbols settle as well.
  have hfirst := hlines.map PlacedLine.shape
  rw [← map_shape h, ← map_shape h', List.prefix_iff_eq_take, List.length_map,
    ← List.map_take] at hfirst
  rw [List.prefix_iff_eq_take]
  have hold : ∀ p ∈ a.lines, Settled c.symbols p := fun p hp =>
    (settled_of_mem h hp).of_extends (SymbolTable.extends_of_prefix hentries)
  have hnew : ∀ p ∈ c.lines.take a.lines.length, Settled c.symbols p := fun p hp =>
    settled_of_mem h' (List.mem_of_mem_take hp)
  exact Settled.eq_of_map_shape hold hnew hfirst

/-- What a program is assembled to is the beginning of what it is assembled to when others follow;
and where it fails in layout, it fails in the same way with any program after it. -/
theorem assembled_prefix_of_append (htext : text.EndsLine) (more : Text) :
    (∀ a c, ofText text = .ok a → ofText (text ++ more) = .ok c →
      a.records <+: c.records ∧ a.load <+: c.load ∧ a.listing <+: c.listing ∧
        a.symbols.entries <+: c.symbols.entries) ∧
      ∀ f, (Layout.ofText text).failure? = some f →
        ofText text = .error f ∧ ofText (text ++ more) = .error f := by
  constructor
  · intro a c h h'
    obtain ⟨hlines, hentries⟩ := lines_prefix htext h h'
    have hrecords : a.records <+: c.records := hlines.filterMap PlacedLine.record?
    refine ⟨hrecords, ?_, ?_, hentries⟩
    · rw [load_eq h, load_eq h', LoadImage.loadText_rows, LoadImage.loadText_rows]
      exact Text.unlines_prefix (hrecords.map _)
    · rw [listing_eq h, listing_eq h']
      exact Text.unlines_prefix (hlines.map _)
  · intro f hf
    refine ⟨ofText_eq_error hf, ofText_eq_error ?_⟩
    rw [Layout.ofText, Text.lines_append htext,
      Layout.ofLines_append_of_failure? (f := f) hf (Text.lines more)]
    exact hf

/-- A program that uses a label before its definition. -/
def forwardProgram : Text := " LDR 1,0,Sum\nSum: Data 10\n".toList

def repeatedLabel : Text := "Sum: Data 1\nSum: Data 2\n".toList

theorem forwardProgram_append :
    (∃ a c, ofText forwardProgram = .ok a ∧ ofText (forwardProgram ++ "Data Sum".toList) = .ok c ∧
      a.records <+: c.records ∧ c.records = [⟨0, 0o002401⟩, ⟨1, 10⟩, ⟨2, 1⟩] ∧
      a.listing <+: c.listing) ∧
    ofText (repeatedLabel ++ "LOC X".toList) =
      .error (.reported (.duplicateLabel "Sum".toList) (some 2)) := by
  have ha : ofText forwardProgram = .ok _ := rfl
  have hc : ofText (forwardProgram ++ "Data Sum".toList) = .ok _ := rfl
  have hends : forwardProgram.EndsLine := .inr rfl
  have hends' : repeatedLabel.EndsLine := .inr rfl
  obtain ⟨hrecords, -, hlisting, -⟩ := (assembled_prefix_of_append hends "Data Sum".toList).1 _ _ ha hc
  refine ⟨⟨_, _, ha, hc, hrecords, rfl, hlisting⟩, ?_⟩
  exact ((assembled_prefix_of_append hends' "LOC X".toList).2 _ rfl).2

end Assembly
end WordMachine
