import WordMachine.Proofs.Assembly.Appending

namespace WordMachine

namespace SourceLine

def isDirective (line : SourceLine) : Bool :=
  match line.op? with
  | some op => Layout.isLoc op
  | none => false

/-- The label that a line defines. A label without an operation is not defined. -/
def definedLabel? (line : SourceLine) : Option Text :=
  match line.op? with
  | some _ => line.label?
  | none => none

end SourceLine

namespace SymbolTable

variable {s s' : SymbolTable}

theorem Denotes.mono (hs : s.Extends s') {token : Text} {v : Int} (h : s.Denotes token v) :
    s'.Denotes token v := by
  unfold Denotes at h ⊢
  split
  · next hliteral => rwa [if_pos hliteral] at h
  · next hliteral =>
    rw [if_neg hliteral] at h
    exact hs token v h

theorem Denotes.unique {token : Text} {u v : Int} (hu : s.Denotes token u)
    (hv : s.Denotes token v) : u = v := by
  unfold Denotes at hu hv
  split at hu
  · next hliteral =>
    rw [if_pos hliteral] at hv
    exact Except.ok.inj (hu.symm.trans hv)
  · next hliteral =>
    rw [if_neg hliteral] at hv
    exact Option.some.inj (hu.symm.trans hv)

def labels (s : SymbolTable) : List Text := s.entries.map Prod.fst

theorem mem_labels_of_get? {label : Text} {v : Int} (h : s.get? label = some v) :
    label ∈ s.labels := by
  obtain ⟨before, after, hentries, -⟩ := List.lookup_eq_some_iff.1 h
  simp [labels, hentries]

theorem not_mem_labels_of_get? {label : Text} (h : s.get? label = none) : label ∉ s.labels := by
  intro hlabel
  obtain ⟨e, he, rfl⟩ := List.mem_map.1 hlabel
  have hne := List.lookup_eq_none_iff.1 h e he
  simp at hne

theorem labels_define {label : Text} {address : Int} (h : s.define label address = .ok s') :
    s'.labels = s.labels ++ [label] ∧ label ∉ s.labels := by
  unfold define contains at h
  split at h
  · cases h
  · next hnew =>
    cases h
    exact ⟨by simp [labels], not_mem_labels_of_get? (by simpa using hnew)⟩

end SymbolTable

namespace Layout

/-- What the location counter shows after some lines: the words since the last directive, counted
from what its operand stands for, or from 0 if there is no directive. -/
inductive CounterAfter (symbols : SymbolTable) : List SourceLine → Nat → Prop
  | fromZero {lines : List SourceLine} (hlines : ∀ l ∈ lines, l.isDirective = false) :
    CounterAfter symbols lines (lines.countP SourceLine.takesWord)
  | fromDirective {before after : List SourceLine} {directive : SourceLine} {token : Text}
    {target : Nat} (hdirective : directive.isDirective = true)
    (hoperands : directive.operands = [token]) (htarget : symbols.Denotes token target)
    (hafter : ∀ l ∈ after, l.isDirective = false) :
    CounterAfter symbols (before ++ directive :: after)
      (target + after.countP SourceLine.takesWord)

namespace CounterAfter

variable {symbols symbols' : SymbolTable} {lines : List SourceLine} {n : Nat}

theorem mono (hs : symbols.Extends symbols') (h : CounterAfter symbols lines n) :
    CounterAfter symbols' lines n := by
  cases h with
  | fromZero hlines => exact .fromZero hlines
  | fromDirective hdirective hoperands htarget hafter =>
    exact .fromDirective hdirective hoperands (htarget.mono hs) hafter

/-- A line that is no directive is counted if it takes a word. -/
theorem concat (h : CounterAfter symbols lines n) {line : SourceLine}
    (hline : line.isDirective = false) :
    CounterAfter symbols (lines ++ [line]) (n + if line.takesWord then 1 else 0) := by
  have hall {ls : List SourceLine} (hls : ∀ l ∈ ls, l.isDirective = false) :
      ∀ l ∈ ls ++ [line], l.isDirective = false := by
    intro l hl
    rcases List.mem_append.1 hl with hl | hl
    · exact hls l hl
    · rw [List.mem_singleton.1 hl, hline]
  have hcount (ls : List SourceLine) :
      (ls ++ [line]).countP SourceLine.takesWord =
        ls.countP SourceLine.takesWord + if line.takesWord then 1 else 0 := by
    rw [List.countP_append, List.countP_singleton]
  cases h with
  | fromZero hlines =>
    rw [← hcount]
    exact .fromZero (hall hlines)
  | fromDirective hdirective hoperands htarget hafter =>
    rw [Nat.add_assoc, ← hcount, List.append_assoc, List.cons_append]
    exact .fromDirective hdirective hoperands htarget (hall hafter)

/-- The last directive of a list of lines is where the list can be cut in one way only. -/
theorem eq_of_append_eq {before before' after after' : List SourceLine}
    {directive directive' : SourceLine}
    (h : before ++ directive :: after = before' ++ directive' :: after')
    (hdirective : directive.isDirective = true) (hdirective' : directive'.isDirective = true)
    (hafter : ∀ l ∈ after, l.isDirective = false) (hafter' : ∀ l ∈ after', l.isDirective = false) :
    directive = directive' ∧ after = after' := by
  rcases List.append_eq_append_iff.1 h with ⟨between, rfl, hrest⟩ | ⟨between, rfl, hrest⟩
  · cases between with
    | nil => exact ⟨(List.cons.inj hrest).1, (List.cons.inj hrest).2⟩
    | cons l between =>
      obtain ⟨rfl, rfl⟩ := List.cons.inj hrest
      have hno := hafter directive' (by simp)
      rw [hdirective'] at hno
      cases hno
  · cases between with
    | nil => exact ⟨(List.cons.inj hrest).1.symm, (List.cons.inj hrest).2.symm⟩
    | cons l between =>
      obtain ⟨rfl, rfl⟩ := List.cons.inj hrest
      have hno := hafter' directive (by simp)
      rw [hdirective] at hno
      cases hno

theorem unique {n' : Nat} (h : CounterAfter symbols lines n) (h' : CounterAfter symbols lines n') :
    n = n' := by
  have hdirective {before after : List SourceLine} {directive : SourceLine}
      (hd : directive.isDirective = true) :
      ¬ ∀ l ∈ before ++ directive :: after, l.isDirective = false := by
    intro hno
    rw [hno directive (by simp)] at hd
    cases hd
  generalize hlines : lines = lines' at h'
  cases h with
  | fromZero hno =>
    cases h' with
    | fromZero hno' => rw [hlines]
    | fromDirective hd' _ _ _ => exact absurd (hlines ▸ hno) (hdirective hd')
  | fromDirective hd hoperands htarget hafter =>
    cases h' with
    | fromZero hno' => exact absurd (hlines ▸ hno') (hdirective hd)
    | fromDirective hd' hoperands' htarget' hafter' =>
      obtain ⟨rfl, rfl⟩ := eq_of_append_eq hlines hd hd' hafter hafter'
      obtain rfl := (List.cons.inj (hoperands.symm.trans hoperands')).1
      rw [Int.ofNat_inj.1 (htarget.unique htarget')]

end CounterAfter

/-- How a line is laid out after the lines before it, where the counter shows `n`. -/
structure LaidOutAt (symbols : SymbolTable) (before : List SourceLine) (p : PlacedLine)
    (n : Nat) : Prop where
  counter : CounterAfter symbols before n
  place : p.place =
    if p.line.takesWord then .at n else if p.line.isDirective then .directive else .nowhere
  inMemory : p.line.takesWord = true → n < memorySize
  label : ∀ l, p.line.definedLabel? = some l → symbols.get? l = some (n : Int)
  /-- A directive has one operand, a numeral or a label of its own line or one before. -/
  operand : p.line.isDirective = true → ∃ token, p.line.operands = [token] ∧
    (Numeral.isDecimalLiteral token = false →
      token ∈ (before ++ [p.line]).filterMap SourceLine.definedLabel?)

/-- What layout knows after some lines: their labels, each once, and the counter. -/
structure Knows (lines : List SourceLine) (symbols : SymbolTable) (n : Nat) : Prop where
  labels : symbols.labels = lines.filterMap SourceLine.definedLabel?
  nodup : symbols.labels.Nodup
  counter : CounterAfter symbols lines n

variable {symbols : SymbolTable} {counter : Nat} {number : Int}

theorem LaidOutAt.mono {symbols' : SymbolTable} (hs : symbols.Extends symbols')
    {before : List SourceLine} {p : PlacedLine} (h : LaidOutAt symbols before p counter) :
    LaidOutAt symbols' before p counter :=
  ⟨h.counter.mono hs, h.place, h.inMemory, fun l hl => hs l _ (h.label l hl), h.operand⟩

theorem Knows.zero : Knows [] .empty 0 :=
  ⟨rfl, List.nodup_nil, .fromZero (by simp)⟩

theorem locTarget_eq_ok {operands : List Text} {target : Nat}
    (h : locTarget symbols number operands = .ok target) :
    ∃ token, operands = [token] ∧ symbols.Denotes token target := by
  unfold locTarget at h
  split at h
  · next token =>
    obtain ⟨v, hv, h⟩ := bind_eq_ok.1 h
    split at h
    · cases h
    · next hv0 =>
      cases h
      refine ⟨token, rfl, ?_⟩
      rw [Int.toNat_of_nonneg (by omega)]
      exact SymbolTable.denotes_of_resolve hv
  · cases h

/-- What a step that does not fail has done: nothing to a line without an operation, and else it has
defined the label of the line and has placed its operation. -/
theorem step_cases {line : SourceLine} (h : (step symbols counter number line).failure? = none) :
    (line.op? = none ∧ step symbols counter number line = ⟨.nowhere, symbols, counter, none⟩) ∨
    ∃ op symbols', line.op? = some op ∧ defineLabel symbols counter line.label? = .ok symbols' ∧
      ((isLoc op = true ∧ ∃ token target, line.operands = [token] ∧
          symbols'.Denotes token (target : Nat) ∧
          step symbols counter number line = ⟨.directive, symbols', target, none⟩) ∨
        (isLoc op = false ∧ counter < memorySize ∧
          step symbols counter number line = ⟨.at counter, symbols', counter + 1, none⟩)) := by
  cases hop : line.op? with
  | none => exact .inl ⟨rfl, by simp [step, hop]⟩
  | some op =>
    cases hd : defineLabel symbols counter line.label? with
    | error cause => simp [step, hop, hd] at h
    | ok symbols' =>
      refine .inr ⟨op, symbols', rfl, rfl, ?_⟩
      simp only [step, hop, hd, placeOperation] at h ⊢
      by_cases hloc : isLoc op = true
      · simp only [hloc, if_true] at h ⊢
        cases htarget : locTarget symbols' number line.operands with
        | error failure => simp [htarget] at h
        | ok target =>
          obtain ⟨token, hoperands, hdenotes⟩ := locTarget_eq_ok htarget
          exact .inl ⟨trivial, token, target, hoperands, hdenotes, rfl⟩
      · simp only [hloc, Bool.false_eq_true, if_false] at h ⊢
        by_cases hfull : memorySize ≤ counter
        · simp [hfull] at h
        · exact .inr ⟨trivial, Nat.lt_of_not_le hfull, if_neg hfull⟩

variable {before : List SourceLine} {symbols' : SymbolTable} {line : SourceLine}

theorem Knows.defineLabel (h : Knows before symbols counter) (hop : line.op?.isSome = true)
    (hd : defineLabel symbols counter line.label? = .ok symbols') :
    symbols'.labels = (before ++ [line]).filterMap SourceLine.definedLabel? ∧
      symbols'.labels.Nodup ∧ CounterAfter symbols' before counter ∧
      ∀ l, line.definedLabel? = some l → symbols'.get? l = some (counter : Int) := by
  obtain ⟨op, hop⟩ := Option.isSome_iff_exists.1 hop
  have hcounter := h.counter.mono (extends_defineLabel hd)
  have hdefined : line.definedLabel? = line.label? := by simp only [SourceLine.definedLabel?, hop]
  rw [List.filterMap_append, ← h.labels]
  cases hlabel : line.label? with
  | none =>
    rw [hlabel] at hd hdefined
    cases hd
    exact ⟨by simp [hdefined], h.nodup, hcounter, by simp [hdefined]⟩
  | some label =>
    rw [hlabel] at hd hdefined
    obtain ⟨hlabels, hnew⟩ := SymbolTable.labels_define hd
    refine ⟨by simp [hdefined, hlabels], ?_, hcounter, ?_⟩
    · rw [hlabels]
      exact List.nodup_append.2 ⟨h.nodup, by simp, by
        rintro l hl l' hl' rfl
        exact hnew (List.mem_singleton.1 hl' ▸ hl)⟩
    · rintro l hl
      obtain rfl := Option.some.inj (hdefined.symm.trans hl)
      rw [SymbolTable.get?_define hd, if_pos rfl]

/-- A step that does not fail lays out its line and counts it. -/
theorem Knows.step (h : Knows before symbols counter)
    (hs : (step symbols counter number line).failure? = none) :
    let s := step symbols counter number line
    LaidOutAt s.symbols before ⟨line, s.place, none⟩ counter ∧
      Knows (before ++ [line]) s.symbols s.counter := by
  rcases step_cases hs with ⟨hop, hstep⟩ | ⟨op, symbols', hop, hd, hplaced⟩
  · have htakes : line.takesWord = false := by simp only [SourceLine.takesWord, hop]
    have hno : line.isDirective = false := by simp only [SourceLine.isDirective, hop]
    have hdefined : line.definedLabel? = none := by simp only [SourceLine.definedLabel?, hop]
    have hcounted := h.counter.concat hno
    rw [htakes] at hcounted
    simp only [hstep]
    refine ⟨⟨h.counter, ?_, ?_, ?_, ?_⟩, ?_, h.nodup, hcounted⟩
    · simp [htakes, hno]
    · simp [htakes]
    · simp [hdefined]
    · simp [hno]
    · simp [h.labels, hdefined]
  · obtain ⟨hlabels, hnodup, hcounter, hlabel⟩ :=
      h.defineLabel (Option.isSome_iff_exists.2 ⟨op, hop⟩) hd
    rcases hplaced with ⟨hloc, token, target, hoperands, htarget, hstep⟩ | ⟨hloc, hmemory, hstep⟩
    · have htakes : line.takesWord = false := by simp [SourceLine.takesWord, hop, hloc]
      have hdirective : line.isDirective = true := by simp [SourceLine.isDirective, hop, hloc]
      simp only [hstep]
      refine ⟨⟨hcounter, ?_, ?_, hlabel, ?_⟩, hlabels, hnodup, ?_⟩
      · simp [htakes, hdirective]
      · simp [htakes]
      · refine fun _ => ⟨token, hoperands, fun hliteral => ?_⟩
        -- The label of the line is defined before the operand is looked up.
        rw [← hlabels]
        unfold SymbolTable.Denotes at htarget
        rw [hliteral] at htarget
        exact SymbolTable.mem_labels_of_get? htarget
      · exact .fromDirective hdirective hoperands htarget (by simp)
    · have htakes : line.takesWord = true := by simp [SourceLine.takesWord, hop, hloc]
      have hno : line.isDirective = false := by simp [SourceLine.isDirective, hop, hloc]
      have hcounted := hcounter.concat hno
      rw [htakes] at hcounted
      simp only [hstep]
      refine ⟨⟨hcounter, ?_, fun _ => hmemory, hlabel, ?_⟩, hlabels, hnodup, hcounted⟩
      · simp [htakes]
      · simp [hno]

/-- Where layout starts from what is known, it lays out each line at the counter that the lines
before it leave. -/
theorem Knows.ofLines {texts : List Text} (h : Knows before symbols counter)
    (hf : (ofLines symbols counter number texts).failure? = none) :
    let layout := ofLines symbols counter number texts
    (∃ n, Knows (before ++ layout.lines.map (·.line)) layout.symbols n) ∧
      ∀ first p rest, layout.lines = first ++ p :: rest →
        ∃ n, LaidOutAt layout.symbols (before ++ first.map (·.line)) p n := by
  induction texts generalizing before symbols counter number with
  | nil => exact ⟨⟨counter, by simpa [Layout.ofLines] using h⟩, by simp [Layout.ofLines]⟩
  | cons t texts ih =>
    rw [Layout.ofLines] at hf ⊢
    cases hs : (Layout.step symbols counter number (SourceLine.read t)).failure? with
    | some failure => simp [hs] at hf
    | none =>
      simp only [hs] at hf ⊢
      obtain ⟨hline, hknows⟩ := h.step hs
      obtain ⟨hafter, hrest⟩ := ih hknows hf
      refine ⟨by simpa using hafter, ?_⟩
      -- The line is the first one, which keeps its place while symbols are added, or a later one.
      rintro (_ | ⟨q, first⟩) p rest hsplit
      · obtain ⟨rfl, -⟩ := List.cons.inj hsplit
        refine ⟨counter, ?_⟩
        rw [List.map_nil, List.append_nil]
        exact hline.mono (SymbolTable.extends_of_prefix (entries_prefix_ofLines texts))
      · rw [List.cons_append] at hsplit
        obtain ⟨rfl, hlater⟩ := List.cons.inj hsplit
        simpa using hrest first p rest hlater

/-- The layout of a text that is laid out whole: the symbols are the labels of the lines with an
operation, each once and in source order, and a line has its label and its place where the counter
after the lines before it stands. No directive goes to a label that is defined on a later line. -/
theorem laidOut_ofText {text : Text} (h : (ofText text).failure? = none) :
    let layout := ofText text
    layout.lines.map (·.line) = (Text.lines text).map SourceLine.read ∧
      layout.symbols.labels = (layout.lines.map (·.line)).filterMap SourceLine.definedLabel? ∧
      layout.symbols.labels.Nodup ∧
      ∀ before p after, layout.lines = before ++ p :: after →
        ∃ n, LaidOutAt layout.symbols (before.map (·.line)) p n ∧
          (∀ n', CounterAfter layout.symbols (before.map (·.line)) n' → n' = n) ∧
          (p.line.isDirective = true → ∀ token ∈ p.line.operands,
            Numeral.isDecimalLiteral token = false →
            ∀ q ∈ after, q.line.definedLabel? ≠ some token) := by
  obtain ⟨⟨n, hknows⟩, hlines⟩ := Knows.zero.ofLines h
  rw [← ofText, List.nil_append] at hknows
  simp only [List.nil_append] at hlines
  refine ⟨map_line_ofLines h, hknows.labels, hknows.nodup, fun before p after hsplit => ?_⟩
  obtain ⟨n, hline⟩ := hlines before p after hsplit
  refine ⟨n, hline, fun n' hn' => hn'.unique hline.counter, ?_⟩
  intro hdirective token htoken hliteral q hq hlabel
  -- The label would be there twice, since the operand is a label of this line or one before.
  obtain ⟨token', hoperands, hbefore⟩ := hline.operand hdirective
  rw [hoperands, List.mem_singleton] at htoken
  subst htoken
  have hlater : token ∈ (after.map (·.line)).filterMap SourceLine.definedLabel? :=
    List.mem_filterMap.2 ⟨q.line, List.mem_map_of_mem hq, hlabel⟩
  have hnodup := hknows.labels ▸ hknows.nodup
  rw [hsplit, List.map_append, List.map_cons, List.append_cons, List.filterMap_append] at hnodup
  exact (List.nodup_append.1 hnodup).2.2 token (hbefore hliteral) token hlater rfl

/-- A program that leaves memory and comes back, has a label on a line of its own, and goes to the
label of the very line. -/
def wanderingProgram : Text :=
  "A: LDR 1,0,5\n LOC 3000\nB: loc A\nC: HLT\nOnly:\nD: LOC D\nE: Data 7\n".toList

theorem laidOut_wanderingProgram :
    let layout := ofText wanderingProgram
    layout.symbols.entries = [("A".toList, 0), ("B".toList, 3000), ("C".toList, 0),
        ("D".toList, 1), ("E".toList, 1)] ∧
      layout.symbols.labels.Nodup ∧
      CounterAfter layout.symbols ((layout.lines.take 6).map (·.line)) 1 := by
  obtain ⟨-, -, hnodup, hlines⟩ := @laidOut_ofText wanderingProgram rfl
  refine ⟨rfl, hnodup, ?_⟩
  obtain ⟨n, hlast, -, -⟩ := hlines ((ofText wanderingProgram).lines.take 6) _ [] rfl
  obtain rfl : 1 = n := Place.at.inj hlast.place
  exact hlast.counter

end Layout
end WordMachine
