import WordMachine.Proofs.Assembly.Statements
import WordMachine.Proofs.Instruction.Encoding
import WordMachine.Proofs.SourceLine.Renaming

namespace WordMachine

def Cause.rename (σ : Renaming) : Cause → Cause
  | .duplicateLabel label => .duplicateLabel (σ.apply label)
  | .unknownLabel label => .unknownLabel (σ.apply label)
  | cause => cause

@[simp] theorem Cause.kind_rename (σ : Renaming) (cause : Cause) :
    (cause.rename σ).kind = cause.kind := by
  cases cause <;> rfl

@[simp] theorem Cause.numbers_rename (σ : Renaming) (cause : Cause) :
    (cause.rename σ).numbers = cause.numbers := by
  cases cause <;> rfl

namespace Failure

def kind? : Failure → Option Kind
  | reported cause _ => some cause.kind
  | aborted _ => none

def line? : Failure → Option Int
  | reported _ line? => line?
  | aborted _ => none

def rename (σ : Renaming) : Failure → Failure
  | reported cause line? => reported (cause.rename σ) line?
  | failure => failure

variable (σ : Renaming)

theorem kind?_rename (f : Failure) : (f.rename σ).kind? = f.kind? := by
  cases f with
  | reported cause line? => exact congrArg some (cause.kind_rename σ)
  | aborted abort => rfl

theorem line?_rename (f : Failure) : (f.rename σ).line? = f.line? := by
  cases f <;> rfl

theorem rename_report (cause : Cause) (line? : Option Int) :
    (report cause line?).rename σ = report (cause.rename σ) line? := by
  rw [report, report, Cause.numbers_rename]
  split <;> rfl

theorem rename_report_of_eq {cause : Cause} (h : cause.rename σ = cause) (line? : Option Int) :
    (report cause line?).rename σ = report cause line? := by
  rw [rename_report, h]

theorem rename_atLine (line : Int) (f : Failure) :
    (f.atLine line).rename σ = (f.rename σ).atLine line := by
  rcases f with ⟨cause, _ | _⟩ | abort <;> rfl

end Failure

namespace SymbolTable

variable (σ : Renaming) (s : SymbolTable)

def rename : SymbolTable := ⟨s.entries.map (Prod.map σ.apply id)⟩

@[simp] theorem get?_rename (label : Text) :
    (s.rename σ).get? (σ.apply label) = s.get? label := by
  obtain ⟨entries⟩ := s
  rw [get?, get?, rename]
  induction entries with
  | nil => rfl
  | cons entry entries ih =>
    obtain ⟨l, address⟩ := entry
    have hkey : (σ.apply label == σ.apply l) = (label == l) := by
      rw [Bool.eq_iff_iff, beq_iff_eq, beq_iff_eq, σ.apply_injective.eq_iff]
    simp only [List.map_cons, Prod.map_apply, id_eq, List.lookup_cons, hkey] at ih ⊢
    rw [ih]

theorem define_rename (label : Text) (address : Int) :
    (s.rename σ).define (σ.apply label) address =
      ((s.define label address).map (rename σ)).mapError (Cause.rename σ) := by
  rw [define, define, contains, contains, get?_rename]
  split
  · rfl
  · simp [Except.map, Except.mapError, rename]

theorem find_rename (label : Text) :
    (s.rename σ).find (σ.apply label) = (s.find label).mapError (Cause.rename σ) := by
  rw [find, find, get?_rename]
  split <;> rfl

/-- A literal has the value it had, and another operand the address of its label. -/
theorem resolve_rename (token : Text) (line? : Option Int) :
    (s.rename σ).resolve (σ.apply token) line? =
      (s.resolve token line?).mapError (Failure.rename σ) := by
  rw [resolve, resolve, σ.isDecimalLiteral_apply]
  by_cases h : Numeral.isDecimalLiteral token = true
  · rw [if_pos h, if_pos h, σ.apply_of_isDecimalLiteral h]
    split <;> rfl
  · rw [if_neg h, if_neg h, find_rename]
    cases s.find token with
    | ok address => rfl
    | error cause => exact congrArg Except.error (Failure.rename_report σ cause line?).symm

end SymbolTable

structure PlacedLine.Renames (σ : Renaming) (p p' : PlacedLine) : Prop where
  line : p.line.Renames σ p'.line
  place : p'.place = p.place
  word? : p'.word? = p.word?

namespace Layout

variable (σ : Renaming) (symbols : SymbolTable) (counter : Nat) (number : Int)

def Step.rename (s : Step) : Step :=
  { s with symbols := s.symbols.rename σ, failure? := s.failure?.map (Failure.rename σ) }

theorem defineLabel_rename (label? : Option Text) :
    defineLabel (symbols.rename σ) counter (label?.map σ.apply) =
      ((defineLabel symbols counter label?).map (SymbolTable.rename σ)).mapError
        (Cause.rename σ) := by
  cases label? with
  | none => rfl
  | some label => exact symbols.define_rename σ label counter

theorem locTarget_rename (operands : List Text) :
    locTarget (symbols.rename σ) number (operands.map σ.apply) =
      (locTarget symbols number operands).mapError (Failure.rename σ) := by
  match operands with
  | [] => exact congrArg Except.error (Failure.rename_report_of_eq σ rfl _).symm
  | [token] =>
    simp only [locTarget, List.map_cons, List.map_nil, symbols.resolve_rename, mapError_bind]
    congr 1
    funext v
    split
    · exact congrArg Except.error (Failure.rename_report_of_eq σ rfl _).symm
    · rfl
  | token :: token' :: rest =>
    simp only [locTarget, List.map_cons, List.length_cons, List.length_map]
    exact congrArg Except.error (Failure.rename_report_of_eq σ rfl _).symm

theorem placeOperation_rename (op : Text) (operands : List Text) :
    placeOperation (symbols.rename σ) counter number op (operands.map σ.apply) =
      (placeOperation symbols counter number op operands).rename σ := by
  rw [placeOperation, placeOperation]
  split
  · rw [locTarget_rename]
    cases locTarget symbols number operands <;> rfl
  · split
    · simp [Step.rename, Failure.rename_report, Cause.rename]
    · rfl

/-- A step does the same under the new names. -/
theorem step_rename {line line' : SourceLine} (h : line.Renames σ line') :
    step (symbols.rename σ) counter number line' =
      (step symbols counter number line).rename σ := by
  rw [step, step, h.op?, h.label?, h.operands, defineLabel_rename]
  cases line.op? with
  | none => rfl
  | some op =>
    cases defineLabel symbols counter line.label? with
    | error cause => simp [Step.rename, Failure.rename_report, Except.map, Except.mapError]
    | ok symbols' => exact placeOperation_rename σ symbols' counter number op line.operands

/-- Two layouts of which the second one has the new names and the old places. -/
structure Renames (layout layout' : Layout) : Prop where
  lines : List.Forall₂ (PlacedLine.Renames σ) layout.lines layout'.lines
  symbols : layout'.symbols = layout.symbols.rename σ
  failure? : layout'.failure? = layout.failure?.map (Failure.rename σ)

variable {σ}

theorem renames_ofLines {texts texts' : List Text}
    (h : List.Forall₂ (fun t t' => (SourceLine.read t).Renames σ (SourceLine.read t'))
      texts texts') :
    (ofLines symbols counter number texts).Renames σ
      (ofLines (symbols.rename σ) counter number texts') := by
  -- The two programs go side by side, and the symbols with them.
  induction h generalizing symbols counter number with
  | nil => exact ⟨.nil, rfl, rfl⟩
  | @cons t t' texts texts' ht h ih =>
    rw [ofLines, ofLines, step_rename σ symbols counter number ht]
    cases hs : (step symbols counter number (SourceLine.read t)).failure? with
    | some failure =>
      simp only [Step.rename, hs, Option.map_some]
      exact ⟨.cons ⟨ht, rfl, rfl⟩ .nil, rfl, rfl⟩
    | none =>
      simp only [Step.rename, hs, Option.map_none]
      obtain ⟨hlines, hsymbols, hfailure⟩ := ih _ _ (number + 1)
      exact ⟨.cons ⟨ht, rfl, rfl⟩ hlines, hsymbols, hfailure⟩

theorem renames_ofText {text text' : Text} (h : σ.Relates text text') :
    (ofText text).Renames σ (ofText text') :=
  renames_ofLines .empty 0 1 h

end Layout

namespace Emission

variable (σ : Renaming) (symbols : SymbolTable) (number : Int) (op : Text) (operands : List Text)

theorem operandValues_rename :
    operandValues (symbols.rename σ) number op (operands.map σ.apply) =
      (operandValues symbols number op operands).mapError (Failure.rename σ) := by
  have hresolve : (operands.map σ.apply).mapM ((symbols.rename σ).resolve · (some number)) =
      (operands.mapM (symbols.resolve · (some number))).mapError (Failure.rename σ) :=
    mapM_map_of_mapError (fun token => symbols.resolve_rename σ token (some number)) operands
  rw [operandValues, operandValues, hresolve, mapError_bind]
  congr 1
  funext values
  split
  · split
    · split
      · rfl
      · exact congrArg Except.error (Failure.rename_report_of_eq σ rfl _).symm
    · rfl
  · rfl

/-- The encoder sees numbers alone, so it names no label. -/
theorem encodeValues_rename (values : List Int) :
    ((encodeValues op values).mapError Failure.ofCause).mapError (Failure.rename σ) =
      (encodeValues op values).mapError Failure.ofCause := by
  cases h : encodeValues op values with
  | ok word => rfl
  | error cause =>
    have hcause : cause.rename σ = cause := by
      rcases encodeValues_eq_error h with rfl | rfl | ⟨o, v, -, rfl⟩ <;> rfl
    exact congrArg Except.error (Failure.rename_report_of_eq σ hcause none)

theorem value_rename :
    value (symbols.rename σ) number op (operands.map σ.apply) =
      (value symbols number op operands).mapError (Failure.rename σ) := by
  unfold value
  split
  · match operands with
    | [] => exact congrArg Except.error (Failure.rename_report_of_eq σ rfl _).symm
    | [token] => exact symbols.resolve_rename σ token (some number)
    | token :: token' :: rest =>
      simp only [List.map_cons, List.length_cons, List.length_map]
      exact congrArg Except.error (Failure.rename_report_of_eq σ rfl _).symm
  · split
    · rfl
    · rw [operandValues_rename, mapError_bind]
      congr 1
      funext values
      rw [mapError_bind, encodeValues_rename]
      rfl

structure Renames (e e' : Emission) : Prop where
  lines : List.Forall₂ (PlacedLine.Renames σ) e.lines e'.lines
  load : e'.load = e.load
  failure? : e'.failure? = e.failure?.map (Failure.rename σ)

variable {σ}

theorem renames_ofLines {placed placed' : List PlacedLine}
    (h : List.Forall₂ (PlacedLine.Renames σ) placed placed') :
    (ofLines symbols number placed).Renames σ (ofLines (symbols.rename σ) number placed') := by
  induction h generalizing number with
  | nil => exact ⟨.nil, rfl, rfl⟩
  | @cons p p' placed placed' hp h ih =>
    obtain ⟨hlines, hload, hfailure⟩ := ih (number + 1)
    rw [ofLines, ofLines, hp.line.op?, hp.line.operands, hp.place]
    cases p.line.op? with
    | none => exact ⟨.cons hp hlines, hload, hfailure⟩
    | some op =>
      dsimp only
      cases hplace : p.place with
      | «at» address =>
        dsimp only
        rw [value_rename]
        cases value symbols number op p.line.operands with
        | ok v =>
          dsimp only [Except.mapError]
          exact ⟨.cons ⟨hp.line, hp.place, rfl⟩ hlines, congrArg (_ :: ·) hload, hfailure⟩
        | error failure =>
          exact ⟨.cons hp h, rfl, congrArg some (failure.rename_atLine σ number).symm⟩
      | nowhere => exact ⟨.cons hp hlines, hload, hfailure⟩
      | directive => exact ⟨.cons hp hlines, hload, hfailure⟩

theorem renames_ofLayout {layout layout' : Layout} (h : layout.Renames σ layout') :
    (ofLayout layout).Renames σ (ofLayout layout') := by
  rw [ofLayout, ofLayout, h.symbols]
  exact renames_ofLines layout.symbols 1 h.lines

end Emission

namespace PlacedLine.Renames

variable {σ : Renaming} {p p' : PlacedLine}

theorem record? (h : p.Renames σ p') : p'.record? = p.record? := by
  rw [PlacedLine.record?, PlacedLine.record?, h.place, h.word?]

theorem instructionAddress? (h : p.Renames σ p') :
    p'.instructionAddress? = p.instructionAddress? := by
  rw [PlacedLine.instructionAddress?, PlacedLine.instructionAddress?, h.place, h.line.op?]

end PlacedLine.Renames

namespace Assembly

variable {σ : Renaming} {text text' : Text}

structure Renames (σ : Renaming) (a a' : Assembly) : Prop where
  lines : List.Forall₂ (PlacedLine.Renames σ) a.lines a'.lines
  symbols : a'.symbols = a.symbols.rename σ
  load : a'.load = a.load

theorem Renames.records {a a' : Assembly} (h : a.Renames σ a') : a'.records = a.records :=
  filterMap_eq_of_forall₂ (fun _ _ hp => hp.record?) h.lines

theorem Renames.startAddress? {a a' : Assembly} (h : a.Renames σ a') :
    a'.startAddress? = a.startAddress? :=
  startAddress?_congr h.records
    (filterMap_eq_of_forall₂ (fun _ _ hp => hp.instructionAddress?) h.lines)

theorem ofText_of_renames (h : σ.Relates text text') :
    (∃ a a', ofText text = .ok a ∧ ofText text' = .ok a' ∧ a.Renames σ a') ∨
      ∃ f, ofText text = .error f ∧ ofText text' = .error (f.rename σ) := by
  have hlayout := Layout.renames_ofText h
  have hemission := Emission.renames_ofLayout hlayout
  rw [ofText, ofText, hlayout.failure?]
  dsimp only
  cases (Layout.ofText text).failure? with
  | some f => exact .inr ⟨f, rfl, rfl⟩
  | none =>
    dsimp only [Option.map_none]
    rw [hemission.failure?]
    cases (Emission.ofLayout (Layout.ofText text)).failure? with
    | some f => exact .inr ⟨f, rfl, rfl⟩
    | none =>
      have hload := congrArg loadText hemission.load
      exact .inl ⟨_, _, rfl, rfl, hemission.lines, hlayout.symbols, hload⟩

/-- The names of labels do not matter. Every program can be written under new names, and each
program that has them is assembled to the same records, load text and start address, with the
symbols in the same order, or it fails on the same line for the same reason, except that the reason
names a label anew. -/
theorem renaming_immaterial (σ : Renaming) (text : Text) :
    σ.Relates text (σ.renamed text) ∧
      ∀ text', σ.Relates text text' →
        (∃ a a', ofText text = .ok a ∧ ofText text' = .ok a' ∧ a'.records = a.records ∧
          a'.load = a.load ∧ a'.startAddress? = a.startAddress? ∧
          a'.symbols = a.symbols.rename σ) ∨
        ∃ f f', ofText text = .error f ∧ ofText text' = .error f' ∧ f' = f.rename σ ∧
          f'.kind? = f.kind? ∧ f'.line? = f.line? := by
  refine ⟨σ.relates_renamed text, fun text' h => ?_⟩
  obtain ⟨a, a', ha, ha', hsame⟩ | ⟨f, hf, hf'⟩ := ofText_of_renames h
  · exact .inl ⟨a, a', ha, ha', hsame.records, hsame.load, hsame.startAddress?, hsame.symbols⟩
  · exact .inr ⟨f, f.rename σ, hf, hf', rfl, f.kind?_rename σ, f.line?_rename σ⟩

/-- A program whose labels have the names of an operation and a directive. -/
def namesakeProgram : Text :=
  " LOC 6 ; LOC\nLDR: Data LOC\nLOC: ldr 1,0,LDR\n HLT End,x\nEnd:\n".toList

def namesakeSwap : Renaming :=
  (Equiv.swap ⟨"LDR".toList, by decide⟩ ⟨"LOC".toList, by decide⟩).toEmbedding

theorem namesakeProgram_swapped :
    ∃ a a', ofText namesakeProgram = .ok a ∧
      ofText (namesakeSwap.renamed namesakeProgram) = .ok a' ∧
      a'.records = [⟨6, 7⟩, ⟨7, 0o002406⟩, ⟨8, 0⟩] ∧ a'.load = a.load ∧
      a'.startAddress? = some 7 ∧ a'.symbols = ⟨[("LOC".toList, 6), ("LDR".toList, 7)]⟩ ∧
      Text.lines (namesakeSwap.renamed namesakeProgram) =
        ["LOC 6 ;LOC".toList, "LOC: Data LDR".toList, "LDR: ldr 1,0,LOC".toList,
          "HLT End,x".toList, "End: ".toList] := by
  have h : ofText namesakeProgram = .ok _ := rfl
  obtain ⟨hrenamed, hsame⟩ := renaming_immaterial namesakeSwap namesakeProgram
  obtain ⟨a, a', ha, ha', hrecords, hload, hstart, hsymbols⟩ | ⟨f, -, hf, -⟩ := hsame _ hrenamed
  · obtain rfl := Except.ok.inj (h.symm.trans ha)
    refine ⟨_, a', h, ha', ?_, hload, ?_, ?_, ?_⟩
    · rw [hrecords]
      rfl
    · rw [hstart]
      rfl
    · rw [hsymbols]
      rfl
    · rw [namesakeSwap.lines_renamed]
      rfl
  · rw [h] at hf
    cases hf

end Assembly
end WordMachine
