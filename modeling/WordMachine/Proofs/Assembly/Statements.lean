import WordMachine.Proofs.Aligned
import WordMachine.Proofs.Assembly.LoadText
import WordMachine.Proofs.Instruction.Encoding
import WordMachine.Proofs.Results

namespace WordMachine

/-- What a line states. Operations are named without regard to case. -/
structure Statement where
  label? : Option Text
  name : Text
  operands : List Text
deriving DecidableEq

def SourceLine.statement? (line : SourceLine) : Option Statement :=
  line.op?.map fun op => ⟨line.label?, Text.upper op, line.operands⟩

def statements (text : Text) : List Statement :=
  (Text.lines text).filterMap fun t => (SourceLine.read t).statement?

theorem SourceLine.exists_of_statement? {line line' : SourceLine} {s : Statement}
    (h : line.statement? = some s) (h' : line'.statement? = some s) :
    line.label? = line'.label? ∧ line.operands = line'.operands ∧
      ∃ op op', line.op? = some op ∧ line'.op? = some op' ∧ Text.upper op = Text.upper op' := by
  obtain ⟨op, hop, rfl⟩ := Option.map_eq_some_iff.1 h
  obtain ⟨op', hop', heq⟩ := Option.map_eq_some_iff.1 h'
  obtain ⟨hlabel, hname, hoperands⟩ := Statement.mk.inj heq
  exact ⟨hlabel.symm, hoperands.symm, op, op', hop, hop', hname.symm⟩

theorem SourceLine.op?_of_statement? {line : SourceLine} (h : line.statement? = none) :
    line.op? = none :=
  Option.map_eq_none_iff.1 h

structure PlacedStatement where
  statement : Statement
  place : Place
  word? : Option Word

def PlacedLine.stated? (p : PlacedLine) : Option PlacedStatement :=
  p.line.statement?.map (⟨·, p.place, p.word?⟩)

theorem PlacedLine.exists_of_stated? {p p' : PlacedLine} {s : PlacedStatement}
    (h : p.stated? = some s) (h' : p'.stated? = some s) :
    p.place = p'.place ∧ p.word? = p'.word? ∧ p.line.operands = p'.line.operands ∧
      ∃ op op', p.line.op? = some op ∧ p'.line.op? = some op' ∧ Text.upper op = Text.upper op' := by
  obtain ⟨statement, hs, rfl⟩ := Option.map_eq_some_iff.1 h
  obtain ⟨statement', hs', heq⟩ := Option.map_eq_some_iff.1 h'
  obtain ⟨rfl, hplace, hword⟩ := PlacedStatement.mk.inj heq
  obtain ⟨-, hoperands, hop⟩ := SourceLine.exists_of_statement? hs hs'
  exact ⟨hplace.symm, hword.symm, hoperands, hop⟩

theorem PlacedLine.op?_of_stated? {p : PlacedLine} (h : p.stated? = none) : p.line.op? = none :=
  SourceLine.op?_of_statement? (Option.map_eq_none_iff.1 h)

theorem SymbolTable.toOption_resolve (symbols : SymbolTable) (token : Text)
    (line? line?' : Option Int) :
    (symbols.resolve token line?).toOption = (symbols.resolve token line?').toOption := by
  unfold resolve
  by_cases h : Numeral.isDecimalLiteral token = true
  · rw [if_pos h, if_pos h]
  · rw [if_neg h, if_neg h, toOption_mapError, toOption_mapError]

namespace Layout

def Step.complete? (s : Step) : Option Step :=
  match s.failure? with
  | some _ => none
  | none => some s

/-- What layout makes of the statements, if it does not fail. -/
def code? (layout : Layout) : Option (SymbolTable × List PlacedStatement) :=
  match layout.failure? with
  | some _ => none
  | none => some (layout.symbols, layout.lines.filterMap PlacedLine.stated?)

theorem eq_of_code? {layout : Layout} {r : SymbolTable × List PlacedStatement}
    (h : layout.code? = some r) :
    layout.symbols = r.1 ∧ layout.lines.filterMap PlacedLine.stated? = r.2 := by
  rw [code?] at h
  split at h
  · cases h
  · exact Prod.mk.inj (Option.some.inj h)

variable {symbols : SymbolTable} {counter : Nat} {op op' : Text}

theorem toOption_locTarget (number number' : Int) (operands : List Text) :
    (locTarget symbols number operands).toOption =
      (locTarget symbols number' operands).toOption := by
  unfold locTarget
  split
  · next token =>
    rw [toOption_bind, toOption_bind, symbols.toOption_resolve token _ (some number')]
    refine congrArg (Option.bind _) (funext fun v => ?_)
    by_cases hv : v < 0
    · rw [if_pos hv, if_pos hv, toOption_error, toOption_error]
    · rw [if_neg hv, if_neg hv]
  · rfl

theorem isLoc_congr (h : Text.upper op = Text.upper op') : isLoc op = isLoc op' := by
  rw [isLoc, isLoc, h]

theorem complete?_of_isLoc (h : isLoc op = true) (number : Int) (operands : List Text) :
    (placeOperation symbols counter number op operands).complete? =
      (locTarget symbols number operands).toOption.map fun target =>
        ⟨.directive, symbols, target, none⟩ := by
  rw [placeOperation, if_pos h]
  cases locTarget symbols number operands <;> rfl

theorem complete?_placeOperation (h : Text.upper op = Text.upper op') (number number' : Int)
    (operands : List Text) :
    (placeOperation symbols counter number op operands).complete? =
      (placeOperation symbols counter number' op' operands).complete? := by
  have hsame := isLoc_congr h
  by_cases hloc : isLoc op' = true
  · rw [complete?_of_isLoc (hsame.trans hloc), complete?_of_isLoc hloc,
      toOption_locTarget number number']
  · rw [placeOperation, placeOperation, hsame, if_neg hloc, if_neg hloc]
    split <;> rfl

/-- A step depends on what the line states alone. -/
theorem complete?_step {line line' : SourceLine} (h : line.statement? = line'.statement?)
    (number number' : Int) :
    (step symbols counter number line).complete? =
      (step symbols counter number' line').complete? := by
  cases hs : line'.statement? with
  | none =>
    rw [step, step, SourceLine.op?_of_statement? (h.trans hs), SourceLine.op?_of_statement? hs]
  | some s =>
    obtain ⟨hlabel, hoperands, op, op', hop, hop', hname⟩ :=
      SourceLine.exists_of_statement? (h.trans hs) hs
    rw [step, step, hop, hop', hlabel, hoperands]
    simp only
    split
    · rfl
    · exact complete?_placeOperation hname number number' _

theorem code?_ofLines_skip {t : Text} (h : (SourceLine.read t).statement? = none) (number : Int)
    (texts : List Text) :
    (ofLines symbols counter number (t :: texts)).code? =
      (ofLines symbols counter (number + 1) texts).code? := by
  rw [ofLines, step, SourceLine.op?_of_statement? h]
  simp [code?, PlacedLine.stated?, h]

theorem code?_ofLines_cons {t : Text} {s : Statement} (h : (SourceLine.read t).statement? = some s)
    (number : Int) (texts : List Text) :
    (ofLines symbols counter number (t :: texts)).code? =
      (step symbols counter number (SourceLine.read t)).complete?.bind fun r =>
        (ofLines r.symbols r.counter (number + 1) texts).code?.map
          (Prod.map id (⟨s, r.place, none⟩ :: ·)) := by
  rw [ofLines]
  cases hf : (step symbols counter number (SourceLine.read t)).failure? with
  | some failure => simp [code?, Step.complete?, hf]
  | none =>
    simp only [code?, Step.complete?, hf, Option.bind_some]
    split <;> simp_all [PlacedLine.stated?]

theorem code?_ofLines {texts texts' : List Text}
    (h : Aligned (fun t => (SourceLine.read t).statement?) texts texts') (number number' : Int) :
    (ofLines symbols counter number texts).code? =
      (ofLines symbols counter number' texts').code? := by
  -- Skipped lines move the line number alone, so the numbers of the two programs drift apart.
  induction h generalizing symbols counter number number' with
  | nil => rfl
  | skipLeft ha h ih => rw [code?_ofLines_skip ha, ih]
  | skipRight hb h ih => rw [code?_ofLines_skip hb, ← ih]
  | both ha hb h ih =>
    have hstep := @complete?_step symbols counter _ _ (ha.trans hb.symm) number number'
    rw [code?_ofLines_cons ha, code?_ofLines_cons hb, hstep]
    congr 1
    funext r
    rw [ih (number + 1) (number' + 1)]

end Layout

namespace Emission

def code? (e : Emission) : Option (List PlacedStatement) :=
  match e.failure? with
  | some _ => none
  | none => some (e.lines.filterMap PlacedLine.stated?)

variable {symbols : SymbolTable} {op op' : Text}

theorem isData_congr (h : Text.upper op = Text.upper op') : isData op = isData op' := by
  rw [isData, isData, h]

theorem read?_congr (h : Text.upper op = Text.upper op') :
    Mnemonic.read? op = Mnemonic.read? op' := by
  rw [Mnemonic.read?, Mnemonic.read?, h]

theorem toOption_operandValues (h : Text.upper op = Text.upper op') (number number' : Int)
    (operands : List Text) :
    (operandValues symbols number op operands).toOption =
      (operandValues symbols number' op' operands).toOption := by
  have hresolve (token : Text) :=
    symbols.toOption_resolve token (some number) (some number')
  unfold operandValues
  rw [toOption_bind, toOption_bind, read?_congr h, toOption_mapM_congr hresolve]
  refine congrArg (Option.bind _) (funext fun values => ?_)
  -- Only the index operations check the number of their operands, and only the error names a line.
  split
  · split
    · split <;> rfl
    · rfl
  · rfl

theorem toOption_encodeValues (h : Text.upper op = Text.upper op') (values : List Int) :
    (encodeValues op values).toOption = (encodeValues op' values).toOption := by
  refine Option.ext fun w => ?_
  rw [toOption_eq_some, toOption_eq_some, encodeValues, encodeValues, encodeWith_eq_ok_iff,
    encodeWith_eq_ok_iff, read?_congr h]

theorem toOption_value (h : Text.upper op = Text.upper op') (number number' : Int)
    (operands : List Text) :
    (value symbols number op operands).toOption =
      (value symbols number' op' operands).toOption := by
  unfold value
  rw [isData_congr h, read?_congr h]
  split
  · split
    · exact symbols.toOption_resolve _ _ _
    · rfl
  · split
    · rfl
    · simp only [toOption_bind, toOption_mapError, toOption_operandValues h number number',
        toOption_encodeValues h]

theorem code?_ofLines_skip {p : PlacedLine} (h : p.stated? = none) (number : Int)
    (placed : List PlacedLine) :
    (ofLines symbols number (p :: placed)).code? = (ofLines symbols (number + 1) placed).code? := by
  rw [ofLines, p.op?_of_stated? h]
  simp [code?, consRow, h]

def emittedWord? (symbols : SymbolTable) (number : Int) (op : Text) (p : PlacedLine) :
    Option (Option Word) :=
  match p.place with
  | .at _ =>
    (value symbols number op p.line.operands).toOption.map fun v => some (BitVec.ofInt 16 v)
  | _ => some p.word?

theorem code?_ofLines_cons {p : PlacedLine} {s : PlacedStatement}
    (hop : p.line.op? = some op) (h : p.stated? = some s) (number : Int)
    (placed : List PlacedLine) :
    (ofLines symbols number (p :: placed)).code? =
      (emittedWord? symbols number op p).bind fun word? =>
        (ofLines symbols (number + 1) placed).code?.map ({ s with word? } :: ·) := by
  obtain ⟨statement, hstatement, rfl⟩ := Option.map_eq_some_iff.1 h
  rw [ofLines, hop]
  cases hplace : p.place with
  | «at» address =>
    cases hv : value symbols number op p.line.operands with
    | error failure => simp [emittedWord?, hplace, hv, code?, toOption_error]
    | ok v =>
      simp only [emittedWord?, hplace, hv, code?, consWord, Except.toOption, Option.map_some,
        Option.bind_some]
      split <;> simp [PlacedLine.stated?, hstatement]
  | nowhere =>
    simp only [emittedWord?, hplace, code?, consRow, Option.bind_some]
    split <;> simp [PlacedLine.stated?, hstatement, hplace]
  | directive =>
    simp only [emittedWord?, hplace, code?, consRow, Option.bind_some]
    split <;> simp [PlacedLine.stated?, hstatement, hplace]

/-- Lines with the same statements fail in emission together or are left with the same words. -/
theorem code?_ofLines {placed placed' : List PlacedLine}
    (h : Aligned PlacedLine.stated? placed placed') (number number' : Int) :
    (ofLines symbols number placed).code? = (ofLines symbols number' placed').code? := by
  induction h generalizing number number' with
  | nil => rfl
  | skipLeft ha h ih => rw [code?_ofLines_skip ha, ih]
  | skipRight hb h ih => rw [code?_ofLines_skip hb, ← ih]
  | both ha hb h ih =>
    obtain ⟨hplace, hword, hoperands, op, op', hop, hop', hname⟩ :=
      PlacedLine.exists_of_stated? ha hb
    rw [code?_ofLines_cons hop ha, code?_ofLines_cons hop' hb, ih (number + 1) (number' + 1),
      emittedWord?, emittedWord?, hplace, hword, hoperands, toOption_value hname number number']

end Emission

namespace PlacedLine

variable {p p' : PlacedLine} {s : PlacedStatement}

theorem record?_congr (h : p.stated? = some s) (h' : p'.stated? = some s) :
    p.record? = p'.record? := by
  obtain ⟨hplace, hword, -⟩ := exists_of_stated? h h'
  rw [record?, record?, hplace, hword]

theorem instructionAddress?_congr (h : p.stated? = some s) (h' : p'.stated? = some s) :
    p.instructionAddress? = p'.instructionAddress? := by
  obtain ⟨hplace, -, -, op, op', hop, hop', hname⟩ := exists_of_stated? h h'
  rw [instructionAddress?, instructionAddress?, hplace, hop, hop']
  cases p'.place with
  | «at» address => simp only [Emission.isData_congr hname]
  | nowhere => rfl
  | directive => rfl

theorem instructionAddress?_of_stated? (h : p.stated? = none) : p.instructionAddress? = none := by
  rw [instructionAddress?, op?_of_stated? h]
  split <;> trivial

end PlacedLine

theorem Settled.record?_of_stated? {symbols : SymbolTable} {p : PlacedLine}
    (h : Settled symbols p) (hp : p.stated? = none) : p.record? = none := by
  have hnone := PlacedLine.op?_of_stated? hp
  cases h with
  | silent hop => rfl
  | directive hop hloc => rfl
  | word hop hloc haddress hvalue =>
    rw [hop] at hnone
    cases hnone

/-- What an assembly is used for when its listing is left aside. -/
structure Assembly.Code where
  records : LoadImage
  load : Text
  symbols : SymbolTable
  startAddress? : Option Int

namespace Assembly

variable {text text' : Text} {a a' : Assembly}

def code (a : Assembly) : Code := ⟨a.records, a.load, a.symbols, a.startAddress?⟩

/-- The start address can be told from the records and the addresses of the instructions. -/
theorem startAddress?_congr (hrecords : a.records = a'.records)
    (haddresses : a.lines.filterMap PlacedLine.instructionAddress? =
      a'.lines.filterMap PlacedLine.instructionAddress?) : a.startAddress? = a'.startAddress? := by
  rw [startAddress?, startAddress?, firstAddress?, firstAddress?, hrecords,
    ← List.head?_filterMap, ← List.head?_filterMap, haddresses]

theorem code_eq_of_stated? (h : ofText text = .ok a) (h' : ofText text' = .ok a')
    (hsymbols : a.symbols = a'.symbols)
    (hlines : a.lines.filterMap PlacedLine.stated? = a'.lines.filterMap PlacedLine.stated?) :
    a.code = a'.code := by
  have haligned := aligned_of_filterMap_eq hlines
  have hrecords : a.records = a'.records :=
    haligned.filterMap_eq (fun p hp => (settled_of_mem h hp).record?_of_stated?)
      (fun p hp => (settled_of_mem h' hp).record?_of_stated?)
      fun p p' s => PlacedLine.record?_congr
  have haddresses : a.lines.filterMap PlacedLine.instructionAddress? =
      a'.lines.filterMap PlacedLine.instructionAddress? :=
    haligned.filterMap_eq (fun p _ => PlacedLine.instructionAddress?_of_stated?)
      (fun p _ => PlacedLine.instructionAddress?_of_stated?)
      fun p p' s => PlacedLine.instructionAddress?_congr
  have hload : a.load = a'.load := by rw [load_eq h, load_eq h', hrecords]
  rw [code, code, hrecords, hload, hsymbols, startAddress?_congr hrecords haddresses]

theorem toOption_ofText (text : Text) :
    (ofText text).toOption.map (fun a => (a.symbols, a.lines.filterMap PlacedLine.stated?)) =
      (Layout.ofText text).code?.bind fun r =>
        (Emission.ofLayout (Layout.ofText text)).code?.map (r.1, ·) := by
  rw [ofText]
  cases hl : (Layout.ofText text).failure? with
  | some failure => simp [Layout.code?, hl, toOption_error]
  | none =>
    cases he : (Emission.ofLayout (Layout.ofText text)).failure? with
    | some failure => simp [Layout.code?, hl, Emission.code?, he, toOption_error]
    | none => simp [Layout.code?, hl, Emission.code?, he, Except.toOption]

theorem toOption_ofText_congr (h : statements text = statements text') :
    (ofText text).toOption.map (fun a => (a.symbols, a.lines.filterMap PlacedLine.stated?)) =
      (ofText text').toOption.map fun a => (a.symbols, a.lines.filterMap PlacedLine.stated?) := by
  have hlayout : (Layout.ofText text).code? = (Layout.ofText text').code? :=
    Layout.code?_ofLines (aligned_of_filterMap_eq h) 1 1
  rw [toOption_ofText, toOption_ofText, ← hlayout]
  cases hcode : (Layout.ofText text).code? with
  | none => rfl
  | some r =>
    have hemission : (Emission.ofLayout (Layout.ofText text)).code? =
        (Emission.ofLayout (Layout.ofText text')).code? := by
      obtain ⟨hsymbols, hlines⟩ := Layout.eq_of_code? hcode
      obtain ⟨hsymbols', hlines'⟩ := Layout.eq_of_code? (hlayout.symm.trans hcode)
      rw [Emission.ofLayout, Emission.ofLayout, hsymbols, hsymbols']
      exact Emission.code?_ofLines (aligned_of_filterMap_eq (hlines.trans hlines'.symm)) 1 1
    rw [hemission]

/-- Programs with the same statements fail together or have the same code. -/
theorem code_eq_of_statements_eq (h : statements text = statements text') :
    (∃ a a', ofText text = .ok a ∧ ofText text' = .ok a' ∧ a.code = a'.code) ∨
      ∃ f f', ofText text = .error f ∧ ofText text' = .error f' := by
  have hcode := toOption_ofText_congr h
  cases ha : ofText text with
  | error f =>
    cases ha' : ofText text' with
    | error f' => exact .inr ⟨f, f', rfl, rfl⟩
    | ok a' => simp [ha, ha', Except.toOption] at hcode
  | ok a =>
    cases ha' : ofText text' with
    | error f' => simp [ha, ha', Except.toOption] at hcode
    | ok a' =>
      rw [ha, ha'] at hcode
      obtain ⟨hsymbols, hlines⟩ := Prod.mk.inj (Option.some.inj hcode)
      exact .inl ⟨a, a', rfl, rfl, code_eq_of_stated? ha ha' hsymbols hlines⟩

/-- A program with comments, spaces, a blank line and a label of no statement. -/
def looseProgram : Text := "; load\n ldr 1, 0 ,Sum ; it\n\nEnd:\nSum:  data 10\n".toList

def tightProgram : Text := "LDR 1,0,Sum\nSum: DATA 10".toList

theorem looseProgram_code :
    ∃ a a', ofText looseProgram = .ok a ∧ ofText tightProgram = .ok a' ∧ a.code = a'.code ∧
      a.records = [⟨0, 0o002401⟩, ⟨1, 10⟩] := by
  have hloose : ofText looseProgram = .ok _ := rfl
  have hsame : statements looseProgram = statements tightProgram := by decide
  obtain ⟨a, a', ha, ha', hcode⟩ | ⟨f, -, hf, -⟩ := code_eq_of_statements_eq hsame
  · refine ⟨a, a', ha, ha', hcode, ?_⟩
    obtain rfl := Except.ok.inj (hloose.symm.trans ha)
    rfl
  · rw [hloose] at hf
    cases hf

end Assembly
end WordMachine
