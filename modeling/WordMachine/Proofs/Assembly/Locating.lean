import WordMachine.Proofs.Assembly.Determined
import WordMachine.Proofs.Instruction.Encoding

namespace WordMachine

open Numeral

/-- The numerals among the operands of a line are not too long to be read. -/
def SourceLine.HasShortNumerals (line : SourceLine) : Prop :=
  ∀ token ∈ line.operands, isDecimalLiteral token = true → token.countP isDecimalDigit ≤ maxDigits

def HasShortNumerals (text : Text) : Prop :=
  ∀ t ∈ Text.lines text, (SourceLine.read t).HasShortNumerals

namespace SymbolTable

variable {s s' : SymbolTable} {token : Text} {line? : Option Int}

def IsWritable (s : SymbolTable) : Prop := ∀ l v, s.get? l = some v → isWritable v = true

theorem isWritable_empty : IsWritable empty := nofun

theorem IsWritable.define (hs : s.IsWritable) {label : Text} {address : Int}
    (haddress : isWritable address = true) (h : s.define label address = .ok s') :
    s'.IsWritable := by
  intro l v hl
  rw [get?_define h] at hl
  split at hl
  · cases hl
    exact haddress
  · exact hs l v hl

theorem IsWritable.resolve (hs : s.IsWritable) {v : Int} (h : s.resolve token line? = .ok v) :
    isWritable v = true := by
  have hdenotes := denotes_of_resolve h
  unfold Denotes at hdenotes
  split at hdenotes
  · exact isWritable_of_readInteger hdenotes
  · exact hs token v hdenotes

theorem resolve_eq_error {f : Failure}
    (hshort : isDecimalLiteral token = true → token.countP isDecimalDigit ≤ maxDigits)
    (h : s.resolve token line? = .error f) : f = .reported (.unknownLabel token) line? := by
  unfold SymbolTable.resolve at h
  by_cases hliteral : isDecimalLiteral token = true
  · obtain ⟨v, hv⟩ := exists_readInteger_of_isDecimalLiteral hliteral (hshort hliteral)
    simp [hliteral, hv] at h
  · rw [if_neg hliteral] at h
    obtain ⟨cause, hcause, rfl⟩ := mapError_eq_error.1 h
    unfold find at hcause
    split at hcause
    · cases hcause
    · cases hcause
      exact Failure.report_of_numbers_eq_nil rfl line?

end SymbolTable

namespace Layout

variable {symbols : SymbolTable} {counter : Nat} {number : Int}

theorem isWritable_locTarget (hs : symbols.IsWritable) {operands : List Text} {target : Nat}
    (h : locTarget symbols number operands = .ok target) : isWritable (target : Int) = true := by
  unfold locTarget at h
  split at h
  · obtain ⟨v, hv, h⟩ := bind_eq_ok.1 h
    split at h
    · cases h
    · cases h
      exact isWritable_of_natAbs_le (hs.resolve hv) (by omega)
  · cases h

theorem isWritable_defineLabel (hs : symbols.IsWritable) (hcounter : isWritable counter = true)
    {label? : Option Text} {symbols' : SymbolTable}
    (h : defineLabel symbols counter label? = .ok symbols') : symbols'.IsWritable := by
  cases label? with
  | none =>
    cases h
    exact hs
  | some label => exact hs.define hcounter h

theorem isWritable_counter_placeOperation (hs : symbols.IsWritable)
    (hcounter : isWritable counter = true) (op : Text) (operands : List Text) :
    isWritable (placeOperation symbols counter number op operands).counter = true := by
  unfold placeOperation
  split
  · split
    · next target htarget => exact isWritable_locTarget hs htarget
    · exact hcounter
  · split
    · exact hcounter
    · next hlt =>
      have hsize : memorySize = 2048 := rfl
      apply isWritable_of_natAbs_lt
      simp only
      omega

theorem isWritable_step (hs : symbols.IsWritable) (hcounter : isWritable counter = true)
    (line : SourceLine) :
    (step symbols counter number line).symbols.IsWritable ∧
      isWritable (step symbols counter number line).counter = true := by
  unfold step
  split
  · exact ⟨hs, hcounter⟩
  · split
    · exact ⟨hs, hcounter⟩
    · next symbols' hdefine =>
      have hs' := isWritable_defineLabel hs hcounter hdefine
      rw [placeOperation_symbols]
      exact ⟨hs', isWritable_counter_placeOperation hs' hcounter _ _⟩

theorem locTarget_eq_error (hs : symbols.IsWritable) {operands : List Text} {f : Failure}
    (hshort : ∀ token ∈ operands, isDecimalLiteral token = true →
      token.countP isDecimalDigit ≤ maxDigits)
    (h : locTarget symbols number operands = .error f) :
    ∃ cause, f = .reported cause (some number) ∧ cause.kind = .lexical := by
  unfold locTarget at h
  split at h
  · next token =>
    obtain htoken | ⟨v, hv, h⟩ := bind_eq_error.1 h
    · have hf := SymbolTable.resolve_eq_error (hshort token List.mem_cons_self) htoken
      exact ⟨.unknownLabel token, hf, rfl⟩
    · split at h
      · rw [← Except.error.inj h]
        refine ⟨.negativeLoc v, Failure.report_of_forall ?_, rfl⟩
        simpa [Cause.numbers] using hs.resolve hv
      · cases h
  · cases h
    exact ⟨.locOperands operands.length, Failure.report_of_numbers_eq_nil rfl _, rfl⟩

/-- A line that layout refuses is named in the report. -/
theorem exists_cause_of_step {line : SourceLine} {f : Failure} (hs : symbols.IsWritable)
    (hcounter : isWritable counter = true) (hshort : line.HasShortNumerals)
    (h : (step symbols counter number line).failure? = some f) :
    ∃ cause, f = .reported cause (some number) ∧ cause.kind = .lexical := by
  unfold step at h
  split at h
  · cases h
  · split at h
    · next cause hdefine =>
      cases h
      -- The label is defined already.
      cases hlabel : line.label? with
      | none =>
        rw [hlabel] at hdefine
        cases hdefine
      | some label =>
        simp only [hlabel, defineLabel, SymbolTable.define] at hdefine
        split at hdefine
        · cases hdefine
          exact ⟨.duplicateLabel label, Failure.report_of_numbers_eq_nil rfl _, rfl⟩
        · cases hdefine
    · next symbols' hdefine =>
      -- The operation finds no place.
      have hs' := isWritable_defineLabel hs hcounter hdefine
      unfold placeOperation at h
      split at h
      · split at h
        · cases h
        · next g hg =>
          cases h
          exact locTarget_eq_error hs' hshort hg
      · split at h
        · cases h
          exact ⟨.beyondMemory counter, Failure.report_of_numbers_eq_nil rfl _, rfl⟩
        · cases h

/-- Layout fails on the line that makes it fail, whatever follows, and not on the lines before. -/
theorem exists_of_failure? {texts : List Text} {f : Failure} (hs : symbols.IsWritable)
    (hcounter : isWritable counter = true)
    (hshort : ∀ t ∈ texts, (SourceLine.read t).HasShortNumerals)
    (h : (ofLines symbols counter number texts).failure? = some f) :
    ∃ i < texts.length, (∃ cause, f = .reported cause (some (number + i)) ∧ cause.kind = .lexical) ∧
      ∀ k, (ofLines symbols counter number (texts.take k)).failure? =
        if k ≤ i then none else some f := by
  induction texts generalizing symbols counter number with
  | nil => cases h
  | cons t texts ih =>
    rw [ofLines] at h
    simp only at h
    obtain ⟨ht, hshort⟩ := List.forall_mem_cons.1 hshort
    cases hstep : (step symbols counter number (SourceLine.read t)).failure? with
    | some g =>
      rw [hstep] at h
      cases h
      refine ⟨0, by simp, by simpa using exists_cause_of_step hs hcounter ht hstep, fun k => ?_⟩
      cases k with
      | zero => rfl
      | succ k => simp [ofLines, hstep]
    | none =>
      rw [hstep] at h
      obtain ⟨hs', hcounter'⟩ := @isWritable_step symbols counter number hs hcounter (SourceLine.read t)
      obtain ⟨i, hi, ⟨cause, hcause, hkind⟩, hk⟩ := ih hs' hcounter' hshort h
      have hnumber : number + 1 + (i : Int) = number + (i + 1 : Nat) := by omega
      rw [hnumber] at hcause
      refine ⟨i + 1, by simpa using hi, ⟨cause, hcause, hkind⟩, fun k => ?_⟩
      cases k with
      | zero => rfl
      | succ k => simp [ofLines, hstep, hk k]

end Layout

/-- A line that has a word, if it stands for one at all: its value can be computed. -/
def PlacedLine.HasWord (symbols : SymbolTable) (p : PlacedLine) : Prop :=
  ∀ op address, p.line.op? = some op → p.place = .at address →
    ∃ v, ∀ number, Emission.value symbols number op p.line.operands = .ok v

namespace Emission

variable {symbols : SymbolTable} {number : Int} {op : Text} {operands : List Text}

theorem exists_of_failure? {placed : List PlacedLine} {f : Failure}
    (h : (ofLines symbols number placed).failure? = some f) :
    ∃ i p op address g, placed[i]? = some p ∧ p.line.op? = some op ∧ p.place = .at address ∧
      value symbols (number + (i : Nat)) op p.line.operands = .error g ∧
      f = g.atLine (number + (i : Nat)) ∧
      ∀ k < i, ∀ q, placed[k]? = some q → q.HasWord symbols := by
  induction placed generalizing number with
  | nil => cases h
  | cons p placed ih =>
    -- A line that does not fail has a word, and the failure is further down.
    have hlater (hp : p.HasWord symbols) (h : (ofLines symbols (number + 1) placed).failure? = some f) :
        ∃ i q op address g, (p :: placed)[i]? = some q ∧ q.line.op? = some op ∧
          q.place = .at address ∧ value symbols (number + (i : Nat)) op q.line.operands = .error g ∧
          f = g.atLine (number + (i : Nat)) ∧
          ∀ k < i, ∀ q, (p :: placed)[k]? = some q → q.HasWord symbols := by
      obtain ⟨i, q, op, address, g, hq, hop, hplace, hvalue, hf, hbefore⟩ := ih h
      have hnumber : number + 1 + (i : Int) = number + (i + 1 : Nat) := by omega
      rw [hnumber] at hvalue hf
      refine ⟨i + 1, q, op, address, g, hq, hop, hplace, hvalue, hf, fun k hk r hr => ?_⟩
      cases k with
      | zero =>
        cases hr
        exact hp
      | succ k => exact hbefore k (by omega) r hr
    rw [ofLines] at h
    cases hop : p.line.op? with
    | none =>
      simp only [hop] at h
      exact hlater (fun op address hop' => by simp [hop] at hop') h
    | some op =>
      simp only [hop] at h
      cases hplace : p.place with
      | «at» address =>
        simp only [hplace] at h
        cases hv : value symbols number op p.line.operands with
        | error g =>
          simp only [hv, Option.some.injEq] at h
          refine ⟨0, p, op, address, g, rfl, hop, hplace, ?_, ?_, fun k hk => by omega⟩
          · simpa using hv
          · simpa using h.symm
        | ok v =>
          simp only [hv] at h
          refine hlater (fun op' address' hop' _ => ⟨v, fun number' => ?_⟩) h
          obtain rfl : op = op' := Option.some.inj (hop.symm.trans hop')
          exact value_of_number hv number'
      | nowhere =>
        simp only [hplace] at h
        exact hlater (fun op address _ hplace' => by simp [hplace] at hplace') h
      | directive =>
        simp only [hplace] at h
        exact hlater (fun op address _ hplace' => by simp [hplace] at hplace') h

theorem isWritable_operandValues (hs : symbols.IsWritable) {values : List Int}
    (h : operandValues symbols number op operands = .ok values) :
    ∀ v ∈ values, isWritable v = true := by
  obtain ⟨vs, hvs, h⟩ := bind_eq_ok.1 h
  have hall : ∀ v ∈ vs, isWritable v = true := by
    intro v hv
    obtain ⟨token, -, htoken⟩ := exists_of_mem_mapM hvs hv
    exact hs.resolve htoken
  split at h
  · split at h
    · split at h
      · cases h
        exact List.forall_mem_cons.2 ⟨isWritable_of_natAbs_lt (by decide), hall⟩
      · cases h
    · cases h
      exact hall
  · cases h
    exact hall

theorem operandValues_eq_error {f : Failure}
    (hshort : ∀ token ∈ operands, isDecimalLiteral token = true →
      token.countP isDecimalDigit ≤ maxDigits)
    (h : operandValues symbols number op operands = .error f) :
    ∃ cause, f = .reported cause (some number) ∧ cause.kind = .lexical := by
  obtain hvalues | ⟨vs, -, h⟩ := bind_eq_error.1 h
  · obtain ⟨token, htoken, hf⟩ := mapM_eq_error hvalues
    exact ⟨.unknownLabel token, SymbolTable.resolve_eq_error (hshort token htoken) hf, rfl⟩
  · split at h
    · next m _ =>
      split at h
      · split at h
        · cases h
        · cases h
          exact ⟨.indexOperands m, Failure.report_of_numbers_eq_nil rfl _, rfl⟩
      · cases h
    · cases h

/-- A cause that stops an assembly: the encoder never meets an operand that is no number. -/
def StopsAssembly (cause : Cause) : Prop :=
  (cause.kind = .lexical ∨ cause.kind = .encoding) ∧ ∀ o m token, cause ≠ .badOperand o m token

theorem stopsAssembly_of_lexical {cause : Cause} (h : cause.kind = .lexical) :
    StopsAssembly cause := by
  refine ⟨.inl h, ?_⟩
  rintro o m token rfl
  cases h

theorem stopsAssembly_of_encodeValues {values : List Int} {cause : Cause}
    (h : encodeValues op values = .error cause) : StopsAssembly cause := by
  rcases encodeValues_eq_error h with rfl | rfl | ⟨o, v, -, rfl⟩
  · exact ⟨.inr rfl, nofun⟩
  · exact ⟨.inr rfl, nofun⟩
  · exact ⟨.inr rfl, nofun⟩

/-- A line whose word cannot be computed is named in the report. -/
theorem exists_cause_of_value {g : Failure} (hs : symbols.IsWritable)
    (hshort : ∀ token ∈ operands, isDecimalLiteral token = true →
      token.countP isDecimalDigit ≤ maxDigits)
    (h : value symbols number op operands = .error g) :
    ∃ cause, g.atLine number = .reported cause (some number) ∧ StopsAssembly cause := by
  have hlexical (hf : ∃ cause, g = .reported cause (some number) ∧ cause.kind = .lexical) :
      ∃ cause, g.atLine number = .reported cause (some number) ∧ StopsAssembly cause := by
    obtain ⟨cause, rfl, hkind⟩ := hf
    exact ⟨cause, rfl, stopsAssembly_of_lexical hkind⟩
  unfold value at h
  split at h
  · split at h
    · next token =>
      have hf := SymbolTable.resolve_eq_error (hshort token List.mem_cons_self) h
      exact hlexical ⟨.unknownLabel token, hf, rfl⟩
    · rw [← Except.error.inj h]
      exact ⟨.dataOperands operands.length, rfl, stopsAssembly_of_lexical rfl⟩
  · split at h
    · cases h
    · obtain hvalues | ⟨values, hvalues, h⟩ := bind_eq_error.1 h
      · exact hlexical (operandValues_eq_error hshort hvalues)
      · obtain hword | ⟨_, -, h⟩ := bind_eq_error.1 h
        · obtain ⟨cause, hcause, rfl⟩ := mapError_eq_error.1 hword
          refine ⟨cause, ?_, stopsAssembly_of_encodeValues hcause⟩
          -- The only numbers that the encoder shows are operands.
          have hnumbers : ∀ v ∈ cause.numbers, isWritable v = true := by
            rcases encodeValues_eq_error hcause with rfl | rfl | ⟨o, v, hv, rfl⟩
            · exact nofun
            · exact nofun
            · simpa [Cause.numbers] using isWritable_operandValues hs hvalues v hv
          rw [Failure.ofCause, Failure.report_of_forall hnumbers]
          rfl
        · cases h

end Emission

namespace Layout

theorem isWritable_ofLines {symbols : SymbolTable} {counter : Nat} {number : Int}
    (hs : symbols.IsWritable) (hcounter : isWritable counter = true) (texts : List Text) :
    (ofLines symbols counter number texts).symbols.IsWritable := by
  induction texts generalizing symbols counter number with
  | nil => exact hs
  | cons t texts ih =>
    obtain ⟨hs', hcounter'⟩ := @isWritable_step symbols counter number hs hcounter (SourceLine.read t)
    rw [ofLines]
    simp only
    split
    · exact hs'
    · exact ih hs' hcounter'

theorem isWritable_zero : isWritable ((0 : Nat) : Int) = true := isWritable_of_natAbs_lt (by decide)

theorem isWritable_ofText (text : Text) : (ofText text).symbols.IsWritable :=
  isWritable_ofLines SymbolTable.isWritable_empty isWritable_zero _

/-- Layout accepts the lines of a program before line `n`, and refuses each part of the program that
goes further, for one and the same reason. -/
def StopsAt (text : Text) (n : Nat) (f : Failure) : Prop :=
  ∀ k, (ofLines .empty 0 1 ((Text.lines text).take k)).failure? = if k < n then none else some f

end Layout

structure Emission.StopsAt (text : Text) (n : Nat) (f : Failure) : Prop where
  laidOut : (Layout.ofText text).failure? = none
  failing : ∃ t p op address g, (Text.lines text)[n - 1]? = some t ∧
    (Layout.ofText text).lines[n - 1]? = some p ∧ p.line = SourceLine.read t ∧
    p.line.op? = some op ∧ p.place = .at address ∧
    value (Layout.ofText text).symbols n op p.line.operands = .error g ∧ f = g.atLine n
  before : ∀ k < n - 1, ∀ p, (Layout.ofText text).lines[k]? = some p →
    p.HasWord (Layout.ofText text).symbols

namespace Assembly

variable {text : Text}

/-- A program is refused for a cause that names line `n`, where the first pass that fails stops. -/
structure FailsAt (text : Text) (n : Nat) (cause : Cause) : Prop where
  refused : ofText text = .error (.reported cause (some (n : Int)))
  one_le : 1 ≤ n
  le_length : n ≤ (Text.lines text).length
  stops : Emission.StopsAssembly cause
  first : Layout.StopsAt text n (.reported cause (some (n : Int))) ∨
    Emission.StopsAt text n (.reported cause (some (n : Int)))

theorem exists_of_getElem?_lines {p : PlacedLine} {i : Nat}
    (hlayout : (Layout.ofText text).failure? = none) (h : (Layout.ofText text).lines[i]? = some p) :
    ∃ t, (Text.lines text)[i]? = some t ∧ p.line = SourceLine.read t := by
  have hlines := congrArg (·[i]?) (Layout.map_line_ofLines hlayout)
  change (List.map _ (Layout.ofText text).lines)[i]? = _ at hlines
  rw [List.getElem?_map, List.getElem?_map, h, Option.map_some] at hlines
  obtain ⟨t, ht, hread⟩ := Option.map_eq_some_iff.1 hlines.symm
  exact ⟨t, ht, hread.symm⟩

theorem exists_failsAt_of_layout (h : HasShortNumerals text) {f : Failure}
    (hf : (Layout.ofText text).failure? = some f) : ∃ n cause, FailsAt text n cause := by
  obtain ⟨i, hi, ⟨cause, rfl, hkind⟩, hk⟩ :=
    Layout.exists_of_failure? SymbolTable.isWritable_empty Layout.isWritable_zero h hf
  have hnumber : (1 : Int) + (i : Int) = ((i + 1 : Nat) : Int) := by omega
  rw [hnumber] at hf hk
  refine ⟨i + 1, cause, ?_, by omega, hi, Emission.stopsAssembly_of_lexical hkind, .inl fun k => ?_⟩
  · rw [ofText]
    simp only [hf]
  · simpa only [Nat.lt_succ_iff] using hk k

theorem exists_failsAt_of_emission (h : HasShortNumerals text) {f : Failure}
    (hlayout : (Layout.ofText text).failure? = none)
    (hf : (Emission.ofLayout (Layout.ofText text)).failure? = some f) :
    ∃ n cause, FailsAt text n cause := by
  obtain ⟨i, p, op, address, g, hp, hop, hplace, hvalue, rfl, hbefore⟩ :=
    Emission.exists_of_failure? hf
  have hnumber : (1 : Int) + (i : Int) = ((i + 1 : Nat) : Int) := by omega
  rw [hnumber] at hvalue hf
  obtain ⟨t, ht, hread⟩ := exists_of_getElem?_lines hlayout hp
  have hshort : p.line.HasShortNumerals := hread ▸ h t (List.mem_of_getElem? ht)
  obtain ⟨cause, hg, hstops⟩ :=
    Emission.exists_cause_of_value (Layout.isWritable_ofText text) hshort hvalue
  have hi : i < (Text.lines text).length := (List.getElem?_eq_some_iff.1 ht).1
  refine ⟨i + 1, cause, ?_, by omega, hi, hstops, .inr ⟨hlayout, ?_, hbefore⟩⟩
  · rw [ofText]
    simp only [hlayout, hf, hg]
  · exact ⟨t, p, op, address, g, ht, hp, hread, hop, hplace, hvalue, hg.symm⟩

/-- A program whose numerals are not too long is assembled, or it is refused for a cause that names
the line where the first pass that fails stops. The encoder takes the operands of any instruction
in decimal as it takes the numbers, and never meets one that is no number. -/
theorem ofText_ok_or_failsAt (h : HasShortNumerals text) :
    ((∃ a, ofText text = .ok a) ∨ ∃ n cause, FailsAt text n cause) ∧
      ∀ number op operands values,
        Emission.operandValues (Layout.ofText text).symbols number op operands = .ok values →
        encode op (values.map decimal) = encodeValues op values ∧
          ∀ o m token, encode op (values.map decimal) ≠ .error (.badOperand o m token) := by
  constructor
  · cases hlayout : (Layout.ofText text).failure? with
    | some f => exact .inr (exists_failsAt_of_layout h hlayout)
    | none =>
      cases hemission : (Emission.ofLayout (Layout.ofText text)).failure? with
      | some f => exact .inr (exists_failsAt_of_emission h hlayout hemission)
      | none => exact .inl ⟨_, ofText_eq_ok hlayout hemission⟩
  · intro number op operands values hvalues
    have hencode := encode_decimals
      (Emission.isWritable_operandValues (Layout.isWritable_ofText text) hvalues) op
    refine ⟨hencode, fun o m token hbad => ?_⟩
    rw [hencode] at hbad
    exact (Emission.stopsAssembly_of_encodeValues hbad).2 o m token rfl

def shortLoad : Text := "Sum: Data 10
; load
 LDR 1,Sum
".toList

theorem shortLoad_failsAt :
    HasShortNumerals shortLoad ∧ FailsAt shortLoad 3 (.operandCount "LDR".toList 2) := by
  have hshort : HasShortNumerals shortLoad := by
    unfold HasShortNumerals SourceLine.HasShortNumerals
    decide
  refine ⟨hshort, ?_⟩
  have hrefused : ofText shortLoad =
    .error (.reported (.operandCount "LDR".toList 2) (some ((3 : Nat) : Int))) := rfl
  rcases (ofText_ok_or_failsAt hshort).1 with ⟨a, ha⟩ | ⟨n, cause, hfails⟩
  · rw [ha] at hrefused
    cases hrefused
  · have hsame := hfails.refused.symm.trans hrefused
    obtain ⟨rfl, hn⟩ := Failure.reported.inj (Except.error.inj hsame)
    obtain rfl : n = 3 := Int.ofNat_inj.1 (Option.some.inj hn)
    exact hfails

end Assembly
end WordMachine
