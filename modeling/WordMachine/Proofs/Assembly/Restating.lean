import WordMachine.Proofs.Assembly.Values
import WordMachine.Proofs.Instruction.Disassembly
import WordMachine.Proofs.SourceLine.Writing

namespace WordMachine

open Emission

namespace SourceLine

/-- What `write` puts after the label of a line without a comment. -/
def plainCode (op : Text) (operands : List Text) : Text :=
  op ++ if operands.isEmpty then [] else ' ' :: Text.join [','] operands

def labelled (label? : Option Text) (code : Text) : Text :=
  match label? with
  | some label => label ++ ':' :: ' ' :: code
  | none => code

def plain (label? : Option Text) (op : Text) (operands : List Text) : SourceLine where
  text := labelled label? (plainCode op operands)
  label? := label?
  op? := some op
  operands := operands
  comment? := none

theorem write_plain (label? : Option Text) (op : Text) (operands : List Text) :
    (plain label? op operands).write op = labelled label? (plainCode op operands) ∧
      (plain label? op operands).codeText op = labelled label? (plainCode op operands) := by
  cases label? <;> simp [plain, write, codeText, labelled, plainCode]

theorem read_plain {label? : Option Text} {op : Text} {operands : List Text}
    (h : (plain label? op operands).Readable op) :
    read (labelled label? (plainCode op operands)) = plain label? op operands := by
  have hread := read_write rfl h
  rw [(write_plain label? op operands).1] at hread
  rw [hread]
  simp only [canonical, plain, keptComment?, Option.filter_none]
  exact congrArg (SourceLine.mk · label? (some op) operands none) (write_plain label? op operands).1

end SourceLine

namespace Numeral

theorem singleSpaced_decimal (v : Int) : Text.SingleSpaced (decimal v) := by
  apply Text.singleSpaced_of_forall
  · cases v with
    | ofNat n => exact decimal_natCast n ▸ Nat.toDigits_ne_nil
    | negSucc n =>
      rw [decimal_negSucc]
      exact List.cons_ne_nil _ _
  · intro c hc
    rcases isDigit_of_mem_decimal hc with rfl | hdigit
    · decide
    · exact isBlank_eq_false_of_isDecimalDigit (isDecimalDigit_of_isDigit hdigit)

theorem not_mem_decimal {c : Char} (h : c ≠ '-' ∧ c.isDigit = false) (v : Int) : c ∉ decimal v := by
  intro hc
  rcases isDigit_of_mem_decimal hc with rfl | hdigit
  · exact h.1 rfl
  · rw [h.2] at hdigit
    cases hdigit

end Numeral

namespace SymbolTable

variable {symbols : SymbolTable} {line? : Option Int}

theorem resolve_decimal {v : Int} (h : Numeral.isWritable v = true) :
    symbols.resolve (Numeral.decimal v) line? = .ok v := by
  rw [resolve, if_pos (Numeral.isDecimalLiteral_decimal v), Numeral.readInteger_decimal h]

theorem mapM_resolve_decimals {ns : List Nat} (h : ∀ n ∈ ns, n < 10000) :
    (ns.map fun n : Nat => Numeral.decimal n).mapM (symbols.resolve · line?) =
      .ok (ns.map fun n : Nat => (n : Int)) := by
  induction ns with
  | nil => rfl
  | cons n ns ih =>
    obtain ⟨hn, hns⟩ := List.forall_mem_cons.1 h
    have hwritable : Numeral.isWritable (n : Int) = true :=
      Numeral.isWritable_of_natAbs_lt (by omega)
    rw [List.map_cons, List.mapM_cons, resolve_decimal hwritable, ih hns]
    rfl

end SymbolTable

/-- The names of the operations are told apart from directives, data words and labels. -/
theorem Mnemonic.name_toList (m : Mnemonic) :
    isData m.name.toList = false ∧ Layout.isLoc m.name.toList = false ∧
      SourceLine.IsCodeWord m.name.toList ∧ m.name.toList.getLast? ≠ some ':' := by
  have hdata : isData m.name.toList = false := by cases m <;> decide
  have hloc : Layout.isLoc m.name.toList = false := by cases m <;> decide
  have hne : m.name.toList ≠ [] := by cases m <;> decide
  have hall : m.name.toList.all (fun c => !Text.isBlank c && c != ';') = true := by
    cases m <;> decide
  have hcolon : m.name.toList.getLast? ≠ some ':' := by cases m <;> decide
  exact ⟨hdata, hloc, SourceLine.isCodeWord_of_all hne hall, hcolon⟩

namespace Emission

variable {symbols : SymbolTable} {number : Int} {f : Fields} {m : Mnemonic}

theorem operandValues_shownOperands :
    operandValues symbols number m.name.toList (Fields.shownOperands m f) =
      .ok ((if m.targetsIndex then [0] else []) ++ (f.shown m).map fun n : Nat => (n : Int)) := by
  have hvalues := @SymbolTable.mapM_resolve_decimals symbols (some number) (f.shown m)
    fun n hn => Nat.lt_of_le_of_lt (Fields.shown_le hn) (by decide)
  refine bind_eq_ok.2 ⟨_, hvalues, ?_⟩
  rw [m.read?_name]
  simp only
  by_cases hindex : m.targetsIndex = true
  · have hlength : ((f.shown m).map fun n : Nat => (n : Int)).length = 2 ∨
        ((f.shown m).map fun n : Nat => (n : Int)).length = 3 := by
      rw [List.length_map]
      exact Fields.length_shown_of_targetsIndex hindex
    rw [if_pos hindex, if_pos hindex, if_pos hlength]
    rfl
  · rw [if_neg hindex, if_neg hindex]
    rfl

/-- The operands that a disassembled instruction shows have its word as their value. -/
theorem value_shownOperands (hf : f.AssembledAs m) (hm : m ≠ .hlt) :
    value symbols number m.name.toList (Fields.shownOperands m f) = .ok (f.word.toNat : Int) := by
  have hhlt : Mnemonic.read? m.name.toList ≠ some .hlt := by
    rw [m.read?_name]
    exact fun h => hm (Option.some.inj h)
  unfold value
  rw [m.name_toList.1, if_neg Bool.false_ne_true, if_neg hhlt]
  have hword : (encodeValues m.name.toList _).mapError Failure.ofCause = .ok f.word :=
    mapError_eq_ok.2 hf.encodeValues_shown
  exact bind_eq_ok.2 ⟨_, operandValues_shownOperands, bind_eq_ok.2 ⟨f.word, hword, rfl⟩⟩

theorem value_halt : value symbols number Mnemonic.hlt.name.toList [] = .ok 0 := rfl

theorem value_data (w : Word) :
    value symbols number "Data".toList [Numeral.decimal (w.toNat : Int)] = .ok (w.toNat : Int) := by
  have hsize : (w.toNat : Int).natAbs < Nat.pow 10 5 := Nat.lt_trans w.isLt (by decide)
  exact SymbolTable.resolve_decimal (Numeral.isWritable_of_lt hsize (by decide))

end Emission

/-- What is put down for a word: data in decimal, and an instruction as it is disassembled. -/
def wordText (op : Text) (w : Word) : Text :=
  if isData op then "Data ".toList ++ Numeral.decimal (w.toNat : Int) else disassemble w.toNat

/-- An operation and operands in decimal that have a word as their value. -/
structure Restates (w : Word) (op name : Text) (operands : List Text) : Prop where
  data : isData name = isData op
  loc : Layout.isLoc name = false
  word : SourceLine.IsCodeWord name
  colon : name.getLast? ≠ some ':'
  decimals : ∀ token ∈ operands, ∃ v, token = Numeral.decimal v
  valued : ∀ symbols number, value symbols number name operands = .ok (w.toNat : Int)

theorem Restates.readable {w : Word} {op name : Text} {operands : List Text}
    (h : Restates w op name operands) {label? : Option Text}
    (hlabel : ∀ label ∈ label?, SourceLine.IsCodeWord (label ++ [':'])) :
    (SourceLine.plain label? name operands).Readable name where
  colon _ := h.colon
  label := hlabel
  operation := h.word
  singleSpaced token htoken := by
    obtain ⟨v, rfl⟩ := h.decimals token htoken
    exact Numeral.singleSpaced_decimal v
  separators token htoken := by
    obtain ⟨v, rfl⟩ := h.decimals token htoken
    exact ⟨Numeral.not_mem_decimal (by decide) v, Numeral.not_mem_decimal (by decide) v⟩
  comment := nofun

theorem exists_restates {symbols : SymbolTable} {number v : Int} {op : Text} {operands : List Text}
    (h : value symbols number op operands = .ok v) :
    ∃ name shown, wordText op (BitVec.ofInt 16 v) = SourceLine.plainCode name shown ∧
      Restates (BitVec.ofInt 16 v) op name shown := by
  by_cases hdata : isData op = true
  · refine ⟨"Data".toList, [Numeral.decimal ((BitVec.ofInt 16 v).toNat : Int)], ?_, ?_⟩
    · rw [wordText, if_pos hdata, SourceLine.plainCode, Text.join_singleton]
      rfl
    · exact {
        data := hdata.symm
        loc := by decide
        word := SourceLine.isCodeWord_of_all (by decide) (by decide)
        colon := by decide
        decimals := by simp
        valued := fun symbols number => value_data _ }
  · obtain ⟨m, f, -, hf, rfl, -⟩ := value_eq_ok (by simpa using hdata) h
    have hword : BitVec.ofInt 16 (f.word.toNat : Int) = f.word := by simp
    rw [hword, wordText, if_neg hdata]
    obtain ⟨hname, hloc, hcode, hcolon⟩ := m.name_toList
    -- The operands of a halt are not read, so nothing is shown after its name.
    by_cases hm : m = .hlt
    · subst hm
      rw [hf.halt rfl]
      refine ⟨Mnemonic.hlt.name.toList, [], Fields.disassemble_halt, ?_⟩
      exact ⟨hname.trans (by simpa using hdata), hloc, hcode, hcolon, nofun,
        fun symbols number => value_halt⟩
    · refine ⟨m.name.toList, Fields.shownOperands m f, ?_, ?_⟩
      · have hne : (Fields.shownOperands m f).isEmpty = false := by
          rw [Fields.shownOperands, Fields.shown]
          cases m.targetsIndex <;> rfl
        rw [Fields.disassemble_instruction hf.opcode hm, SourceLine.plainCode, hne]
        rfl
      · refine ⟨hname.trans (by simpa using hdata), hloc, hcode, hcolon, fun token htoken => ?_,
          fun symbols number => value_shownOperands hf hm⟩
        obtain ⟨n, -, rfl⟩ := List.mem_map.1 htoken
        exact ⟨n, rfl⟩

end WordMachine
