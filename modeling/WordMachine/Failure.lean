import WordMachine.Instruction.Basic
import WordMachine.Text.Utf8

namespace WordMachine

inductive Kind where
  | lexical | encoding | io | loadFile | runtime | command
deriving DecidableEq

def Kind.name : Kind → String
  | lexical => "lexical"
  | encoding => "encoding"
  | io => "io"
  | loadFile => "load-file"
  | runtime => "runtime"
  | command => "command"

inductive Cause where
  | duplicateLabel (label : Text)
  | unknownLabel (label : Text)
  | locOperands (count : Nat)
  | negativeLoc (address : Int)
  | beyondMemory (address : Nat)
  | dataOperands (count : Nat)
  | indexOperands (mnemonic : Mnemonic)
  | unknownOpcode (mnemonic : Text)
  | operandCount (mnemonic : Text) (count : Nat)
  | badOperand (operand : Operand) (mnemonic : Text) (token : Text)
  | operandRange (operand : Operand) (mnemonic : Text) (value : Int)
  | cannotRead (path : Text) (error : FileError)
  | cannotDecode (path : Text) (error : Text.Utf8.DecodeError)
  | cannotWrite (path : Text) (error : FileError)
  | missingFields (line : Text)
  | badRecord (token : Text)
  | loadRange (address : Int)
  | memoryRange (address : Int)
  | effectiveRange (address : Nat)
  | fetchRange (address : Nat)
  | unsupported (instruction : Word)
  | indexZero
  | generalIndex (r : Int)
  | indexIndex (x : Int)
  | unknownRegister (target : Text)
  | badNumber (token : Text)
  | badStepCount (token : Text)
  | emptyCommand
  | unknownCommand (word : Text)
  | argumentCount (command : String) (low high count : Nat)

namespace Cause

def kind : Cause → Kind
  | duplicateLabel _ | unknownLabel _ | locOperands _ | negativeLoc _ | beyondMemory _
  | dataOperands _ | indexOperands _ => .lexical
  | unknownOpcode _ | operandCount .. | badOperand .. | operandRange .. => .encoding
  | cannotRead .. | cannotDecode .. | cannotWrite .. => .io
  | missingFields _ | badRecord _ | loadRange _ => .loadFile
  | memoryRange _ | effectiveRange _ | fetchRange _ | unsupported _ | indexZero => .runtime
  | generalIndex _ | indexIndex _ | unknownRegister _ | badNumber _ | badStepCount _
  | emptyCommand | unknownCommand _ | argumentCount .. => .command

/-- The name of an instruction's operation, or its two-digit code if it has none. -/
def operationName (w : Word) : String :=
  match (Fields.ofWord w).mnemonic? with
  | some m => m.name
  | none => String.ofList (Numeral.octalDigits 2 (Fields.ofWord w).opcode.val)

def message : Cause → String
  | duplicateLabel l => "Duplicate label '" ++ String.ofList l ++ "'"
  | unknownLabel l => "Unknown label '" ++ String.ofList l ++ "'"
  | locOperands n => s!"LOC expects 1 operand, got {n}"
  | negativeLoc a => s!"LOC address must not be negative: {a}"
  | beyondMemory a => s!"Address {a} beyond memory ({memorySize} words)"
  | dataOperands n => s!"Data expects 1 operand, got {n}"
  | indexOperands m => m.name ++ " expects x,address[,I]"
  | unknownOpcode m => "Unknown opcode: \"" ++ String.ofList m ++ "\""
  | operandCount m n =>
    "Expected r,x,address[,I] for " ++ String.ofList m ++ s!", got {n} operand(s)"
  | badOperand o m t =>
    "Bad " ++ o.name ++ " operand for " ++ String.ofList m ++ ": \"" ++ String.ofList t ++ "\""
  | operandRange o m v =>
    o.name ++ " out of range for " ++ String.ofList m ++ s!": {v} (expected 0-{o.limit})"
  | cannotRead p e => "Cannot read " ++ String.ofList p ++ ": " ++ e.message
  | cannotDecode p e => "Cannot read " ++ String.ofList p ++ ": " ++ e.message
  | cannotWrite p e => "Cannot write " ++ String.ofList p ++ ": " ++ e.message
  | missingFields l => "missing fields: " ++ String.ofList (Text.quoted l)
  | badRecord t => "bad number " ++ String.ofList (Text.quoted t)
  | loadRange a => s!"Load address out of range: {a}"
  | memoryRange a => s!"Memory address out of range: {a} (valid 0..{memorySize - 1})"
  | effectiveRange a => s!"EA out of range: {a}"
  | fetchRange a => s!"Fetch address out of range: {a}"
  | unsupported w => "Unsupported opcode " ++ operationName w ++ " (IR=" ++ column w.toNat ++ ")"
  | indexZero => "LDX with X=0 is invalid"
  | generalIndex r => s!"GPR index out of range: {r}"
  | indexIndex x => s!"IXR index out of range: {x}"
  | unknownRegister t =>
    "Unknown register \"" ++ String.ofList t ++ "\"; use PC, MAR, MBR, R0-R3 or X1-X3"
  | badNumber t => "Bad number: \"" ++ String.ofList t ++ "\""
  | badStepCount t => "Bad step count: \"" ++ String.ofList t ++ "\""
  | emptyCommand => "Empty command"
  | unknownCommand w => "Unknown command: \"" ++ String.ofList w ++ "\""
  | argumentCount c low high n => c ++ s!" expects {low} to {high} argument(s), got {n}"

/-- The numbers of unbounded size that the message shows. -/
def numbers : Cause → List Int
  | negativeLoc v | operandRange _ _ v | loadRange v | memoryRange v | generalIndex v
  | indexIndex v => [v]
  | _ => []

end Cause

/-- A text that shows numbers in decimal; each of them must be short enough for that. -/
def showing (numbers : List Int) (text : String) : Except Abort String :=
  if numbers.all Numeral.isWritable then .ok text else .error .unwritable

inductive Failure where
  | reported (cause : Cause) (line? : Option Int)
  | aborted (abort : Abort)

namespace Failure

/-- Reports a cause, unless its message would show a number that cannot be written. -/
def report (cause : Cause) (line? : Option Int) : Failure :=
  if cause.numbers.all Numeral.isWritable then .reported cause line? else .aborted .unwritable

def ofCause (cause : Cause) : Failure := report cause none

def atLine (line : Int) : Failure → Failure
  | reported cause none => reported cause (some line)
  | failure => failure

theorem report_of_forall {cause : Cause} {line? : Option Int}
    (h : ∀ v ∈ cause.numbers, Numeral.isWritable v = true) :
    report cause line? = .reported cause line? :=
  if_pos (List.all_eq_true.2 h)

theorem report_of_numbers_eq_nil {cause : Cause} (h : cause.numbers = []) (line? : Option Int) :
    report cause line? = .reported cause line? :=
  report_of_forall (by simp [h])

theorem ofCause_eq_reported {cause cause' : Cause} {line? : Option Int}
    (h : ofCause cause = .reported cause' line?) : cause' = cause := by
  unfold ofCause report at h
  split at h
  · cases h
    rfl
  · cases h

end Failure

def locatedMessage (line? : Option Int) (message : String) : String :=
  match line? with
  | some line => s!"line {line}: " ++ message
  | none => message

def Failure.message : Failure → String
  | reported cause line? => locatedMessage line? cause.message
  | aborted abort => abort.message

end WordMachine
