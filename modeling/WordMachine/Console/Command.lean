import WordMachine.Failure
import WordMachine.Text.LowerCase

namespace WordMachine

inductive CommandName where
  | ipl | step | run | reset | load | loadNext | store | storeNext | set | regs | dump | debug
deriving DecidableEq

namespace CommandName

def all : List CommandName := [
  ipl, step, run, reset, load, loadNext, store, storeNext, set, regs, dump, debug]

def name : CommandName → String
  | ipl => "ipl" | step => "step" | run => "run" | reset => "reset"
  | load => "load" | loadNext => "load+" | store => "store" | storeNext => "store+"
  | set => "set" | regs => "regs" | dump => "dump" | debug => "debug"

def arity : CommandName → Nat × Nat
  | ipl => (1, 1) | run => (0, 1) | set => (2, 2) | dump => (0, 2)
  | _ => (0, 0)

def read? (word : Text) : Option CommandName := all.find? (·.name.toList = Text.lower word)

end CommandName

/-- A number that a command takes, as a number or as the operator wrote it. -/
inductive NumberArgument where
  | number (n : Int)
  | token (t : Text)

inductive Command where
  | ipl (path : Text)
  | step
  | run (count? : Option NumberArgument)
  | reset
  | load
  | loadNext
  | store
  | storeNext
  | set (target : Text) (value : NumberArgument)
  | regs
  | dump (start? stop? : Option NumberArgument)
  | debug

/-- A line that is no command: the name that the answer bears, and what is wrong. -/
structure Refusal where
  command : String
  cause : Cause

namespace Command

def name : Command → CommandName
  | ipl _ => .ipl | step => .step | run _ => .run | reset => .reset
  | load => .load | loadNext => .loadNext | store => .store | storeNext => .storeNext
  | set .. => .set | regs => .regs | dump .. => .dump | debug => .debug

def ofArguments? : CommandName → List Text → Option Command
  | .ipl, [path] => some (ipl path)
  | .step, [] => some step
  | .run, [] => some (run none)
  | .run, [count] => some (run (some (.token count)))
  | .reset, [] => some reset
  | .load, [] => some load
  | .loadNext, [] => some loadNext
  | .store, [] => some store
  | .storeNext, [] => some storeNext
  | .set, [target, value] => some (set target (.token value))
  | .regs, [] => some regs
  | .dump, [] => some (dump none none)
  | .dump, [start] => some (dump (some (.token start)) none)
  | .dump, [start, stop] => some (dump (some (.token start)) (some (.token stop)))
  | .debug, [] => some debug
  | _, _ => none

def read (line : Text) : Except Refusal Command :=
  match Text.words line with
  | [] => .error ⟨"", .emptyCommand⟩
  | word :: words =>
    match CommandName.read? word with
    | none => .error ⟨String.ofList (Text.lower word), .unknownCommand word⟩
    | some name =>
      let arguments := if name = .ipl ∧ words ≠ [] then [Text.afterFirstWord line] else words
      match ofArguments? name arguments with
      | some command => .ok command
      | none =>
        .error ⟨name.name, .argumentCount name.name name.arity.1 name.arity.2 arguments.length⟩

end Command
end WordMachine
