import WordMachine.Failure

namespace WordMachine

structure Status (α : Type) where
  command : String
  ok : Bool
  message : String
  kind? : Option String
  details : List (String × α)

namespace Status

variable {α : Type}

def done (command message : String) (details : List (String × α)) : Status α :=
  ⟨command, true, message, none, details⟩

/-- A failure of no kind counts as one of input and output. -/
def failed (command : String) (kind? : Option String) (message : String)
    (details : List (String × α)) : Status α :=
  ⟨command, false, message,
    some (match kind? with
      | some kind => if kind = "" then Kind.io.name else kind
      | none => Kind.io.name),
    details⟩

def ofCause (command : String) (cause : Cause) (details : List (String × α)) : Status α :=
  failed command (some cause.kind.name) cause.message details

def getD (s : Status α) (name : String) (default : α) : α := (s.details.lookup name).getD default

def summary (s : Status α) : String :=
  if s.ok then "<Status " ++ s.command ++ " ok: " ++ s.message ++ ">"
  else "<Status " ++ s.command ++ " " ++ s.kind?.getD "None" ++ ": " ++ s.message ++ ">"

end Status

inductive Datum where
  | absent
  | number (n : Int)
  | word (s : String)
  | words (l : List String)
  | registers (l : List (String × Nat))
deriving DecidableEq

def Datum.ofOption : Option Int → Datum
  | some n => number n
  | none => absent

end WordMachine
