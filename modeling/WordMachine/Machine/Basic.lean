import WordMachine.Machine.Memory
import WordMachine.Machine.Registers

namespace WordMachine

inductive ControlState where
  | ready
  | halted
  | faulted
deriving DecidableEq

def ControlState.name : ControlState → String
  | ready => "Ready"
  | halted => "Halted"
  | faulted => "Faulted"

structure Machine where
  memory : Memory
  registers : Registers
  state : ControlState
  /-- The instructions fetched since power-on or the last clearing. -/
  instructionCount : Nat
  debug : Bool
  filename : Text
  /-- The steps of a run that names no number. -/
  maxSteps : Int

inductive TraceLine where
  | register (r : Register) (value : Nat)
  | memory (address : Nat) (value : Nat)
  | instruction (count : Nat) (address : Nat) (word : Word) (next : Nat)

def TraceLine.text : TraceLine → String
  | register r v => "    " ++ r.name ++ " <= " ++ column v
  | memory a v => "    memory[" ++ column a ++ "] <= " ++ column v
  | instruction count a w next =>
    s!"({count}) " ++ column a ++ ": " ++ column w.toNat ++ "  " ++
      String.ofList (disassemble w.toNat) ++ " (PC*: " ++ column next ++ ")"

structure Outcome (α : Type) where
  machine : Machine
  trace : List TraceLine
  answer : α

namespace Machine

def powerOn : Machine where
  memory := .zero
  registers := .zero
  state := .ready
  instructionCount := 0
  debug := false
  filename := []
  maxSteps := 10000

/-- Memory, registers, state and count as at power-on; what the operator set stays. -/
def clear (m : Machine) : Machine :=
  { m with memory := .zero, registers := .zero, state := .ready, instructionCount := 0 }

def isReady (m : Machine) : Bool := m.state = .ready

def write (m : Machine) (r : Register) (v : Int) : Machine :=
  { m with registers := m.registers.write r v }

/-- The lines that are shown: all while debugging, none otherwise. -/
def shown (m : Machine) (trace : List TraceLine) : List TraceLine := if m.debug then trace else []

def writeLine (m : Machine) (r : Register) : TraceLine := .register r (m.registers.read r)

end Machine
end WordMachine
