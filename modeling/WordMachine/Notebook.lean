import WordMachine.Assembly.Basic
import WordMachine.Console.Basic

namespace WordMachine.Notebook

inductive Event where
  | output (text : String)
  | error (text : String)
deriving DecidableEq

structure CellOutcome where
  machine : Machine
  events : List Event

def outputLine (text : String) : Event := .output (text ++ "\n")

def errorLine (text : String) : Event := .error (text ++ "\n")

/-- A cell is one of commands if its first word names a command. -/
def isCommandCell (code : Text) : Bool :=
  match Text.words code with
  | [] => false
  | word :: _ => (CommandName.read? word).isSome

/-- How a status is shown: its message if it has one, or an error with its kind. -/
def statusEvents {α : Type} (s : Status α) : List Event :=
  if s.ok then if s.message = "" then [] else [outputLine s.message]
  else [errorLine (s.kind?.getD "None" ++ " error: " ++ s.message)]

def commandEvents (o : CommandOutcome) : List Event :=
  o.trace.map (fun line => outputLine line.text) ++
    match o.answer with
    | .ok s => statusEvents s
    | .error abort => [errorLine abort.message]

/-- Runs command lines, blank ones left out, until one of them fails without a status. -/
def runCommands (m : Machine) (files : FileTree) : List Text → CellOutcome
  | [] => ⟨m, []⟩
  | line :: rest =>
    if Text.trim line = [] then runCommands m files rest
    else
      let o := m.execute files line
      match o.answer with
      | .error _ => ⟨o.machine, commandEvents o⟩
      | .ok _ =>
        let after := runCommands o.machine files rest
        ⟨after.machine, commandEvents o ++ after.events⟩

def runSource (m : Machine) (source : Text) : CellOutcome :=
  match Assembly.ofText source with
  | .error (.reported cause line?) =>
    ⟨m, [errorLine ("Assembly error: " ++ locatedMessage line? cause.message)]⟩
  | .error (.aborted abort) => ⟨m, [errorLine abort.message]⟩
  | .ok assembly =>
    let o := m.loadImage assembly.records assembly.startAddress?
    ⟨o.machine, .output (String.ofList assembly.listing) :: commandEvents o⟩

/-- Runs a cell; blanks at its end do not count. -/
def runCell (m : Machine) (files : FileTree) (code : Text) : CellOutcome :=
  let code := Text.trimRight code
  if isCommandCell code then runCommands m files (Text.lines code) else runSource m code

def completions : List String :=
  Mnemonic.all.map Mnemonic.name ++ ["LOC", "Data"] ++
    (CommandName.all.map CommandName.name).mergeSort (fun a b => decide (a ≤ b))

def complete (token : Text) : List String :=
  completions.filter fun item => token.isPrefixOf item.toList

def commandHelp : CommandName → String
  | .ipl => "ipl PATH - clear the machine and load a load file; PC <- start address"
  | .step => "step - execute one instruction"
  | .run => "run [COUNT] - step until the machine halts or faults"
  | .reset => "reset - clear memory and registers"
  | .load => "load - MBR <- MEM[MAR]"
  | .loadNext => "load+ - MBR <- MEM[MAR], then MAR <- MAR + 1"
  | .store => "store - MEM[MAR] <- MBR"
  | .storeNext => "store+ - MEM[MAR] <- MBR, then MAR <- MAR + 1"
  | .set => "set TARGET VALUE - write VALUE into PC, MAR, MBR, R0-R3 or X1-X3"
  | .regs => "regs - show the registers"
  | .dump => "dump [START [STOP]] - list memory, disassembled"
  | .debug => "debug - toggle tracing of register and memory writes"

/-- The help on a command, which must be written as its name is. -/
def help? (code : Text) : Option String :=
  (CommandName.all.find? fun c => c.name.toList = Text.trim code).map commandHelp

def noHelp (code : Text) : String :=
  "No available help on '" ++ String.ofList (Text.trim code) ++ "'"

def usage : String := "This is the Calysto C6461 Jupyter kernel.

A cell that starts with an operator command runs the commands, one per
line. Any other cell is assembled and loaded into memory (IPL).

Operator commands:

 ipl PATH                  - load a load file (txt/<stem>_load.txt)
 step                      - execute the next instruction
 run [COUNT]               - step until HLT or a fault
 reset                     - clear memory and registers
 load / load+              - MBR <- MEM[MAR] (then MAR + 1)
 store / store+            - MEM[MAR] <- MBR (then MAR + 1)
 set TARGET VALUE          - set PC, MAR, MBR, R0-R3, X1-X3
 regs                      - show registers
 dump [START [STOP]]       - list memory
 debug                     - toggle tracing

VALUES are octal (digits 0-7), 0x hex, or decimal.
"

end WordMachine.Notebook
