import WordMachine.Console.Command
import WordMachine.Files.Reading
import WordMachine.Machine.Run

namespace WordMachine

def Status.ofFailure {α : Type} (command : String) : Failure → Except Abort (Status α)
  | .reported cause line? =>
    .ok (.failed command (some cause.kind.name) (locatedMessage line? cause.message) [])
  | .aborted abort => .error abort

abbrev CommandOutcome := Outcome (Except Abort (Status Datum))

def NumberArgument.value : NumberArgument → Except Cause Int
  | number n => .ok n
  | token t => (Numeral.readNumber t).mapError fun _ => .badNumber t

/-- What a load image puts into a memory that was zero. A later record replaces an earlier one. -/
def Memory.ofRecords (records : LoadImage) : Except Cause Memory :=
  records.foldlM (fun memory r =>
    (memory.write r.address r.word).mapError fun _ => .loadRange r.address) zero

namespace Machine

def refuse (m : Machine) (command : String) (cause : Cause) : CommandOutcome :=
  ⟨m, [], Status.ofFailure command (.ofCause cause)⟩

def andWrite (o : CommandOutcome) (r : Register) (v : Int) (answer : Status Datum) :
    CommandOutcome :=
  let m := o.machine.write r v
  ⟨m, o.trace ++ m.shown [m.writeLine r], .ok answer⟩

def load (m : Machine) : CommandOutcome :=
  match m.memory.read m.registers.mar.toNat with
  | .error cause => m.refuse "load" cause
  | .ok w =>
    let m' := m.write .mbr w.toNat
    ⟨m', m.shown [m'.writeLine .mbr],
      .ok (.done "load" ("MBR <- MEM[" ++ column m.registers.mar.toNat ++ "] = " ++ column w.toNat)
        [("touched", .words ["MBR"])])⟩

def store (m : Machine) : CommandOutcome :=
  let mar := m.registers.mar.toNat
  let mbr := m.registers.mbr.toNat
  match m.memory.write mar mbr with
  | .error cause => m.refuse "store" cause
  | .ok memory =>
    ⟨{ m with memory }, m.shown [.memory mar mbr],
      .ok (.done "store" ("MEM[" ++ column mar ++ "] <- " ++ column mbr) [])⟩

/-- After a success, moves MAR on by one and answers for the command with that name. -/
def thenAdvance (o : CommandOutcome) (command : String) (touched : List String) : CommandOutcome :=
  match o.answer with
  | .ok s =>
    if s.ok then
      andWrite o .mar (o.machine.registers.mar.toNat + 1)
        { s with command, details := [("touched", .words touched)] }
    else o
  | .error _ => o

def loadNext (m : Machine) : CommandOutcome := thenAdvance m.load "load+" ["MBR", "MAR"]

def storeNext (m : Machine) : CommandOutcome := thenAdvance m.store "store+" ["MAR"]

def setRegister (m : Machine) (target : Text) (value : NumberArgument) : CommandOutcome :=
  match Register.settable? target with
  | none => m.refuse "set" (.unknownRegister target)
  | some r =>
    match value.value with
    | .error cause => m.refuse "set" cause
    | .ok v =>
      let m' := m.write r v
      ⟨m', m.shown [m'.writeLine r],
        .ok (.done "set" (r.name ++ " <- " ++ column (m'.registers.read r))
          [("touched", .words [r.name])])⟩

def registerColumns (m : Machine) (rs : List Register) : String :=
  "  ".intercalate (rs.map fun r => r.name ++ ": " ++ column (m.registers.read r))

def registerTable (m : Machine) : String :=
  "\n".intercalate [
    "State: " ++ m.state.name,
    m.registerColumns [.pc, .mar, .mbr, .ir, .cc, .mfr],
    m.registerColumns Register.generals,
    m.registerColumns Register.indexes]

/-- The first and the last address of a dump: ten words from `start` on, at most a hundred, and
none beyond memory. -/
def dumpBounds (m : Machine) (start? stop? : Option NumberArgument) : Except Cause (Int × Int) := do
  let start ← match start? with
    | some a => a.value
    | none => .ok m.registers.pc.toNat
  let stop ← match stop? with
    | some a => a.value
    | none => .ok (start + 9)
  let stop := if stop < start then start + 9 else stop
  let _ ← Memory.inRange start
  return (start, min stop (min (start + 99) (memorySize - 1)))

def dumpLine (m : Machine) (a : Fin memorySize) : String :=
  let w := (m.memory.get a).toNat
  column a.val ++ ": " ++ column w ++ "  " ++ String.ofList (disassemble w)

def dump (m : Machine) (start? stop? : Option NumberArgument) : CommandOutcome :=
  match m.dumpBounds start? stop? with
  | .error cause => m.refuse "dump" cause
  | .ok (start, stop) =>
    let addresses := (List.range (stop + 1 - start).toNat).filterMap fun (n : Nat) =>
      Memory.index? (start + (n : Nat))
    ⟨m, [], .ok (.done "dump" ("\n".intercalate (addresses.map m.dumpLine)) [])⟩

def stepLimit (m : Machine) : Option NumberArgument → Except Cause Int
  | none => .ok m.maxSteps
  | some (.number n) => .ok n
  | some (.token t) => (Numeral.readInteger .decimal t).mapError fun _ => .badStepCount t

/-- Clears the machine and loads an image. It starts at `start?`, or else at the first record, or
else at 0. -/
def loadImage (m : Machine) (records : LoadImage) (start? : Option Int) : CommandOutcome :=
  let m := m.clear
  match Memory.ofRecords records with
  | .error cause => m.refuse "ipl" cause
  | .ok memory =>
    let first? := LoadImage.firstAddress? records
    let start := start?.getD (first?.getD 0)
    let m := (({ m with memory } : Machine).write .pc start).write .mar start
    ⟨m, m.shown [m.writeLine .pc, m.writeLine .mar],
      .ok (.done "ipl"
        (s!"Loaded {records.length} word(s); PC <- " ++ String.ofList (Numeral.octalColumn start)) [
        ("records", .number records.length),
        ("first_address", .ofOption first?),
        ("start", .number start),
        ("state", .word m.state.name)])⟩

/-- Clears the machine and loads a load file. A file that cannot be read leaves it cleared. -/
def loadFile (m : Machine) (files : FileTree) (path : Text) : CommandOutcome :=
  let m := m.clear
  match LoadImage.ofFile files path with
  | .error failure => ⟨m, [], Status.ofFailure "ipl" failure⟩
  | .ok records =>
    ({ m with filename := path } : Machine).loadImage records
      (LoadImage.startHint? files path records)

def command (m : Machine) (files : FileTree) : Command → CommandOutcome
  | .ipl path => m.loadFile files path
  | .step => let o := m.step; ⟨o.machine, o.trace, .ok o.answer⟩
  | .run count? =>
    match m.stepLimit count? with
    | .error cause => m.refuse "run" cause
    | .ok n => let o := m.run n; ⟨o.machine, o.trace, .ok o.answer⟩
  | .reset =>
    ⟨m.clear, [], .ok (.done "reset" "Memory and registers cleared"
      [("state", .word m.clear.state.name)])⟩
  | .load => m.load
  | .loadNext => m.loadNext
  | .store => m.store
  | .storeNext => m.storeNext
  | .set target value => m.setRegister target value
  | .regs =>
    ⟨m, [], .ok (.done "regs" m.registerTable
      [("registers", .registers m.registers.snapshot), ("state", .word m.state.name)])⟩
  | .dump start? stop? => m.dump start? stop?
  | .debug =>
    ⟨{ m with debug := !m.debug }, [],
      .ok (.done "debug" ("Debug is now " ++ if m.debug then "off" else "on") [])⟩

def execute (m : Machine) (files : FileTree) (line : Text) : CommandOutcome :=
  match Command.read line with
  | .ok command => m.command files command
  | .error refusal =>
    ⟨m, [], .ok (.failed refusal.command (some Kind.command.name) refusal.cause.message [])⟩

end Machine
end WordMachine
