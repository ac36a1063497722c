import WordMachine.Machine.Execution
import WordMachine.Machine.Status

namespace WordMachine.Machine

def fault (m : Machine) (code : FaultCode) : Machine :=
  { m.write .mfr code.value with state := .faulted }

def fetch (m : Machine) (w : Word) : Machine :=
  let pc := m.registers.pc.toNat
  { (((m.write .mar pc).write .mbr w.toNat).write .ir w.toNat).write .pc (pc + 1) with
    instructionCount := m.instructionCount + 1 }

/-- What is traced while a word is fetched, for the machine that has fetched it. -/
def fetchTrace (m : Machine) (address : Nat) (w : Word) : List TraceLine := [
  m.writeLine .mar, m.writeLine .mbr, m.writeLine .pc,
  .instruction m.instructionCount address w m.registers.pc.toNat]

def perform (m : Machine) (effect : Effect) : Machine :=
  let m := match effect.assignment? with
    | some (r, v) => m.write r v
    | none => m
  if effect.halts then { m with state := .halted } else m

def performTrace (m : Machine) (effect : Effect) : List TraceLine :=
  match effect.assignment? with
  | some (r, _) => [m.writeLine r]
  | none => []

def instructionDetails (address : Nat) (w : Word) : List (String × Datum) := [
  ("pc", .number address),
  ("opcode", match (Fields.ofWord w).mnemonic? with
    | some op => .word op.name
    | none => .absent),
  ("ir", .number w.toNat)]

def touched (effect : Effect) : List String :=
  match effect.assignment? with
  | some (r, _) => [r.name]
  | none => []

def executeFetched (m : Machine) (address : Nat) (w : Word) : Outcome (Status Datum) :=
  let fetched := m.fetch w
  let trace := fetched.fetchTrace address w
  match fetched.effect w with
  | .ok effect =>
    let done := fetched.perform effect
    ⟨done, m.shown (trace ++ done.performTrace effect),
      .done "step" effect.message (instructionDetails address w ++ [
        ("state", .word done.state.name),
        ("ea", .ofOption (effect.address?.map Int.ofNat)),
        ("touched", .words (touched effect))])⟩
  | .error f =>
    let stopped := fetched.fault f.code
    ⟨stopped, m.shown trace,
      .ofCause "step" f.cause
        (instructionDetails address w ++ [("state", .word stopped.state.name)])⟩

def step (m : Machine) : Outcome (Status Datum) :=
  let pc := m.registers.pc.toNat
  if !m.isReady then ⟨m, [], .done "step" "halted" [("state", .word m.state.name)]⟩
  else match Memory.index? pc with
    | some a => m.executeFetched pc (m.memory.get a)
    | none =>
      let stopped := (m.write .mar pc).fault .addressRange
      ⟨stopped, m.shown [stopped.writeLine .mar],
        .ofCause "step" (.fetchRange pc)
          [("pc", .number pc), ("state", .word stopped.state.name)]⟩

structure Progress where
  machine : Machine
  steps : Nat
  trace : Array TraceLine
  last : Status Datum

namespace Progress

def start (m : Machine) : Progress :=
  ⟨m, 0, #[], .done "run" "halted" [("state", .word m.state.name)]⟩

def advance (p : Progress) : Progress :=
  let o := p.machine.step
  ⟨o.machine, p.steps + 1, p.trace ++ o.trace, o.answer⟩

def proceed : (n : Nat) → Progress → Progress
  | 0, p => p
  | n + 1, p => if p.machine.isReady then proceed n p.advance else p

/-- A run may be interrupted anywhere and taken up again. -/
theorem proceed_add (a b : Nat) (p : Progress) : p.proceed (a + b) = (p.proceed a).proceed b := by
  induction a generalizing p with
  | zero => simp [proceed]
  | succ a ih =>
    rw [Nat.succ_add]
    simp only [proceed]
    split
    · exact ih _
    · next h =>
      cases b with
      | zero => rfl
      | succ b => simp [proceed, h]

/-- The answer of the run. A fault is reported as the step reported it. -/
def answer (p : Progress) : Status Datum :=
  if !p.last.ok then
    { p.last with command := "run", details := p.last.details ++ [("steps", .number p.steps)] }
  else
    let message := match p.machine.state with
      | .halted => "Computation completed"
      | .faulted => p.last.message
      | .ready => s!"Computation SUSPENDED after {p.steps} step(s)"
    .done "run" message [("steps", .number p.steps), ("state", .word p.machine.state.name)]

end Progress

/-- Runs at most `n` steps; a negative number counts as none. -/
def run (m : Machine) (n : Int) : Outcome (Status Datum) :=
  let p := (Progress.start m).proceed n.toNat
  ⟨p.machine, p.trace.toList, p.answer⟩

end WordMachine.Machine
