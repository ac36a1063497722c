import WordMachine.Machine.Basic

namespace WordMachine

inductive FaultCode where
  | illegalOperation
  | addressRange
deriving DecidableEq

def FaultCode.value : FaultCode → Nat
  | illegalOperation => 0b0100
  | addressRange => 0b1000

structure Fault where
  cause : Cause
  code : FaultCode

/-- What an instruction does. Executing one only reads the machine, so one that faults has changed
nothing. -/
structure Effect where
  message : String
  address? : Option Nat
  /-- The register that is written, and what is written to it. -/
  assignment? : Option (Register × Nat)
  halts : Bool

namespace Machine

/-- The address before indirection: the address field and the index register, modulo 4096. -/
def indexedAddress (m : Machine) (f : Fields) (indexed : Bool) : Nat :=
  (f.address.val +
    if indexed ∧ f.ix.val ≠ 0 then m.registers.read (.index f.ix) else 0) % 4096

def effectiveAddress (m : Machine) (f : Fields) (indexed : Bool) :
    Except Cause (Fin memorySize) := do
  let a := m.indexedAddress f indexed
  let a ← if f.indirect then (fun w => w.toNat % 4096) <$> m.memory.read a else .ok a
  match Memory.index? a with
  | some i => .ok i
  | none => .error (.effectiveRange a)

def addressing (m : Machine) (f : Fields) (indexed : Bool) (effect : Fin memorySize → Effect) :
    Except Fault Effect :=
  match m.effectiveAddress f indexed with
  | .ok a => .ok (effect a)
  | .error cause => .error ⟨cause, .addressRange⟩

def loadEffect (m : Machine) (operation : String) (r : Register) (a : Fin memorySize) : Effect where
  message := operation ++ " " ++ r.name ++ " <- MEM[" ++ column a.val ++ "] = " ++
    column (m.memory.get a).toNat
  address? := some a.val
  assignment? := some (r, (m.memory.get a).toNat)
  halts := false

def addressEffect (r : Register) (a : Fin memorySize) : Effect where
  message := "LDA " ++ r.name ++ " <- " ++ column a.val
  address? := some a.val
  assignment? := some (r, a.val)
  halts := false

def jumpEffect (m : Machine) (r : Fin 4) (a : Fin memorySize) : Effect :=
  if m.registers.read (.general r) = 0 then
    ⟨"JZ taken, PC <- " ++ column a.val, some a.val, some (.pc, a.val), false⟩
  else
    ⟨"JZ not taken (" ++ (Register.general r).name ++ " != 0)", some a.val, none, false⟩

/-- The effect of an instruction word. Operations that the machine lacks are faults. -/
def effect (m : Machine) (w : Word) : Except Fault Effect :=
  let f := Fields.ofWord w
  match f.mnemonic? with
  | some .hlt => .ok ⟨"HLT", none, none, true⟩
  | some .ldr => m.addressing f true (m.loadEffect "LDR" (.general f.r))
  | some .lda => m.addressing f true (addressEffect (.general f.r))
  | some .jz => m.addressing f true (m.jumpEffect f.r)
  | some .ldx =>
    if f.ix.val = 0 then .error ⟨.indexZero, .illegalOperation⟩
    else m.addressing f false (m.loadEffect "LDX" (.index f.ix))
  | _ => .error ⟨.unsupported w, .illegalOperation⟩

end Machine
end WordMachine
