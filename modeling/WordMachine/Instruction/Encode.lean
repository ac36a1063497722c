import WordMachine.Failure

namespace WordMachine

def Mnemonic.find (t : Text) : Except Cause Mnemonic :=
  match Mnemonic.read? t with
  | some m => .ok m
  | none => .error (.unknownOpcode t)

def Operand.check (o : Operand) (mnemonic : Text) (v : Int) : Except Cause Int :=
  if 0 ≤ v ∧ v ≤ o.limit then .ok v else .error (.operandRange o mnemonic v)

/-- Encodes an instruction whose operands are read by `value`. The operands are read and checked
from left to right. -/
def encodeWith {α : Type} (value : Operand → α → Except Cause Int) (mnemonic : Text)
    (operands : List α) : Except Cause Word := do
  let m ← Mnemonic.find mnemonic
  let operand := fun o a => value o a >>= Operand.check o mnemonic
  match operands with
  | [r, ix, address] =>
    let r ← operand .r r
    let ix ← operand .ix ix
    let address ← operand .address address
    return pack m.code r ix 0 address
  | [r, ix, address, i] =>
    let r ← operand .r r
    let ix ← operand .ix ix
    let address ← operand .address address
    let i ← operand .indirect i
    return pack m.code r ix i address
  | _ => .error (.operandCount mnemonic operands.length)

def encode (mnemonic : Text) (operands : List Text) : Except Cause Word :=
  encodeWith (fun o token =>
    match Numeral.readInteger .decimal token with
    | .ok v => .ok v
    | .error _ => .error (.badOperand o mnemonic token)) mnemonic operands

def encodeValues (mnemonic : Text) (operands : List Int) : Except Cause Word :=
  encodeWith (fun _ v => .ok v) mnemonic operands

end WordMachine
