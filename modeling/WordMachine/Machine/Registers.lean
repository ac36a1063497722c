import WordMachine.Failure

namespace WordMachine

inductive Register where
  | general (r : Fin 4)
  | index (x : Fin 4)
  | pc | mar | mbr | ir | cc | mfr
deriving DecidableEq

structure Registers where
  general : Vector Word 4
  /-- The index registers, at 1 to 3; what stands at 0 is not used. -/
  index : Vector Word 4
  pc : Address
  mar : Address
  mbr : Word
  ir : Word
  cc : BitVec 4
  mfr : BitVec 4
deriving DecidableEq

namespace Register

def name : Register → String
  | general r => s!"R{r.val}"
  | index x => s!"X{x.val}"
  | pc => "PC" | mar => "MAR" | mbr => "MBR" | ir => "IR" | cc => "CC" | mfr => "MFR"

def width : Register → Nat
  | pc | mar => 12
  | cc | mfr => 4
  | _ => 16

def generals : List Register := (List.finRange 4).map general

def indexes : List Register := (List.finRange 4).tail.map index

def settable : List Register := [pc, mar, mbr] ++ generals ++ indexes

def all : List Register := generals ++ indexes ++ [pc, mar, mbr, ir, cc, mfr]

/-- The settable register with a name, in any case. -/
def settable? (name : Text) : Option Register :=
  settable.find? fun r => r.name.toList = Text.upper name

end Register

namespace Registers

def zero : Registers where
  general := Vector.replicate 4 0
  index := Vector.replicate 4 0
  pc := 0
  mar := 0
  mbr := 0
  ir := 0
  cc := 0
  mfr := 0

def read (s : Registers) : Register → Nat
  | .general r => s.general[r].toNat
  | .index x => s.index[x].toNat
  | .pc => s.pc.toNat
  | .mar => s.mar.toNat
  | .mbr => s.mbr.toNat
  | .ir => s.ir.toNat
  | .cc => s.cc.toNat
  | .mfr => s.mfr.toNat

def write (s : Registers) (r : Register) (v : Int) : Registers :=
  match r with
  | .general r => { s with general := s.general.set r (BitVec.ofInt 16 v) }
  | .index x => { s with index := s.index.set x (BitVec.ofInt 16 v) }
  | .pc => { s with pc := BitVec.ofInt 12 v }
  | .mar => { s with mar := BitVec.ofInt 12 v }
  | .mbr => { s with mbr := BitVec.ofInt 16 v }
  | .ir => { s with ir := BitVec.ofInt 16 v }
  | .cc => { s with cc := BitVec.ofInt 4 v }
  | .mfr => { s with mfr := BitVec.ofInt 4 v }

/-- A register keeps as many low bits as it holds. -/
theorem read_write_self (s : Registers) (r : Register) (v : Int) :
    (s.write r v).read r = lowBits r.width v := by
  cases r <;> simp [write, read, lowBits, Register.width]

theorem read_write_of_ne (s : Registers) {r q : Register} (v : Int) (h : r ≠ q) :
    (s.write r v).read q = s.read q := by
  cases r <;> cases q <;> simp_all [write, read, Fin.ext_iff]

theorem ext_read {s t : Registers} (h : ∀ r, s.read r = t.read r) : s = t := by
  obtain ⟨g, x, pc, mar, mbr, ir, cc, mfr⟩ := s
  obtain ⟨g', x', pc', mar', mbr', ir', cc', mfr'⟩ := t
  have hg : g = g' := Vector.ext fun i hi => BitVec.eq_of_toNat_eq (h (.general ⟨i, hi⟩))
  have hx : x = x' := Vector.ext fun i hi => BitVec.eq_of_toNat_eq (h (.index ⟨i, hi⟩))
  have h₁ := BitVec.eq_of_toNat_eq (h .pc)
  have h₂ := BitVec.eq_of_toNat_eq (h .mar)
  have h₃ := BitVec.eq_of_toNat_eq (h .mbr)
  have h₄ := BitVec.eq_of_toNat_eq (h .ir)
  have h₅ := BitVec.eq_of_toNat_eq (h .cc)
  have h₆ := BitVec.eq_of_toNat_eq (h .mfr)
  simp_all

def general? (r : Int) : Except Cause Register :=
  if h : 0 ≤ r ∧ r ≤ 3 then .ok (.general ⟨r.toNat, by omega⟩) else .error (.generalIndex r)

def index? (x : Int) : Except Cause Register :=
  if h : 1 ≤ x ∧ x ≤ 3 then .ok (.index ⟨x.toNat, by omega⟩) else .error (.indexIndex x)

def snapshot (s : Registers) : List (String × Nat) :=
  Register.all.map fun r => (r.name, s.read r)

end Registers
end WordMachine
