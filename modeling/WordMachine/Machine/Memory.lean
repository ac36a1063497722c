import WordMachine.Failure

namespace WordMachine

structure Memory where
  cells : Vector Word memorySize
deriving DecidableEq

namespace Memory

def zero : Memory := ⟨Vector.replicate memorySize 0⟩

def get (m : Memory) (a : Fin memorySize) : Word := m.cells[a]

def set (m : Memory) (a : Fin memorySize) (w : Word) : Memory := ⟨m.cells.set a w⟩

theorem get_set (m : Memory) (a b : Fin memorySize) (w : Word) :
    (m.set a w).get b = if a = b then w else m.get b := by
  simp [get, set, Vector.getElem_set, Fin.ext_iff]

@[simp] theorem get_zero (a : Fin memorySize) : zero.get a = 0 := by simp [get, zero]

def index? (a : Int) : Option (Fin memorySize) :=
  if h : 0 ≤ a ∧ a < memorySize then some ⟨a.toNat, by omega⟩ else none

theorem index?_eq_some_iff {a : Int} {i : Fin memorySize} : index? a = some i ↔ a = i.val := by
  unfold index?
  split
  · next h => simp [Fin.ext_iff]; omega
  · next h => simp; have := i.isLt; omega

theorem index?_eq_none_iff {a : Int} : index? a = none ↔ a < 0 ∨ (memorySize : Int) ≤ a := by
  unfold index?
  split <;> simp <;> omega

@[simp] theorem index?_val (i : Fin memorySize) : index? (i.val : Int) = some i :=
  index?_eq_some_iff.2 rfl

def inRange (a : Int) : Except Cause (Fin memorySize) :=
  match index? a with
  | some i => .ok i
  | none => .error (.memoryRange a)

def read (m : Memory) (a : Int) : Except Cause Word := m.get <$> inRange a

def write (m : Memory) (a v : Int) : Except Cause Memory :=
  (fun i => m.set i (BitVec.ofInt 16 v)) <$> inRange a

end Memory
end WordMachine
