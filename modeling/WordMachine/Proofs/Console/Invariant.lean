import WordMachine.Console.Basic
import WordMachine.Proofs.Machine.Invariant

namespace WordMachine

theorem Register.isOpen_of_mem_settable {r : Register} (h : r ∈ settable) : r.IsOpen := by
  simp only [settable, generals, indexes, List.mem_append, List.mem_cons, List.mem_map,
    List.not_mem_nil, or_false] at h
  rcases h with ((rfl | rfl | rfl) | ⟨g, -, rfl⟩) | ⟨x, hx, rfl⟩
  · trivial
  · trivial
  · trivial
  · trivial
  · have hne : ∀ y ∈ (List.finRange 4).tail, y.val ≠ 0 := by decide
    exact hne x hx

theorem Register.isOpen_of_settable? {name : Text} {r : Register}
    (h : Register.settable? name = some r) : r.IsOpen :=
  isOpen_of_mem_settable (List.mem_of_find?_eq_some h)

namespace Machine

/-- What the operator can do: type a line, give a command, load a file, or load records. -/
inductive Action where
  | line (files : FileTree) (text : Text)
  | command (files : FileTree) (command : Command)
  | file (files : FileTree) (path : Text)
  | image (records : LoadImage) (start? : Option Int)

def act (m : Machine) : Action → CommandOutcome
  | .line files text => m.execute files text
  | .command files command => m.command files command
  | .file files path => m.loadFile files path
  | .image records start? => m.loadImage records start?

def after (m : Machine) (actions : List Action) : Machine :=
  actions.foldl (fun m action => (m.act action).machine) m

variable {m : Machine}

namespace Invariant

theorem load (h : m.Invariant) : m.load.machine.Invariant := by
  unfold Machine.load
  split
  · exact h
  · exact h.write (r := .mbr) trivial _

theorem store (h : m.Invariant) : m.store.machine.Invariant := by
  unfold Machine.store
  simp only
  split
  · exact h
  · exact h.memory _

theorem thenAdvance {o : CommandOutcome} (h : o.machine.Invariant) (command : String)
    (touched : List String) : (thenAdvance o command touched).machine.Invariant := by
  unfold Machine.thenAdvance
  split
  · split
    · exact h.write (r := .mar) trivial _
    · exact h
  · exact h

theorem setRegister (h : m.Invariant) (target : Text) (value : NumberArgument) :
    (m.setRegister target value).machine.Invariant := by
  unfold Machine.setRegister
  split
  · exact h
  · next r hr =>
    split
    · exact h
    · exact h.write (Register.isOpen_of_settable? hr) _

theorem dump (h : m.Invariant) (start? stop? : Option NumberArgument) :
    (m.dump start? stop?).machine.Invariant := by
  unfold Machine.dump
  split
  · exact h
  · exact h

/-- Loading clears the machine first, so nothing need be known of it. -/
theorem loadImage (m : Machine) (records : LoadImage) (start? : Option Int) :
    (m.loadImage records start?).machine.Invariant := by
  unfold Machine.loadImage
  simp only
  split
  · exact clear m
  · next memory _ =>
    exact (((clear m).memory memory).write (r := .pc) trivial _).write (r := .mar) trivial _

theorem loadFile (m : Machine) (files : FileTree) (path : Text) :
    (m.loadFile files path).machine.Invariant := by
  unfold Machine.loadFile
  simp only
  split
  · exact clear m
  · exact loadImage _ _ _

theorem command (h : m.Invariant) (files : FileTree) (c : Command) :
    (m.command files c).machine.Invariant := by
  cases c with
  | ipl path => exact loadFile m files path
  | step => exact h.step
  | run count? =>
    rw [Machine.command]
    split
    · exact h
    · exact h.run _
  | reset => exact clear m
  | load => exact h.load
  | loadNext =>
    rw [Machine.command, Machine.loadNext]
    exact thenAdvance h.load _ _
  | store => exact h.store
  | storeNext =>
    rw [Machine.command, Machine.storeNext]
    exact thenAdvance h.store _ _
  | set target value => exact h.setRegister target value
  | regs => exact h
  | dump start? stop? => exact h.dump start? stop?
  | debug => exact h.of_read_eq rfl fun _ _ => rfl

theorem execute (h : m.Invariant) (files : FileTree) (line : Text) :
    (m.execute files line).machine.Invariant := by
  unfold Machine.execute
  split
  · exact h.command files _
  · exact h

theorem act (h : m.Invariant) (action : Action) : (m.act action).machine.Invariant := by
  cases action with
  | line files text => exact h.execute files text
  | command files c => exact h.command files c
  | file files path => exact loadFile m files path
  | image records start? => exact loadImage m records start?

theorem after (h : m.Invariant) (actions : List Action) : (m.after actions).Invariant := by
  induction actions generalizing m with
  | nil => exact h
  | cons action actions ih => exact ih (h.act action)

end Invariant

/-- Every state that the operator can reach from power-on has 2048 words of 16 bits, registers
within their widths, and the invariant. -/
theorem reachable_sound (actions : List Action) :
    (powerOn.after actions).memory.cells.toArray.size = 2048 ∧
      (∀ a, ((powerOn.after actions).memory.get a).toNat < Nat.pow 2 16) ∧
      (∀ r, (powerOn.after actions).registers.read r < Nat.pow 2 r.width) ∧
      (powerOn.after actions).Invariant := by
  have hinvariant := Invariant.powerOn.after actions
  refine ⟨Vector.size_toArray _, fun a => BitVec.isLt _, ?_, hinvariant⟩
  intro r
  cases r <;> exact BitVec.isLt _

end Machine
end WordMachine
