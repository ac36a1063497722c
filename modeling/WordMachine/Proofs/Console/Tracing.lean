import WordMachine.Proofs.Console.Storing
import WordMachine.Proofs.Machine.Tracing

namespace WordMachine.Machine

variable {m : Machine}

namespace Accounts

variable (h : m.debug = true)
include h

theorem load : Accounts m m.load.trace m.load.machine := by
  unfold Machine.load
  split
  · exact refl m
  · simp only
    rw [shown_of_debug h]
    exact write m (r := .mbr) (by decide) _

theorem store : Accounts m m.store.trace m.store.machine := by
  have hwrite := m.memory.write_eq m.registers.mar.toNat m.registers.mbr.toNat
  unfold Machine.store
  cases hi : Memory.index? m.registers.mar.toNat with
  | none =>
    rw [hi] at hwrite
    simp only [hwrite]
    exact refl m
  | some i =>
    have hmar : m.registers.mar.toNat = i.val := Int.natCast_inj.1 (Memory.index?_eq_some_iff.1 hi)
    have hword : BitVec.ofInt 16 (m.registers.mbr.toNat : Int) = m.registers.mbr := by simp
    have hlt := Nat.lt_trans m.registers.mbr.isLt (by decide : 2 ^ 16 < 0o1000000)
    rw [hi, hword] at hwrite
    simp only [hwrite]
    rw [shown_of_debug h, hmar]
    refine ⟨rfl, ?_⟩
    rw [List.map_singleton, replay_singleton (TraceLine.assignment?_memory i hlt), contents_set]

theorem thenAdvance {o : CommandOutcome} (ho : Accounts m o.trace o.machine) (command : String)
    (touched : List String) :
    Accounts m (thenAdvance o command touched).trace (thenAdvance o command touched).machine := by
  unfold Machine.thenAdvance
  split
  · split
    · have hmar := write o.machine (r := .mar) (by decide) (o.machine.registers.mar.toNat + 1)
      rw [andWrite]
      simp only
      rw [shown_of_debug (hmar.debug.trans (ho.debug.trans h))]
      exact ho.trans hmar
    · exact ho
  · exact ho

theorem setRegister (target : Text) (value : NumberArgument) :
    Accounts m (m.setRegister target value).trace (m.setRegister target value).machine := by
  unfold Machine.setRegister
  split
  · exact refl m
  · next r hr =>
    split
    · exact refl m
    · simp only
      rw [shown_of_debug h]
      exact write m (List.mem_of_find?_eq_some hr) _

theorem command (files : FileTree) {c : Command} (hc : c.name ∉ [.ipl, .reset, .debug]) :
    Accounts m (m.command files c).trace (m.command files c).machine := by
  cases c with
  | ipl path => simp [Command.name] at hc
  | reset => simp [Command.name] at hc
  | debug => simp [Command.name] at hc
  | step => exact step h
  | run count? =>
    rw [Machine.command]
    split
    · exact refl m
    · exact run h _
  | load => exact load h
  | loadNext =>
    rw [Machine.command, loadNext]
    exact thenAdvance h (load h) _ _
  | store => exact store h
  | storeNext =>
    rw [Machine.command, storeNext]
    exact thenAdvance h (store h) _ _
  | set target value => exact setRegister h target value
  | regs => exact refl m
  | dump start? stop? =>
    rw [Machine.command, dump]
    split
    · exact refl m
    · exact refl m

theorem act {action : Action}
    (haction : action.name? ∉ [some .ipl, some .reset, some .debug]) :
    Accounts m (m.act action).trace (m.act action).machine := by
  cases hc : action.command? with
  | some c =>
    obtain ⟨files, hact⟩ := act_of_command? hc m
    rw [Action.name?_of_command? hc] at haction
    rw [hact]
    exact command h files (by simpa using haction)
  | none =>
    cases action with
    | image records start? => simp [Action.name?] at haction
    | command files c => cases hc
    | file files path => cases hc
    | line files text =>
      -- A line that is refused prints nothing and changes nothing.
      obtain ⟨refusal, hread⟩ := toOption_eq_none.1 hc
      rw [Machine.act, execute, hread]
      exact refl m

end Accounts

def traceOfActions (m : Machine) : List Action → List TraceLine
  | [] => []
  | action :: actions => (m.act action).trace ++ (m.act action).machine.traceOfActions actions

theorem Accounts.after (h : m.debug = true) {actions : List Action}
    (hactions : ∀ action ∈ actions, action.name? ∉ [some .ipl, some .reset, some .debug]) :
    Accounts m (m.traceOfActions actions) (m.after actions) := by
  induction actions generalizing m with
  | nil => exact refl m
  | cons action actions ih =>
    obtain ⟨haction, hactions⟩ := List.forall_mem_cons.1 hactions
    have hfirst := act h haction
    exact hfirst.trans (ih (hfirst.debug.trans h) hactions)

/-- While debugging is on, the printed lines account for every write: what R0 to R3, X1 to X3, PC,
MAR, MBR and memory hold in the end is what they held in the beginning, with the values put in that
the lines show, in their order. -/
theorem printed_lines_account {m : Machine} (h : m.debug = true) {actions : List Action}
    (hactions : ∀ action ∈ actions, action.name? ∉ [some .ipl, some .reset, some .debug]) :
    replay ((m.traceOfActions actions).map TraceLine.text) m.contents =
      (m.after actions).contents :=
  (Accounts.after h hactions).replayed

/-- Values that are cut to the width of their registers, a step that faults at the fetch, a load that
fails for the address that it leaves, and a store. -/
def faultTraced : List Action :=
  ["set R0 -1", "set PC 4095", "step", "load", "set MAR 5", "set MBR 0x10007", "store+"].map
    fun line => .line ⟨[], []⟩ line.toList

theorem faultTraced_account :
    let m : Machine := { powerOn with debug := true }
    let lines := (m.traceOfActions faultTraced).map TraceLine.text
    lines = ["    R0 <= 177777", "    PC <= 007777", "    MAR <= 007777", "    MAR <= 000005",
      "    MBR <= 000007", "    memory[000005] <= 000007", "    MAR <= 000006"] ∧
    replay lines m.contents (.register ⟨.mar, by decide⟩) = 6 ∧
    replay lines m.contents (.word ⟨5, by decide⟩) = 7 := by
  intro m lines
  have hactions : ∀ action ∈ faultTraced, action.name? ∉ [some .ipl, some .reset, some .debug] := by
    decide
  have haccount := printed_lines_account (m := m) rfl hactions
  refine ⟨by decide +kernel, ?_, ?_⟩
  · rw [haccount]
    decide +kernel
  · rw [haccount]
    decide +kernel

end WordMachine.Machine
