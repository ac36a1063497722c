import WordMachine.Proofs.Console.Answering
import WordMachine.Proofs.Console.Storing

namespace WordMachine

def CommandOutcome.Fails (o : CommandOutcome) : Prop := ∃ s, o.answer = .ok s ∧ s.ok = false

namespace Machine

variable {m : Machine}

theorem not_succeeds_of_fails {o : CommandOutcome} (h : CommandOutcome.Fails o) :
    ¬ CommandOutcome.Succeeds o := by
  obtain ⟨s, hs, hfailed⟩ := h
  rintro ⟨s', hs', hok⟩
  obtain rfl := Except.ok.inj (hs.symm.trans hs')
  rw [hfailed] at hok
  cases hok

theorem fails_refuse {command : String} {cause : Cause}
    (h : CommandOutcome.Answers (m.refuse command cause)) :
    CommandOutcome.Fails (m.refuse command cause) := by
  obtain ⟨s, hs⟩ := h
  have hfailed : Status.ofFailure command (.ofCause cause) = .ok s := hs
  exact ⟨s, hs, (Status.ofFailure_eq_ok hfailed).1⟩

theorem thenAdvance_of_fails {o : CommandOutcome} (h : CommandOutcome.Fails o) (command : String)
    (touched : List String) : thenAdvance o command touched = o := by
  obtain ⟨s, hs, hfailed⟩ := h
  simp only [thenAdvance, hs, hfailed, Bool.false_eq_true, if_false]

section InMemory

variable {i : Fin memorySize}

/-- In memory a store puts MBR at MAR, and MAR moves on. -/
theorem storeNext_of_inMemory (h : m.registers.mar.toNat = i.val) :
    CommandOutcome.Succeeds m.storeNext ∧ m.storeNext.machine =
      ({ m with memory := m.memory.set i m.registers.mbr } : Machine).write .mar (i.val + 1) := by
  have hwrite : m.memory.write m.registers.mar.toNat m.registers.mbr.toNat =
      .ok (m.memory.set i m.registers.mbr) := by
    rw [Memory.write_eq, h, Memory.index?_val]
    simp
  unfold storeNext store
  simp only [hwrite]
  exact ⟨⟨_, rfl, rfl⟩, by rw [← h]; rfl⟩

theorem loadNext_of_inMemory (h : m.registers.mar.toNat = i.val) :
    CommandOutcome.Succeeds m.loadNext ∧ m.loadNext.machine =
      (m.write .mbr (m.memory.get i).toNat).write .mar (i.val + 1) := by
  have hread : m.memory.read m.registers.mar.toNat = .ok (m.memory.get i) := by
    rw [Memory.read, Memory.inRange, h, Memory.index?_val]
    rfl
  unfold loadNext load
  simp only [hread]
  exact ⟨⟨_, rfl, rfl⟩, by rw [← h]; rfl⟩

theorem read_mbr_loadNext (h : m.registers.mar.toNat = i.val) :
    m.loadNext.machine.registers.read .mbr = (m.memory.get i).toNat := by
  rw [(loadNext_of_inMemory h).2]
  change (BitVec.ofInt 16 ((m.memory.get i).toNat : Int)).toNat = _
  rw [BitVec.ofInt_natCast, BitVec.ofNat_toNat, BitVec.setWidth_eq]

end InMemory

section Beyond

variable (h : memorySize ≤ m.registers.mar.toNat)

include h

theorem inRange_mar_of_beyond : Memory.inRange m.registers.mar.toNat =
    .error (.memoryRange m.registers.mar.toNat) :=
  Memory.inRange_eq_error.2 ⟨Memory.index?_eq_none_iff.2 (.inr (Int.ofNat_le.2 h)), rfl⟩

/-- Beyond memory a store fails and changes nothing. -/
theorem storeNext_of_beyond : CommandOutcome.Fails m.storeNext ∧ m.storeNext.machine = m := by
  have hwrite : m.memory.write m.registers.mar.toNat m.registers.mbr.toNat =
      .error (.memoryRange m.registers.mar.toNat) := by
    rw [Memory.write, inRange_mar_of_beyond h]
    rfl
  have hstore : m.store = m.refuse "store" (.memoryRange m.registers.mar.toNat) := by
    unfold store
    simp only [hwrite]
  have hfails := fails_refuse (answers_refuse_mar m "store")
  rw [storeNext, hstore, thenAdvance_of_fails hfails]
  exact ⟨hfails, rfl⟩

theorem loadNext_of_beyond : CommandOutcome.Fails m.loadNext ∧ m.loadNext.machine = m := by
  have hread : m.memory.read m.registers.mar.toNat =
      .error (.memoryRange m.registers.mar.toNat) := by
    rw [Memory.read, inRange_mar_of_beyond h]
    rfl
  have hload : m.load = m.refuse "load" (.memoryRange m.registers.mar.toNat) := by
    unfold load
    simp only [hread]
  have hfails := fails_refuse (answers_refuse_mar m "load")
  rw [loadNext, hload, thenAdvance_of_fails hfails]
  exact ⟨hfails, rfl⟩

end Beyond

theorem read_mar_write (m : Machine) {n : Nat} (h : n ≤ memorySize) :
    (m.write .mar n).registers.read .mar = n :=
  (Registers.read_write_self m.registers .mar n).trans (lowBits_of_le_memorySize h)

section Advancing

variable (h : m.registers.read .mar ≤ memorySize)

include h

theorem read_mar_storeNext : m.storeNext.machine.registers.read .mar =
    min (m.registers.read .mar + 1) memorySize := by
  rcases Nat.lt_or_eq_of_le h with hlt | hend
  · rw [(@storeNext_of_inMemory m ⟨_, hlt⟩ rfl).2]
    exact (read_mar_write _ hlt).trans (Nat.min_eq_left hlt).symm
  · rw [(storeNext_of_beyond (Nat.le_of_eq hend.symm)).2]
    omega

theorem read_mar_loadNext : m.loadNext.machine.registers.read .mar =
    min (m.registers.read .mar + 1) memorySize := by
  rcases Nat.lt_or_eq_of_le h with hlt | hend
  · rw [(@loadNext_of_inMemory m ⟨_, hlt⟩ rfl).2]
    exact (read_mar_write _ hlt).trans (Nat.min_eq_left hlt).symm
  · rw [(loadNext_of_beyond (Nat.le_of_eq hend.symm)).2]
    omega

end Advancing

theorem after_append (m : Machine) (actions actions' : List Action) :
    m.after (actions ++ actions') = (m.after actions).after actions' := List.foldl_append

def setting (files : FileTree) (target : Text) (v : Int) : Action :=
  .command files (.set target (.number v))

theorem act_setting (m : Machine) (files : FileTree) {target : Text} {r : Register}
    (h : Register.settable? target = some r) (v : Int) :
    (m.act (setting files target v)).machine = m.write r v := by
  simp only [setting, act, command, setRegister, h, NumberArgument.value]

/-- The operator deposits values from an address on. -/
def depositing (files : FileTree) (start : Int) (vs : List Int) : List Action :=
  setting files "MAR".toList start ::
    vs.flatMap fun v => [setting files "MBR".toList v, .command files .storeNext]

def examining (files : FileTree) (start : Int) (count : Nat) : List Action :=
  setting files "MAR".toList start :: List.replicate count (.command files .loadNext)

def depositedAt? (a : Fin memorySize) (vs : List Int) (i : Fin memorySize) : Option Int :=
  if a ≤ i then vs[i.val - a.val]? else none

theorem depositedAt?_concat (a : Fin memorySize) (vs : List Int) (v : Int) (i : Fin memorySize) :
    depositedAt? a (vs ++ [v]) i =
      if a.val + vs.length = i.val then some v else depositedAt? a vs i := by
  unfold depositedAt?
  grind

theorem depositedAt?_add {a : Fin memorySize} {k : Nat} (h : a.val + k < memorySize)
    (vs : List Int) : depositedAt? a vs ⟨a.val + k, h⟩ = vs[k]? := by
  rw [depositedAt?, if_pos (Fin.le_def.2 (Nat.le_add_right _ _)), Nat.add_sub_cancel_left]

/-- What a machine has become when values have been deposited in it. -/
structure Deposited (m filled : Machine) (a : Fin memorySize) (vs : List Int) : Prop where
  mar : filled.registers.read .mar = min (a.val + vs.length) memorySize
  word : ∀ i, filled.memory.get i =
    (depositedAt? a vs i).elim (m.memory.get i) (BitVec.ofInt 16)

namespace Deposited

variable {filled : Machine} {a : Fin memorySize} {vs : List Int}

theorem zero (m : Machine) (a : Fin memorySize) : Deposited m (m.write .mar a.val) a [] where
  mar := by
    have hlt := a.isLt
    rw [read_mar_write m (Nat.le_of_lt hlt), List.length_nil]
    omega
  word i := by
    have hnone : depositedAt? a [] i = none := by simp [depositedAt?]
    rw [hnone]
    rfl

/-- One value more is stored if there is a word for it. -/
theorem concat (h : Deposited m filled a vs) (v : Int) :
    let o := (filled.write .mbr v).storeNext
    (CommandOutcome.Succeeds o ↔ a.val + vs.length < memorySize) ∧
      (memorySize ≤ a.val + vs.length →
        CommandOutcome.Fails o ∧ o.machine = filled.write .mbr v) ∧
      Deposited m o.machine a (vs ++ [v]) := by
  have hmar : (filled.write .mbr v).registers.read .mar = min (a.val + vs.length) memorySize :=
    h.mar
  have hnext : (filled.write .mbr v).storeNext.machine.registers.read .mar =
      min (a.val + (vs ++ [v]).length) memorySize := by
    rw [read_mar_storeNext (by omega), hmar, List.length_append, List.length_singleton]
    omega
  by_cases hlt : a.val + vs.length < memorySize
  · rw [Nat.min_eq_left (Nat.le_of_lt hlt)] at hmar
    obtain ⟨hsucceeds, hmachine⟩ := @storeNext_of_inMemory _ ⟨a.val + vs.length, hlt⟩ hmar
    refine ⟨iff_of_true hsucceeds hlt, by omega, hnext, fun i => ?_⟩
    rw [hmachine, depositedAt?_concat]
    change (filled.memory.set _ (BitVec.ofInt 16 v)).get i = _
    rw [Memory.get_set, h.word]
    simp only [Fin.ext_iff]
    split <;> rfl
  · rw [Nat.min_eq_right (Nat.le_of_not_lt hlt)] at hmar
    obtain ⟨hfails, hmachine⟩ := storeNext_of_beyond (Nat.le_of_eq hmar.symm)
    refine ⟨iff_of_false (not_succeeds_of_fails hfails) hlt, fun _ => ⟨hfails, hmachine⟩,
      hnext, fun i => ?_⟩
    have hi := i.isLt
    rw [hmachine, depositedAt?_concat, if_neg (by omega)]
    exact h.word i

end Deposited

theorem act_setting_mar (m : Machine) (files : FileTree) (v : Int) :
    (m.act (setting files "MAR".toList v)).machine = m.write .mar v := act_setting m files rfl v

theorem act_setting_mbr (m : Machine) (files : FileTree) (v : Int) :
    (m.act (setting files "MBR".toList v)).machine = m.write .mbr v := act_setting m files rfl v

theorem act_storeNext (m : Machine) (files : FileTree) :
    m.act (.command files .storeNext) = m.storeNext := rfl

theorem act_loadNext (m : Machine) (files : FileTree) :
    m.act (.command files .loadNext) = m.loadNext := rfl

theorem after_depositing_concat (m : Machine) (files : FileTree) (start : Int) (vs : List Int)
    (v : Int) :
    m.after (depositing files start (vs ++ [v])) =
      ((m.after (depositing files start vs)).write .mbr v).storeNext.machine := by
  have hactions : depositing files start (vs ++ [v]) =
      depositing files start vs ++ [setting files "MBR".toList v, .command files .storeNext] := by
    simp [depositing]
  rw [hactions, after_append, ← act_setting_mbr _ files]
  rfl

theorem deposited_after (m : Machine) (files : FileTree) (a : Fin memorySize) (vs : List Int) :
    Deposited m (m.after (depositing files a.val vs)) a vs := by
  induction vs using List.reverseRecOn with
  | nil =>
    have hset : m.after (depositing files a.val []) = m.write .mar a.val :=
      act_setting_mar m files a.val
    rw [hset]
    exact .zero m a
  | append_singleton vs v ih =>
    rw [after_depositing_concat]
    exact (ih.concat v).2.2

theorem after_examining (m : Machine) (files : FileTree) (a : Fin memorySize) (count : Nat) :
    (m.after (examining files a.val count)).memory = m.memory ∧
      (m.after (examining files a.val count)).registers.read .mar =
        min (a.val + count) memorySize := by
  induction count with
  | zero =>
    have hset : m.after (examining files a.val 0) = m.write .mar a.val :=
      act_setting_mar m files a.val
    rw [hset]
    exact ⟨rfl, (Deposited.zero m a).mar⟩
  | succ count ih =>
    obtain ⟨hmemory, hmar⟩ := ih
    have hnext : m.after (examining files a.val (count + 1)) =
        ((m.after (examining files a.val count)).act (.command files .loadNext)).machine := by
      rw [examining, List.replicate_succ', ← List.cons_append, after_append]
      rfl
    rw [hnext]
    have hother := @memory_act (.command files .loadNext)
      (by simp [Action.name?, Action.command?, Command.name])
    refine ⟨(hother _).trans hmemory, ?_⟩
    rw [act_loadNext, read_mar_loadNext (by omega)]
    omega

/-- Values are deposited from an address on as long as there are words for them, and nothing else in
memory changes; MAR stops at the first address beyond memory. Loads from the same address on show
the values again, and fail and change nothing when memory has ended. -/
theorem deposit_examine (m : Machine) (files : FileTree) (a : Fin memorySize) (vs : List Int) :
    let filled := m.after (depositing files a.val vs)
    (∀ before v after, vs = before ++ v :: after →
      let ready := m.after (depositing files a.val before ++ [setting files "MBR".toList v])
      let o := ready.act (.command files .storeNext)
      (CommandOutcome.Succeeds o ↔ a.val + before.length < memorySize) ∧
        (memorySize ≤ a.val + before.length → CommandOutcome.Fails o ∧ o.machine = ready)) ∧
    (∀ i, (filled.memory.get i).toNat =
      (depositedAt? a vs i).elim (m.memory.get i).toNat (lowBits 16)) ∧
    filled.registers.read .mar = min (a.val + vs.length) memorySize ∧
    ∀ k,
      let reached := filled.after (examining files a.val k)
      let o := reached.act (.command files .loadNext)
      (∀ v, vs[k]? = some v → a.val + k < memorySize →
        CommandOutcome.Succeeds o ∧ o.machine.registers.read .mbr = lowBits 16 v) ∧
      (memorySize ≤ a.val + k → CommandOutcome.Fails o ∧ o.machine = reached) := by
  intro filled
  have hfilled := deposited_after m files a vs
  refine ⟨?_, fun i => ?_, hfilled.mar, fun k => ?_⟩
  · -- The value `v` is stored after the values `before` have been deposited.
    rintro before v after -
    have hready : m.after (depositing files a.val before ++ [setting files "MBR".toList v]) =
        (m.after (depositing files a.val before)).write .mbr v := by
      rw [after_append]
      exact act_setting_mbr _ files v
    simp only [hready, act_storeNext]
    obtain ⟨hsucceeds, hfails, -⟩ := (deposited_after m files a before).concat v
    exact ⟨hsucceeds, hfails⟩
  · rw [hfilled.word i]
    cases depositedAt? a vs i <;> rfl
  · obtain ⟨hmemory, hmar⟩ := after_examining filled files a k
    simp only [act_loadNext]
    constructor
    · intro v hv hlt
      rw [Nat.min_eq_left (Nat.le_of_lt hlt)] at hmar
      -- After `k` loads MAR is at word `k` of those that have been deposited.
      have hword : filled.memory.get ⟨a.val + k, hlt⟩ = BitVec.ofInt 16 v := by
        rw [hfilled.word, depositedAt?_add hlt, hv, Option.elim_some]
      refine ⟨(@loadNext_of_inMemory _ ⟨a.val + k, hlt⟩ hmar).1, ?_⟩
      rw [@read_mbr_loadNext _ ⟨a.val + k, hlt⟩ hmar, hmemory, hword]
      rfl
    · intro hle
      rw [Nat.min_eq_right hle] at hmar
      exact loadNext_of_beyond (Nat.le_of_eq hmar.symm)

/-- Three values at the last two words of memory. -/
theorem deposit_examine_at_end :
    let files : FileTree := ⟨[], []⟩
    let filled := powerOn.after (depositing files 2046 [7, -1, 5])
    filled.registers.read .mar = 2048 ∧
      (filled.memory.get ⟨2047, by decide⟩).toNat = 65535 ∧
      (filled.memory.get ⟨0, by decide⟩).toNat = 0 ∧
      CommandOutcome.Succeeds ((filled.after (examining files 2046 1)).loadNext) ∧
      CommandOutcome.Fails ((filled.after (examining files 2046 5)).loadNext) := by
  intro files filled
  obtain ⟨-, hword, hmar, hload⟩ := deposit_examine powerOn files ⟨2046, by decide⟩ [7, -1, 5]
  exact ⟨hmar, hword _, hword _, ((hload 1).1 (-1) rfl (by decide)).1,
    ((hload 5).2 (by decide)).1⟩

end Machine
end WordMachine
