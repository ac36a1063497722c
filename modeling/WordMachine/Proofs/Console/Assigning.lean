import WordMachine.Proofs.Console.Naming
import WordMachine.Proofs.Instruction.Fields

namespace WordMachine

/-- The number that a line sets a register to: the line has three words, of which the second is the
name of the register, in any case, and the third is the number. -/
def setTo? (r : Register) (line : Text) : Option Int :=
  match Text.words line with
  | [_, target, value] =>
    if Text.upper target = r.name.toList then (Numeral.readNumber value).toOption else none
  | _ => none

namespace Register

theorem eq_of_name {q r : Register} (hq : q ∈ settable) (hr : r ∈ settable)
    (h : q.name.toList = r.name.toList) : q = r := by
  have hall : ∀ q ∈ settable, ∀ r ∈ settable, q.name.toList = r.name.toList → q = r := by decide
  exact hall q hq r hr h

theorem settable?_eq_some_iff {target : Text} {r : Register} :
    settable? target = some r ↔ r ∈ settable ∧ Text.upper target = r.name.toList := by
  have hsound {q : Register} (h : settable? target = some q) :
      q ∈ settable ∧ Text.upper target = q.name.toList := by
    have hname := List.find?_some h
    exact ⟨List.mem_of_find?_eq_some h, (of_decide_eq_true hname).symm⟩
  refine ⟨hsound, fun ⟨hr, hname⟩ => ?_⟩
  obtain ⟨q, hq⟩ : ∃ q, settable? target = some q := by
    rw [← Option.isSome_iff_exists, settable?, List.find?_isSome]
    exact ⟨r, hr, decide_eq_true hname.symm⟩
  obtain ⟨hmem, hqname⟩ := hsound hq
  rw [hq, eq_of_name hmem hr (hqname.symm.trans hname)]

end Register

section Lines

variable {line word target value : Text} {r : Register} {v : Int}

theorem setTo?_of_words (h : Text.words line = [word, target, value]) (r : Register) :
    setTo? r line = if Text.upper target = r.name.toList then (Numeral.readNumber value).toOption
      else none := by
  rw [setTo?, h]

theorem exists_words_of_setTo? (h : setTo? r line = some v) :
    ∃ word target value, Text.words line = [word, target, value] ∧
      Text.upper target = r.name.toList ∧ Numeral.readNumber value = .ok v := by
  unfold setTo? at h
  split at h
  · next word target value hwords =>
    split at h
    · next hname => exact ⟨word, target, value, hwords, hname, toOption_eq_some.1 h⟩
    · cases h
  · cases h

theorem eq_of_setTo? {q : Register} {u : Int} (hq : q ∈ Register.settable)
    (hr : r ∈ Register.settable) (hu : setTo? q line = some u) (hv : setTo? r line = some v) :
    q = r := by
  obtain ⟨_, target, value, hwords, hqname, -⟩ := exists_words_of_setTo? hu
  obtain ⟨_, target', value', hwords', hrname, -⟩ := exists_words_of_setTo? hv
  rw [hwords] at hwords'
  cases hwords'
  exact Register.eq_of_name hq hr (hqname.symm.trans hrname)

namespace Command

theorem read_set_eq_ok_iff (h : CommandName.ofLine? line = some .set) {c : Command} :
    read line = .ok c ↔ ∃ word target value, Text.words line = [word, target, value] ∧
      c = .set target (.token value) := by
  rw [read_of_ofLine? h, argumentsOf_of_ne_ipl (by decide)]
  cases hwords : Text.words line with
  | nil => simp [CommandName.ofLine?, hwords] at h
  | cons word words =>
    rw [List.tail_cons]
    match words with
    | [target, value] => simp [ofArguments?, eq_comm]
    | [] => simp [ofArguments?]
    | [_] => simp [ofArguments?]
    | _ :: _ :: _ :: _ => simp [ofArguments?]

end Command
end Lines

namespace Machine

theorem fails_setRegister (m : Machine) {target : Text} {value : NumberArgument}
    (h : Register.settable? target = none ∨ ∃ cause, value.value = .error cause) :
    CommandOutcome.Fails (m.setRegister target value) ∧
      (m.setRegister target value).machine = m := by
  have hrefused (cause : Cause) (h : m.setRegister target value = m.refuse "set" cause) :
      CommandOutcome.Fails (m.setRegister target value) ∧
        (m.setRegister target value).machine = m := by
    have hanswers := answers_setRegister m target value
    rw [h] at hanswers ⊢
    exact ⟨fails_refuse hanswers, rfl⟩
  cases hr : Register.settable? target with
  | none => exact hrefused (.unknownRegister target) (by simp only [setRegister, hr])
  | some r =>
    obtain ⟨cause, hcause⟩ := h.resolve_left (by simp [hr])
    exact hrefused cause (by simp only [setRegister, hr, hcause])

theorem succeeds_setRegister (m : Machine) {target : Text} {value : NumberArgument} {r : Register}
    {v : Int} (hr : Register.settable? target = some r) (hv : value.value = .ok v) :
    CommandOutcome.Succeeds (m.setRegister target value) ∧
      (m.setRegister target value).machine = m.write r v := by
  simp only [setRegister, hr, hv]
  exact ⟨⟨_, rfl, rfl⟩, trivial⟩

section Lines

variable {line : Text} (h : CommandName.ofLine? line = some .set)

include h

theorem execute_of_setTo? (m : Machine) (files : FileTree) {r : Register} {v : Int}
    (hr : r ∈ Register.settable) (hv : setTo? r line = some v) :
    CommandOutcome.Succeeds (m.execute files line) ∧
      (m.execute files line).machine = m.write r v := by
  obtain ⟨word, target, value, hwords, hname, hvalue⟩ := exists_words_of_setTo? hv
  have hread := (Command.read_set_eq_ok_iff h).2 ⟨word, target, value, hwords, rfl⟩
  rw [execute, hread]
  refine succeeds_setRegister m (Register.settable?_eq_some_iff.2 ⟨hr, hname⟩) ?_
  rw [NumberArgument.value, hvalue]
  rfl

theorem execute_of_setTo?_eq_none (m : Machine) (files : FileTree)
    (hnone : ∀ r ∈ Register.settable, setTo? r line = none) :
    CommandOutcome.Fails (m.execute files line) ∧ (m.execute files line).machine = m := by
  cases hread : Command.read line with
  | error refusal =>
    rw [execute, hread]
    exact ⟨⟨_, rfl, rfl⟩, rfl⟩
  | ok c =>
    obtain ⟨word, target, value, hwords, rfl⟩ := (Command.read_set_eq_ok_iff h).1 hread
    rw [execute, hread]
    apply fails_setRegister
    cases hr : Register.settable? target with
    | none => exact .inl rfl
    | some r =>
      -- The line names a register, so it gives no number.
      obtain ⟨hmem, hname⟩ := Register.settable?_eq_some_iff.1 hr
      have hvalue := hnone r hmem
      rw [setTo?_of_words hwords, if_pos hname] at hvalue
      obtain ⟨e, he⟩ := toOption_eq_none.1 hvalue
      refine .inr ⟨.badNumber value, ?_⟩
      rw [NumberArgument.value, he]
      rfl

theorem execute_set_cases (m : Machine) (files : FileTree) :
    (∃ r ∈ Register.settable, ∃ v, setTo? r line = some v ∧
      CommandOutcome.Succeeds (m.execute files line) ∧
      (m.execute files line).machine = m.write r v) ∨
    (∀ r ∈ Register.settable, setTo? r line = none) ∧
      CommandOutcome.Fails (m.execute files line) ∧ (m.execute files line).machine = m := by
  by_cases hset : ∃ r ∈ Register.settable, ∃ v, setTo? r line = some v
  · obtain ⟨r, hr, v, hv⟩ := hset
    exact .inl ⟨r, hr, v, hv, execute_of_setTo? h m files hr hv⟩
  · have hnone : ∀ r ∈ Register.settable, setTo? r line = none := fun r hr =>
      Option.eq_none_iff_forall_ne_some.2 fun v hv => hset ⟨r, hr, v, hv⟩
    exact .inr ⟨hnone, execute_of_setTo?_eq_none h m files hnone⟩

/-- A line of `set` leaves in a register the number that it sets it to, or what was there. -/
theorem read_execute_set (m : Machine) (files : FileTree) {r : Register}
    (hr : r ∈ Register.settable) :
    ((m.execute files line).machine.registers.read r : Int) =
      (setTo? r line).elim (m.registers.read r : Int) (· % 2 ^ r.width) := by
  rcases execute_set_cases h m files with ⟨q, hq, u, hu, -, hmachine⟩ | ⟨hnone, -, hmachine⟩
  · rw [hmachine]
    by_cases hqr : q = r
    · subst hqr
      rw [hu, Option.elim_some, ← lowBits_eq_emod]
      exact congrArg Nat.cast (Registers.read_write_self m.registers q u)
    · have hnone : setTo? r line = none := Option.eq_none_iff_forall_ne_some.2 fun v hv =>
        hqr (eq_of_setTo? hq hr hu hv)
      rw [hnone, Option.elim_none]
      exact congrArg Nat.cast (Registers.read_write_of_ne m.registers u hqr)
  · rw [hmachine, hnone r hr, Option.elim_none]

theorem adjusted_execute_set (m : Machine) (files : FileTree) :
    Adjusted False m (m.execute files line).machine := by
  rcases execute_set_cases h m files with ⟨r, hr, v, -, -, hmachine⟩ | ⟨-, -, hmachine⟩
  · rw [hmachine]
    exact .write m (Register.isOpen_of_mem_settable hr) v
  · rw [hmachine]
    exact .refl m

end Lines

def lastSetTo? (r : Register) (lines : List Text) : Option Int :=
  (lines.filterMap (setTo? r)).getLast?

theorem lastSetTo?_cons (r : Register) (line : Text) (lines : List Text) :
    lastSetTo? r (line :: lines) = (lastSetTo? r lines).or (setTo? r line) := by
  unfold lastSetTo?
  cases hline : setTo? r line with
  | none => simp [hline]
  | some v => cases hlast : (lines.filterMap (setTo? r)).getLast? <;>
      simp [hline, List.getLast?_cons, hlast]

section Lines

variable {lines : List Text} (h : ∀ line ∈ lines, CommandName.ofLine? line = some .set)

include h

theorem read_after_set (m : Machine) (files : FileTree) {r : Register}
    (hr : r ∈ Register.settable) :
    ((m.after (lines.map (.line files))).registers.read r : Int) =
      (lastSetTo? r lines).elim (m.registers.read r : Int) (· % 2 ^ r.width) := by
  induction lines generalizing m with
  | nil => rfl
  | cons line lines ih =>
    obtain ⟨hline, hlines⟩ := List.forall_mem_cons.1 h
    have hrest := ih hlines (m.execute files line).machine
    rw [read_execute_set hline m files hr] at hrest
    rw [lastSetTo?_cons]
    refine hrest.trans ?_
    cases lastSetTo? r lines <;> rfl

theorem adjusted_after_set (m : Machine) (files : FileTree) :
    Adjusted False m (m.after (lines.map (.line files))) := by
  induction lines generalizing m with
  | nil => exact .refl m
  | cons line lines ih =>
    obtain ⟨hline, hlines⟩ := List.forall_mem_cons.1 h
    exact (adjusted_execute_set hline m files).trans (ih hlines _)

/-- After lines of `set` each register that the operator may set has the low bits of the number that
the last line to name it with a number has given, or what it had if there is none. A line that sets
nothing fails and changes nothing, and no line changes memory, the other registers, the state or the
count of instructions. -/
theorem set_assigns (m : Machine) (files : FileTree) :
    let n := m.after (lines.map (.line files))
    (∀ r ∈ Register.settable, (n.registers.read r : Int) =
      (lastSetTo? r lines).elim (m.registers.read r : Int) (· % 2 ^ r.width)) ∧
    (∀ line ∈ lines, ∀ k : Machine,
      (CommandOutcome.Succeeds (k.execute files line) ↔
        ∃ r ∈ Register.settable, ∃ v, setTo? r line = some v) ∧
      (¬ CommandOutcome.Succeeds (k.execute files line) →
        CommandOutcome.Fails (k.execute files line) ∧ (k.execute files line).machine = k)) ∧
    n.memory = m.memory ∧ (∀ r ∈ [Register.ir, .cc, .mfr], n.registers.read r = m.registers.read r) ∧
    n.state = m.state ∧ n.instructionCount = m.instructionCount := by
  intro n
  have hadjusted : Adjusted False m n := adjusted_after_set h m files
  refine ⟨fun r hr => read_after_set h m files hr, fun line hline k => ?_, hadjusted.memory id,
    fun r hr => hadjusted.closed r ?_, hadjusted.state, hadjusted.instructionCount⟩
  · rcases execute_set_cases (h line hline) k files with
      ⟨r, hr, v, hv, hsucceeds, -⟩ | ⟨hnone, hfails⟩
    · exact ⟨iff_of_true hsucceeds ⟨r, hr, v, hv⟩, absurd hsucceeds⟩
    · refine ⟨iff_of_false (not_succeeds_of_fails hfails.1) ?_, fun _ => hfails⟩
      rintro ⟨r, hr, v, hv⟩
      rw [hnone r hr] at hv
      cases hv
  · have hclosed : ∀ q ∈ [Register.ir, .cc, .mfr], ¬ q.IsOpen := by simp [Register.IsOpen]
    exact hclosed r hr

end Lines

def settingLines : List Text :=
  ["set r1 0x12345", "SET mar -1", "set R1 banana", "set X0 7", "set pc 010", "set R1 9 9"].map
    String.toList

theorem settingLines_assign :
    (∀ line ∈ settingLines, CommandName.ofLine? line = some .set) ∧
      let n := powerOn.after (settingLines.map (.line ⟨[], []⟩))
      n.registers.read (.general 1) = 0x2345 ∧ n.registers.read .mar = 4095 ∧
        n.registers.read .pc = 8 ∧ n.registers.read .mbr = 0 := by
  have hlines : ∀ line ∈ settingLines, CommandName.ofLine? line = some .set := by decide
  obtain ⟨hread, -⟩ := set_assigns hlines powerOn ⟨[], []⟩
  have hgeneral := hread (.general 1) (by decide)
  have hmar := hread .mar (by decide)
  have hpc := hread .pc (by decide)
  have hmbr := hread .mbr (by decide)
  exact ⟨hlines, Int.ofNat_inj.1 hgeneral, Int.ofNat_inj.1 hmar, Int.ofNat_inj.1 hpc,
    Int.ofNat_inj.1 hmbr⟩

end Machine
end WordMachine
