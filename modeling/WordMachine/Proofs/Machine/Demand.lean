import WordMachine.Proofs.Machine.Execution

namespace WordMachine

/-- What an instruction asks for. -/
inductive Demand where
  | halt
  | assign (r : Register) (v : Nat)
  | jump (address : Nat)
  | pass
  | fault (code : FaultCode)
deriving DecidableEq

namespace Demand

def written? : Demand → Register → Option Nat
  | assign r v, q => if r = q then some v else none
  | jump address, .pc => some address
  | fault code, .mfr => some code.value
  | _, _ => none

def state : Demand → ControlState
  | halt => .halted
  | fault _ => .faulted
  | _ => .ready

def Fits : Demand → Prop
  | assign r v => v < Nat.pow 2 r.width
  | jump address => address < Nat.pow 2 Register.pc.width
  | _ => True

/-- How an instruction that asks for this is carried out. -/
inductive Answers : Demand → Except Fault Effect → Prop
  | halt {e : Effect} (ha : e.assignment? = none) (hh : e.halts = true) : Answers halt (.ok e)
  | assign {e : Effect} {r : Register} {v : Nat} (ha : e.assignment? = some (r, v))
    (hh : e.halts = false) : Answers (assign r v) (.ok e)
  | jump {e : Effect} {address : Nat} (ha : e.assignment? = some (.pc, address))
    (hh : e.halts = false) : Answers (jump address) (.ok e)
  | pass {e : Effect} (ha : e.assignment? = none) (hh : e.halts = false) : Answers pass (.ok e)
  | fault {cause : Cause} {code : FaultCode} : Answers (fault code) (.error ⟨cause, code⟩)

end Demand

theorem Memory.read_eq (memory : Memory) (a : Int) :
    memory.read a = match index? a with
      | some i => .ok (memory.get i)
      | none => .error (.memoryRange a) := by
  unfold read inRange
  cases index? a <;> rfl

namespace Machine

/-- The effective address: the address field and the index register modulo 4096, or with
indirection the word found there, modulo 4096 again. There is none if one of these addresses is
beyond memory. -/
def target? (m : Machine) (f : Fields) (indexed : Bool) : Option (Fin memorySize) :=
  let offset := if indexed ∧ f.ix.val ≠ 0 then m.registers.read (.index f.ix) else 0
  let direct := Memory.index? ((f.address.val + offset) % 4096 : Nat)
  -- The word that is found is an address of 12 bits.
  if f.indirect then direct.bind fun i => Memory.index? ((m.memory.get i).toNat % 4096 : Nat)
  else direct

def withTarget (m : Machine) (f : Fields) (indexed : Bool) (use : Fin memorySize → Demand) :
    Demand :=
  match m.target? f indexed with
  | some ea => use ea
  | none => .fault .addressRange

def demand (m : Machine) (f : Fields) : Mnemonic → Demand
  | .hlt => .halt
  | .ldr => m.withTarget f true fun ea => .assign (.general f.r) (m.memory.get ea).toNat
  | .lda => m.withTarget f true fun ea => .assign (.general f.r) ea
  | .jz => m.withTarget f true fun ea =>
    if m.registers.read (.general f.r) = 0 then .jump ea else .pass
  | .ldx =>
    -- The index register is the one that is loaded, so it is not added to the address.
    if f.ix.val = 0 then .fault .illegalOperation
    else m.withTarget f false fun ea => .assign (.index f.ix) (m.memory.get ea).toNat
  | _ => .fault .illegalOperation

/-- The second machine is the first one after it has done what is asked: the program counter has
moved on, and what is not written is as it was. -/
structure Meets (m m' : Machine) (d : Demand) : Prop where
  memory : m'.memory = m.memory
  general (r : Fin 4) : m'.registers.read (.general r) =
    (d.written? (.general r)).getD (m.registers.read (.general r))
  index (x : Fin 4) : m'.registers.read (.index x) =
    (d.written? (.index x)).getD (m.registers.read (.index x))
  pc : m'.registers.read .pc = (d.written? .pc).getD (m.registers.read .pc + 1)
  mfr : m'.registers.read .mfr = (d.written? .mfr).getD (m.registers.read .mfr)
  state : m'.state = d.state

variable {m : Machine} {f : Fields}

theorem fits_withTarget {indexed : Bool} {use : Fin memorySize → Demand} (h : ∀ ea, (use ea).Fits) :
    (m.withTarget f indexed use).Fits := by
  unfold withTarget
  split
  · exact h _
  · trivial

theorem fits_demand (m : Machine) (f : Fields) (op : Mnemonic) : (m.demand f op).Fits := by
  have hmemory (ea : Fin memorySize) : ea.val < 2048 := ea.isLt
  cases op with
  | ldr => exact fits_withTarget fun ea => BitVec.isLt _
  | lda =>
    apply fits_withTarget
    intro ea
    exact Nat.lt_trans (hmemory ea) (show 2048 < Nat.pow 2 16 by decide)
  | jz =>
    refine fits_withTarget fun ea => ?_
    split
    · exact Nat.lt_trans (hmemory ea) (show 2048 < Nat.pow 2 12 by decide)
    · trivial
  | ldx =>
    rw [demand]
    split
    · trivial
    · exact fits_withTarget fun ea => BitVec.isLt _
  | _ => trivial

/-- The effective address is the target, and there is a fault exactly if there is no target. -/
theorem effectiveAddress_toOption (m : Machine) (f : Fields) (indexed : Bool) :
    (m.effectiveAddress f indexed).toOption = m.target? f indexed := by
  unfold effectiveAddress target? indexedAddress
  simp only
  generalize (f.address.val + if indexed = true ∧ f.ix.val ≠ 0 then m.registers.read (.index f.ix)
    else 0) % 4096 = a
  cases hi : f.indirect with
  | false =>
    cases ha : Memory.index? (a : Int) <;> simp [ha, bind, Except.bind, Except.toOption]
  | true =>
    cases ha : Memory.index? (a : Int) with
    | none =>
      simp only [if_true, Memory.read_eq, ha]
      rfl
    | some i =>
      simp only [if_true, Memory.read_eq, ha, Option.bind_some, Functor.map, Except.map, bind,
        Except.bind]
      cases Memory.index? ((m.memory.get i).toNat % 4096 : Nat) with
      | none => rfl
      | some j => rfl

theorem answers_addressing {indexed : Bool} {use : Fin memorySize → Demand}
    {effect : Fin memorySize → Effect} (h : ∀ ea, (use ea).Answers (.ok (effect ea))) :
    (m.withTarget f indexed use).Answers (m.addressing f indexed effect) := by
  have ht := effectiveAddress_toOption m f indexed
  unfold withTarget addressing
  cases ha : m.effectiveAddress f indexed with
  | ok ea =>
    rw [ha] at ht
    rw [← ht]
    exact h ea
  | error cause =>
    rw [ha] at ht
    rw [← ht]
    exact .fault

/-- The word of an instruction is carried out as the instruction asks. -/
theorem answers_effect {op : Mnemonic} (hop : f.opcode.val = op.code) :
    (m.demand f op).Answers (m.effect f.word) := by
  have hmnemonic : f.mnemonic? = some op := Fields.mnemonic?_eq_some_iff.2 hop
  unfold effect
  simp only [Fields.ofWord_word, hmnemonic]
  cases op with
  | hlt => exact .halt rfl rfl
  | ldr => exact answers_addressing fun ea => .assign rfl rfl
  | lda => exact answers_addressing fun ea => .assign rfl rfl
  | jz =>
    refine answers_addressing fun ea => ?_
    unfold jumpEffect
    split
    · exact .jump rfl rfl
    · exact .pass rfl rfl
  | ldx =>
    simp only [demand]
    split
    · exact .fault
    · exact answers_addressing fun ea => .assign rfl rfl
  | _ => exact .fault

theorem demand_fetch (m : Machine) (w : Word) (f : Fields) (op : Mnemonic) :
    (m.fetch w).demand f op = m.demand f op := by
  have htarget (indexed : Bool) : (m.fetch w).target? f indexed = m.target? f indexed := by
    simp only [target?, read_fetch]
    rfl
  have hmemory : (m.fetch w).memory = m.memory := rfl
  cases op <;> simp only [demand, withTarget, htarget, hmemory, read_fetch]

theorem read_write_of_lt (m : Machine) {r : Register} {v : Nat} (h : v < Nat.pow 2 r.width)
    (q : Register) : (m.write r v).registers.read q = if r = q then v else m.registers.read q := by
  split
  · next e =>
    subst e
    refine (Registers.read_write_self m.registers r v).trans ?_
    rw [lowBits, BitVec.ofInt_natCast, BitVec.toNat_ofNat]
    exact Nat.mod_eq_of_lt h
  · next hne => exact Registers.read_write_of_ne m.registers v hne

namespace Meets

variable {n : Machine} {w : Word}

theorem fetch (hready : m.state = .ready) (hpc : m.registers.read .pc < memorySize) :
    Meets m (m.fetch w) .pass where
  memory := rfl
  general r := read_fetch m w (.general r)
  index x := read_fetch m w (.index x)
  pc := by
    have hlt : m.registers.read .pc < 2048 := hpc
    rw [read_fetch]
    exact Nat.mod_eq_of_lt (by omega)
  mfr := read_fetch m w .mfr
  state := hready

theorem halt (h : Meets m n .pass) : Meets m { n with state := .halted } .halt :=
  ⟨h.memory, h.general, h.index, h.pc, h.mfr, rfl⟩

theorem fault (h : Meets m n .pass) (code : FaultCode) : Meets m (n.fault code) (.fault code) where
  memory := h.memory
  general r := (read_fault_of_ne n code (r := .general r) nofun).trans (h.general r)
  index x := (read_fault_of_ne n code (r := .index x) nofun).trans (h.index x)
  pc := (read_fault_of_ne n code (r := .pc) nofun).trans h.pc
  mfr := read_fault_mfr n code
  state := rfl

theorem assign (h : Meets m n .pass) {r : Register} {v : Nat} (hv : v < Nat.pow 2 r.width) :
    Meets m (n.write r v) (.assign r v) := by
  have hread {q : Register} {u : Nat} (hq : n.registers.read q = u) :
      (n.write r v).registers.read q = ((Demand.assign r v).written? q).getD u := by
    rw [read_write_of_lt n hv, Demand.written?]
    split
    · rfl
    · exact hq
  exact ⟨h.memory, fun r => hread (h.general r), fun x => hread (h.index x), hread h.pc,
    hread h.mfr, h.state⟩

theorem jump (h : Meets m n .pass) {address : Nat} (hv : address < Nat.pow 2 Register.pc.width) :
    Meets m (n.write .pc address) (.jump address) :=
  have ha := h.assign hv
  ⟨h.memory, ha.general, ha.index, ha.pc, ha.mfr, h.state⟩

theorem executeFetched {d : Demand} (h : Meets m (m.fetch w) .pass)
    (ha : d.Answers ((m.fetch w).effect w)) (hfits : d.Fits) (address : Nat) :
    Meets m (m.executeFetched address w).machine d := by
  cases he : (m.fetch w).effect w with
  | error fault =>
    rw [machine_executeFetched_error he]
    rw [he] at ha
    cases ha
    exact h.fault _
  | ok e =>
    rw [machine_executeFetched_ok he]
    rw [he] at ha
    cases ha with
    | halt hwrite hhalts =>
      simp only [perform, hwrite, hhalts, if_true]
      exact h.halt
    | assign hwrite hhalts =>
      simp only [perform, hwrite, hhalts, Bool.false_eq_true, if_false]
      exact h.assign hfits
    | jump hwrite hhalts =>
      simp only [perform, hwrite, hhalts, Bool.false_eq_true, if_false]
      exact h.jump hfits
    | pass hwrite hhalts =>
      simp only [perform, hwrite, hhalts, Bool.false_eq_true, if_false]
      exact h

/-- A step does what the instruction at PC asks. -/
theorem step {op : Mnemonic} {a : Fin memorySize} (hready : m.state = .ready)
    (hpc : m.registers.read .pc = a) (hword : m.memory.get a = f.word)
    (hop : f.opcode.val = op.code) : Meets m m.step.machine (m.demand f op) := by
  have hindex : Memory.index? (m.registers.pc.toNat : Int) = some a :=
    Memory.index?_eq_some_iff.2 (congrArg Int.ofNat hpc)
  have hstep : m.step = m.executeFetched m.registers.pc.toNat f.word := by
    simp [Machine.step, isReady, hready, hindex, hword]
  have hfetch : Meets m (m.fetch f.word) .pass := fetch hready (hpc ▸ a.isLt)
  have ha := answers_effect (m := m.fetch f.word) hop
  rw [demand_fetch] at ha
  rw [hstep]
  exact hfetch.executeFetched ha (fits_demand m f op) _

end Meets
end Machine
end WordMachine
