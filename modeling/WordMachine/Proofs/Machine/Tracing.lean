import Mathlib.Logic.Function.Basic
import WordMachine.Proofs.Listing.Agreement
import WordMachine.Proofs.Machine.Running

namespace WordMachine

/-- What trace lines tell of: the registers that the operator may set, and the words of memory. -/
inductive Cell where
  | register (r : {r : Register // r ∈ Register.settable})
  | word (i : Fin memorySize)
deriving DecidableEq

theorem Register.length_name_le : ∀ r ∈ settable, r.name.toList.length ≤ 3 := by
  decide

namespace Cell

def memoryMark : Text := "memory[".toList

def name : Cell → Text
  | register r => r.val.name.toList
  | word i => memoryMark ++ Numeral.octalColumn i.val ++ [']']

def read? (name : Text) : Option Cell :=
  match Register.settable.attach.find? fun r => r.val.name.toList = name with
  | some r => some (register r)
  | none =>
    let digits := (name.drop memoryMark.length).take 6
    if name = memoryMark ++ digits ++ [']'] then
      (Numeral.columnNumber? digits).bind fun n => (Memory.index? n).map word
    else none

theorem read?_name (c : Cell) : read? c.name = some c := by
  cases c with
  | register r =>
    have hall : ∀ r ∈ Register.settable.attach, read? r.val.name.toList = some (register r) := by
      decide +kernel
    exact hall r (List.mem_attach _ r)
  | word i =>
    have hnone : Register.settable.attach.find? (fun r => r.val.name.toList = (word i).name) =
        none := by
      rw [List.find?_eq_none]
      intro r _ hr
      have hlength := Register.length_name_le r.val r.property
      rw [of_decide_eq_true hr] at hlength
      simp [name] at hlength
    have hdigits : ((word i).name.drop memoryMark.length).take 6 = Numeral.octalColumn i.val := by
      rw [name, List.append_assoc, List.drop_left,
        List.take_left' (Numeral.length_octalColumn _)]
    have hlt : i.val < 2048 := i.isLt
    rw [read?, hnone]
    simp only [hdigits, Numeral.columnNumber?_octalColumn (show i.val < 0o1000000 by omega),
      Option.bind_some, Memory.index?_val, Option.map_some]
    exact if_pos rfl

theorem name_ne_nil (c : Cell) : c.name ≠ [] := by
  have hnone : read? [] = none := by decide
  intro hnil
  rw [← hnil, read?_name] at hnone
  cases hnone

theorem isBlank_eq_false_of_mem_name {c : Cell} {d : Char} (h : d ∈ c.name) :
    Text.isBlank d = false := by
  cases c with
  | register r =>
    have hall : ∀ r ∈ Register.settable, r.name.toList.all (!Text.isBlank ·) = true := by decide
    exact Text.eq_false_of_all (hall r.val r.property) d h
  | word i =>
    rcases List.mem_append.1 h with h | h
    · rcases List.mem_append.1 h with h | h
      · exact Text.eq_false_of_all (t := memoryMark) (by decide) d h
      · exact Numeral.isBlank_eq_false_of_mem_octalColumn h
    · rw [List.mem_singleton.1 h]
      rfl

end Cell

def assignmentText (name value : Text) : Text :=
  [' ', ' ', ' ', ' '] ++ name ++ [' ', '<', '=', ' '] ++ value

/-- The cell that a line shows, and the value it shows of it. Other lines show nothing. -/
def assignment? (line : String) : Option (Cell × Nat) :=
  match Text.words line.toList with
  | [name, _, value] =>
    if line.toList = assignmentText name value then do
      let c ← Cell.read? name
      let v ← Numeral.columnNumber? value
      return (c, v)
    else none
  | _ => none

theorem words_assignmentText {name value : Text} (hname : name ≠ [])
    (hnames : ∀ d ∈ name, Text.isBlank d = false) (hvalue : value ≠ [])
    (hvalues : ∀ d ∈ value, Text.isBlank d = false) :
    Text.words (assignmentText name value) = [name, ['<', '='], value] := by
  have htext : assignmentText name value =
      ' ' :: ' ' :: ' ' :: ' ' :: (name ++ ' ' :: (['<', '='] ++ ' ' :: value)) := by
    simp [assignmentText]
  rw [htext, Text.words_cons_of_isBlank _ rfl, Text.words_cons_of_isBlank _ rfl,
    Text.words_cons_of_isBlank _ rfl, Text.words_cons_of_isBlank _ rfl,
    Text.words_append_cons _ hname hnames rfl,
    Text.words_append_cons _ (by decide) (Text.eq_false_of_all (by decide)) rfl,
    Text.words_of_forall hvalue hvalues]

theorem assignment?_of_toList {line : String} {c : Cell} {v : Nat}
    (h : line.toList = assignmentText c.name (Numeral.octalColumn v)) (hv : v < 0o1000000) :
    assignment? line = some (c, v) := by
  have hwords := words_assignmentText c.name_ne_nil (fun d hd => Cell.isBlank_eq_false_of_mem_name hd)
    (Numeral.octalColumn_ne_nil v) fun d hd => Numeral.isBlank_eq_false_of_mem_octalColumn hd
  rw [assignment?, h, hwords]
  simp only [if_true, Cell.read?_name, Numeral.columnNumber?_octalColumn hv]
  rfl

namespace TraceLine

theorem assignment?_register (r : {r : Register // r ∈ Register.settable}) {v : Nat}
    (hv : v < 0o1000000) : assignment? (register r.val v).text = some (.register r, v) := by
  refine assignment?_of_toList ?_ hv
  change ("    " ++ r.val.name ++ " <= " ++ String.ofList (Numeral.octalColumn v)).toList = _
  simp only [String.toList_append, String.toList_ofList]
  rfl

theorem assignment?_memory (i : Fin memorySize) {v : Nat} (hv : v < 0o1000000) :
    assignment? (memory i.val v).text = some (.word i, v) := by
  refine assignment?_of_toList ?_ hv
  change ("    memory[" ++ String.ofList (Numeral.octalColumn i.val) ++ "] <= " ++
    String.ofList (Numeral.octalColumn v)).toList = _
  simp only [String.toList_append, String.toList_ofList, assignmentText, Cell.name,
    List.append_assoc]
  rfl

/-- The line of an instruction starts with its number. -/
theorem assignment?_instruction (count address : Nat) (w : Word) (next : Nat) :
    assignment? (instruction count address w next).text = none := by
  have hhead : ∃ rest, (instruction count address w next).text.toList = '(' :: rest := by
    change ∃ rest, ("(" ++ toString count ++ ") " ++ column address ++ ": " ++ column w.toNat ++
      "  " ++ String.ofList (disassemble w.toNat) ++ " (PC*: " ++ column next ++ ")").toList = _
    simp only [String.toList_append, List.append_assoc]
    exact ⟨_, rfl⟩
  obtain ⟨rest, hrest⟩ := hhead
  unfold assignment?
  split
  · refine if_neg fun h => ?_
    rw [hrest] at h
    cases h
  · rfl

end TraceLine

abbrev Contents := Cell → Nat

/-- What the cells hold when lines have been read one after the other. -/
def replay (lines : List String) (contents : Contents) : Contents :=
  (lines.filterMap assignment?).foldl (fun held shown => Function.update held shown.1 shown.2)
    contents

theorem replay_append (lines lines' : List String) (contents : Contents) :
    replay (lines ++ lines') contents = replay lines' (replay lines contents) := by
  rw [replay, List.filterMap_append, List.foldl_append]
  rfl

theorem replay_singleton {line : String} {c : Cell} {v : Nat} (h : assignment? line = some (c, v))
    (contents : Contents) : replay [line] contents = Function.update contents c v := by
  rw [replay, List.filterMap_cons_some h]
  rfl

theorem replay_singleton_of_none {line : String} (h : assignment? line = none)
    (contents : Contents) : replay [line] contents = contents := by
  rw [replay, List.filterMap_cons_none h]
  rfl

theorem Register.mem_settable_of_isOpen {r : Register} (h : r.IsOpen) : r ∈ settable := by
  cases r with
  | general r => simp [settable, generals]
  | index x =>
    have hall : ∀ y : Fin 4, y.val ≠ 0 → index y ∈ settable := by decide
    exact hall x h
  | pc => decide
  | mar => decide
  | mbr => decide
  | _ => cases h

theorem Registers.read_lt (s : Registers) (r : Register) : s.read r < 2 ^ 16 := by
  cases r with
  | general r => exact BitVec.isLt _
  | index x => exact BitVec.isLt _
  | mbr => exact BitVec.isLt _
  | ir => exact BitVec.isLt _
  | pc => exact Nat.lt_trans s.pc.isLt (by decide)
  | mar => exact Nat.lt_trans s.mar.isLt (by decide)
  | cc => exact Nat.lt_trans s.cc.isLt (by decide)
  | mfr => exact Nat.lt_trans s.mfr.isLt (by decide)

namespace Machine

variable {m n : Machine} {w : Word}

def contents (m : Machine) : Contents
  | .register r => m.registers.read r.val
  | .word i => (m.memory.get i).toNat

theorem contents_write (m : Machine) (r : {r : Register // r ∈ Register.settable}) (v : Int) :
    (m.write r.val v).contents =
      Function.update m.contents (.register r) ((m.write r.val v).registers.read r.val) := by
  funext c
  by_cases hc : c = .register r
  · subst hc
    rw [Function.update_self]
    rfl
  · rw [Function.update_of_ne hc]
    cases c with
    | register q =>
      have hne : r.val ≠ q.val := fun e => hc (congrArg Cell.register (Subtype.ext e.symm))
      exact Registers.read_write_of_ne m.registers v hne
    | word i => rfl

theorem contents_write_of_not_mem {r : Register} (hr : r ∉ Register.settable) (v : Int) :
    (m.write r v).contents = m.contents := by
  funext c
  cases c with
  | register q =>
    have hne : r ≠ q.val := by
      rintro rfl
      exact hr q.property
    exact Registers.read_write_of_ne m.registers v hne
  | word i => rfl

theorem contents_set (m : Machine) (i : Fin memorySize) (w : Word) :
    ({ m with memory := m.memory.set i w } : Machine).contents =
      Function.update m.contents (.word i) w.toNat := by
  funext c
  cases c with
  | register r =>
    have hne : Cell.register r ≠ Cell.word i := nofun
    rw [Function.update_of_ne hne]
    rfl
  | word j =>
    by_cases hj : i = j
    · subst hj
      rw [Function.update_self, contents, Memory.get_set, if_pos rfl]
    · have hne : Cell.word j ≠ Cell.word i := fun e => hj (Cell.word.inj e).symm
      rw [Function.update_of_ne hne, contents, Memory.get_set, if_neg hj]
      rfl

theorem shown_of_debug (h : m.debug = true) (trace : List TraceLine) : m.shown trace = trace :=
  if_pos h

/-- Reading the lines of a trace turns what the first machine holds into what the second holds. -/
structure Accounts (m : Machine) (trace : List TraceLine) (n : Machine) : Prop where
  debug : n.debug = m.debug
  replayed : replay (trace.map TraceLine.text) m.contents = n.contents

namespace Accounts

variable {trace trace' : List TraceLine}

theorem trans {k : Machine} (h : Accounts m trace n) (h' : Accounts n trace' k) :
    Accounts m (trace ++ trace') k where
  debug := h'.debug.trans h.debug
  replayed := by rw [List.map_append, replay_append, h.replayed, h'.replayed]

theorem silent (hdebug : n.debug = m.debug) (hcontents : n.contents = m.contents) :
    Accounts m [] n :=
  ⟨hdebug, hcontents.symm⟩

theorem refl (m : Machine) : Accounts m [] m := silent rfl rfl

theorem write (m : Machine) {r : Register} (hr : r ∈ Register.settable) (v : Int) :
    Accounts m [(m.write r v).writeLine r] (m.write r v) where
  debug := rfl
  replayed := by
    have hlt := Nat.lt_trans ((m.write r v).registers.read_lt r) (by decide : 2 ^ 16 < 0o1000000)
    rw [List.map_singleton, writeLine, replay_singleton (TraceLine.assignment?_register ⟨r, hr⟩ hlt),
      contents_write m ⟨r, hr⟩]

theorem hidden (m : Machine) {r : Register} (hr : r ∉ Register.settable) (v : Int) :
    Accounts m [] (m.write r v) :=
  silent rfl (contents_write_of_not_mem hr v)

theorem fault (m : Machine) (code : FaultCode) : Accounts m [] (m.fault code) :=
  silent rfl (contents_write_of_not_mem (r := .mfr) (by decide) _)

theorem fetch (m : Machine) (address : Nat) (w : Word) :
    Accounts m ((m.fetch w).fetchTrace address w) (m.fetch w) := by
  have hmar := write m (r := .mar) (by decide) m.registers.pc.toNat
  have hmbr := hmar.trans (write _ (r := .mbr) (by decide) w.toNat)
  have hir := hmbr.trans (hidden _ (r := .ir) (by decide) w.toNat)
  have hpc := hir.trans (write _ (r := .pc) (by decide) (m.registers.pc.toNat + 1))
  have hline : Accounts (m.fetch w)
      [.instruction (m.fetch w).instructionCount address w (m.fetch w).registers.pc.toNat]
      (m.fetch w) :=
    ⟨rfl, replay_singleton_of_none (TraceLine.assignment?_instruction _ _ _ _) _⟩
  exact (hpc.trans (silent (n := m.fetch w) rfl rfl)).trans hline

theorem perform (m : Machine) {e : Effect}
    (hopen : ∀ r v, e.assignment? = some (r, v) → r.IsOpen) :
    Accounts m ((m.perform e).performTrace e) (m.perform e) := by
  obtain ⟨message, address?, assignment?, halts⟩ := e
  cases assignment? with
  | none => cases halts <;> exact silent rfl rfl
  | some assignment =>
    obtain ⟨r, v⟩ := assignment
    have hwrite := write m (Register.mem_settable_of_isOpen (hopen r v rfl)) v
    cases halts with
    | false => exact hwrite
    | true => exact hwrite.trans (silent rfl rfl)

variable (h : m.debug = true)
include h

theorem executeFetched (address : Nat) (w : Word) :
    Accounts m (m.executeFetched address w).trace (m.executeFetched address w).machine := by
  have hfetch := fetch m address w
  unfold Machine.executeFetched
  simp only
  split
  · next e he =>
    rw [shown_of_debug h]
    exact hfetch.trans (perform _ (effect_eq_ok he).2)
  · next f he =>
    rw [shown_of_debug h, ← List.append_nil ((m.fetch w).fetchTrace address w)]
    exact hfetch.trans (fault _ f.code)

/-- A step traces all that it writes, also when it faults. -/
theorem step : Accounts m m.step.trace m.step.machine := by
  unfold Machine.step
  simp only
  split
  · exact refl m
  · split
    · exact executeFetched h _ _
    · rw [shown_of_debug h]
      exact (write m (r := .mar) (by decide) _).trans (fault _ .addressRange)

theorem traceOf (k : Nat) : Accounts m (m.traceOf k) (next^[k] m) := by
  induction k with
  | zero => exact refl m
  | succ k ih =>
    have hone : (next^[k] m).traceOf 1 = (next^[k] m).step.trace := by simp [Machine.traceOf]
    rw [traceOf_add, hone, Function.iterate_succ_apply']
    exact ih.trans (step (ih.debug.trans h))

theorem run (k : Int) : Accounts m (m.run k).trace (m.run k).machine := by
  rw [trace_run, machine_run]
  exact traceOf h _

end Accounts
end Machine
end WordMachine
