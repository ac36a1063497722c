import WordMachine.Proofs.Console.Stopping

namespace WordMachine

/-- What an action is to memory: a word is stored, or all words are replaced. -/
inductive MemoryEvent where
  | stored (address : Nat) (word : Word)
  | replaced (left : Memory)

namespace MemoryEvent

def concerns (a : Fin memorySize) : MemoryEvent → Bool
  | stored address _ => address = a.val
  | replaced _ => true

def word (a : Fin memorySize) : MemoryEvent → Word
  | stored _ word => word
  | replaced left => left.get a

end MemoryEvent

def CommandOutcome.isSuccess (o : CommandOutcome) : Bool :=
  match o.answer with
  | .ok s => s.ok
  | .error _ => false

theorem Memory.write_eq (memory : Memory) (a v : Int) :
    memory.write a v = match index? a with
      | some i => .ok (memory.set i (BitVec.ofInt 16 v))
      | none => .error (.memoryRange a) := by
  unfold write inRange
  cases index? a <;> rfl

namespace Machine

/-- What an action is to the memory of a machine. A store that succeeds puts MBR at MAR; a reset
leaves zeros, and so does an `ipl` that fails. -/
def memoryEvent? (m : Machine) (action : Action) : Option MemoryEvent :=
  let o := m.act action
  match action.name? with
  | some .store | some .storeNext =>
    if CommandOutcome.isSuccess o then some (.stored m.registers.mar.toNat m.registers.mbr)
    else none
  | some .reset => some (.replaced .zero)
  | some .ipl =>
    some (.replaced (if CommandOutcome.isSuccess o then o.machine.memory else .zero))
  | _ => none

def memoryEvents (m : Machine) : List Action → List MemoryEvent
  | [] => []
  | action :: actions =>
    (m.memoryEvent? action).toList ++ (m.act action).machine.memoryEvents actions

theorem thenAdvance_memory (o : CommandOutcome) (command : String) (touched : List String) :
    (thenAdvance o command touched).machine.memory = o.machine.memory ∧
      CommandOutcome.isSuccess (thenAdvance o command touched) = CommandOutcome.isSuccess o := by
  unfold thenAdvance
  split
  · next s hs =>
    split
    · exact ⟨rfl, by simp [andWrite, CommandOutcome.isSuccess, hs]⟩
    · exact ⟨rfl, rfl⟩
  · exact ⟨rfl, rfl⟩

theorem isSuccess_refuse (m : Machine) (command : String) (cause : Cause) :
    CommandOutcome.isSuccess (m.refuse command cause) = false := by
  unfold CommandOutcome.isSuccess
  split
  · next s hs =>
    have hs : Status.ofFailure command (.ofCause cause) = .ok s := hs
    exact (Status.ofFailure_eq_ok hs).1
  · rfl

theorem get_store (m : Machine) (a : Fin memorySize) :
    m.store.machine.memory.get a =
      if CommandOutcome.isSuccess m.store ∧ m.registers.mar.toNat = a.val then m.registers.mbr
      else m.memory.get a := by
  have hwrite := m.memory.write_eq m.registers.mar.toNat m.registers.mbr.toNat
  cases hi : Memory.index? m.registers.mar.toNat with
  | none =>
    rw [hi] at hwrite
    have hstore : m.store = m.refuse "store" (.memoryRange m.registers.mar.toNat) := by
      unfold store
      simp only [hwrite]
    rw [hstore, isSuccess_refuse, if_neg (fun h => Bool.false_ne_true h.1)]
    rfl
  | some i =>
    have hmar : m.registers.mar.toNat = i.val := Int.natCast_inj.1 (Memory.index?_eq_some_iff.1 hi)
    have hword : BitVec.ofInt 16 (m.registers.mbr.toNat : Int) = m.registers.mbr := by simp
    rw [hi, hword] at hwrite
    have hsuccess : CommandOutcome.isSuccess m.store = true := by
      unfold store
      simp only [hwrite]
      rfl
    have hmemory : m.store.machine.memory = m.memory.set i m.registers.mbr := by
      unfold store
      simp only [hwrite]
    rw [hmemory, Memory.get_set]
    simp only [hsuccess, true_and, hmar, Fin.val_inj]

theorem get_storeNext (m : Machine) (a : Fin memorySize) :
    m.storeNext.machine.memory.get a =
      if CommandOutcome.isSuccess m.storeNext ∧ m.registers.mar.toNat = a.val then m.registers.mbr
      else m.memory.get a := by
  obtain ⟨hmemory, hsuccess⟩ := thenAdvance_memory m.store "store+" ["MAR"]
  rw [storeNext, hmemory, hsuccess, get_store]

theorem memory_loadImage (m : Machine) (records : LoadImage) (start? : Option Int) :
    CommandOutcome.isSuccess (m.loadImage records start?) = true ∨
      (m.loadImage records start?).machine.memory = .zero := by
  unfold loadImage
  simp only
  split
  · exact .inr rfl
  · exact .inl rfl

theorem memory_loadFile (m : Machine) (files : FileTree) (path : Text) :
    CommandOutcome.isSuccess (m.loadFile files path) = true ∨
      (m.loadFile files path).machine.memory = .zero := by
  unfold loadFile
  simp only
  split
  · exact .inr rfl
  · exact memory_loadImage _ _ _

/-- Nothing but a store, a reset or an `ipl` changes memory. -/
theorem memory_act {action : Action}
    (h : action.name? ∉ [some .store, some .storeNext, some .reset, some .ipl]) (m : Machine) :
    (m.act action).machine.memory = m.memory := by
  rcases act_cases m action with ⟨c, files, hname, hact⟩ | ⟨records, start?, rfl⟩ | ⟨-, hrefused⟩
  · rw [hact]
    simp only [hname, List.mem_cons, Option.some.injEq, List.not_mem_nil, or_false, not_or] at h
    obtain ⟨hstore, hstoreNext, hreset, hipl⟩ := h
    rcases command_cases m files hreset hipl with rfl | ⟨count?, rfl⟩ | hadjusted
    · exact (Keeps.step m).memory
    · rw [command]
      split
      · rfl
      · exact (Keeps.run m _).memory
    · exact hadjusted.memory (not_or.2 ⟨hstore, hstoreNext⟩)
  · exact absurd (by simp [Action.name?]) h
  · rw [hrefused]

section Events

variable {a : Fin memorySize}

def wordAfter (a : Fin memorySize) (w : Word) (event? : Option MemoryEvent) : Word :=
  (event?.filter (·.concerns a)).elim w (·.word a)

theorem wordAfter_stored (success : Bool) (address : Nat) (w word : Word) :
    wordAfter a w (if success then some (.stored address word) else none) =
      if success ∧ address = a.val then word else w := by
  cases success with
  | false => rfl
  | true =>
    by_cases h : address = a.val <;>
      simp [wordAfter, MemoryEvent.concerns, MemoryEvent.word, Option.filter_some, h]

theorem wordAfter_replaced {o : CommandOutcome}
    (h : CommandOutcome.isSuccess o = true ∨ o.machine.memory = .zero) (w : Word) :
    wordAfter a w
        (some (.replaced (if CommandOutcome.isSuccess o then o.machine.memory else .zero))) =
      o.machine.memory.get a := by
  have hleft : (if CommandOutcome.isSuccess o then o.machine.memory else .zero) =
      o.machine.memory := by
    split
    · rfl
    · next hfailed => exact (h.resolve_left hfailed).symm
  rw [hleft]
  rfl

theorem memoryEvent?_eq_none {action : Action}
    (h : action.name? ∉ [some .store, some .storeNext, some .reset, some .ipl]) (m : Machine) :
    m.memoryEvent? action = none := by
  unfold memoryEvent?
  split <;> simp_all

/-- One action leaves at an address what its event puts there, or else what was there. -/
theorem get_act (m : Machine) (action : Action) (a : Fin memorySize) :
    (m.act action).machine.memory.get a =
      wordAfter a (m.memory.get a) (m.memoryEvent? action) := by
  by_cases h : action.name? ∈ [some .store, some .storeNext, some .reset, some .ipl]
  · rcases act_cases m action with ⟨c, files, hname, hact⟩ | ⟨records, start?, rfl⟩ | ⟨hnone, -⟩
    · rw [hname] at h
      unfold memoryEvent?
      rw [hname, hact]
      cases c with
      | store =>
        rw [show m.command files .store = m.store from rfl, get_store]
        exact (wordAfter_stored _ _ _ _).symm
      | storeNext =>
        rw [show m.command files .storeNext = m.storeNext from rfl, get_storeNext]
        exact (wordAfter_stored _ _ _ _).symm
      | reset => rfl
      | ipl path => exact (wordAfter_replaced (memory_loadFile m files path) _).symm
      | _ => simp [Command.name] at h
    · exact (wordAfter_replaced (memory_loadImage m records start?) _).symm
    · simp [hnone] at h
  · rw [memory_act h, memoryEvent?_eq_none h]
    rfl

/-- The word that the last event for an address puts there, or `w` if there is none. -/
def lastWord (a : Fin memorySize) (w : Word) (events : List MemoryEvent) : Word :=
  (events.reverse.find? (·.concerns a)).elim w (·.word a)

theorem lastWord_append (w : Word) (event? : Option MemoryEvent) (events : List MemoryEvent) :
    lastWord a w (event?.toList ++ events) = lastWord a (wordAfter a w event?) events := by
  unfold lastWord wordAfter
  rw [List.reverse_append, List.find?_append]
  cases events.reverse.find? (·.concerns a) with
  | some e => rfl
  | none =>
    cases event? with
    | none => rfl
    | some e => cases he : e.concerns a <;> simp [he, Option.filter_some]

/-- A history leaves at an address what the last event for it has put there. -/
theorem get_after (m : Machine) (actions : List Action) :
    (m.after actions).memory.get a = lastWord a (m.memory.get a) (m.memoryEvents actions) := by
  induction actions generalizing m with
  | nil => rfl
  | cons action actions ih =>
    rw [memoryEvents, lastWord_append, ← get_act]
    exact ih (m.act action).machine

end Events

/-- After any history from power-on each address holds what the last event for it has put there:
MBR at a store that succeeded with the address in MAR, or what a reset or an `ipl` has left, which is
zero unless the `ipl` succeeded. Without such an event it holds zero. All other actions leave memory
as it is. -/
theorem memory_holds_last_word :
    (∀ (actions : List Action) (a : Fin memorySize),
      (powerOn.after actions).memory.get a = lastWord a 0 (powerOn.memoryEvents actions)) ∧
    ∀ (m : Machine) (action : Action),
      action.name? ∉ [some .store, some .storeNext, some .reset, some .ipl] →
      (m.act action).machine.memory = m.memory := by
  refine ⟨fun actions a => ?_, fun m action h => memory_act h m⟩
  have hzero : powerOn.memory.get a = 0 := Memory.get_zero a
  rw [get_after, hzero]

def storing : List Action :=
  ["set MBR 0x0507", "store+", "set MBR 7", "store+", "run", "set MAR 1", "set MBR 9", "load",
    "set MBR 0x1234", "store", "regs"].map fun line => .line ⟨[], []⟩ line.toList

theorem storing_holds :
    (powerOn.after storing).memory.get ⟨0, by decide⟩ = 0x0507 ∧
      (powerOn.after storing).memory.get ⟨1, by decide⟩ = 0x1234 ∧
      ((powerOn.after storing).act (.line ⟨[], []⟩ "run".toList)).machine.memory =
        (powerOn.after storing).memory := by
  obtain ⟨hword, hframe⟩ := memory_holds_last_word
  exact ⟨(hword storing _).trans rfl, (hword storing _).trans rfl, hframe _ _ (by decide)⟩

end Machine
end WordMachine
