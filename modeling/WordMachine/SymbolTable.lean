import WordMachine.Failure

namespace WordMachine

structure SymbolTable where
  entries : List (Text × Int)

namespace SymbolTable

def empty : SymbolTable := ⟨[]⟩

def get? (s : SymbolTable) (label : Text) : Option Int := s.entries.lookup label

def contains (s : SymbolTable) (label : Text) : Bool := (s.get? label).isSome

def size (s : SymbolTable) : Nat := s.entries.length

def define (s : SymbolTable) (label : Text) (address : Int) : Except Cause SymbolTable :=
  if s.contains label then .error (.duplicateLabel label) else .ok ⟨s.entries ++ [(label, address)]⟩

theorem get?_define {s s' : SymbolTable} {label : Text} {a : Int} (h : s.define label a = .ok s')
    (l : Text) : s'.get? l = if l = label then some a else s.get? l := by
  unfold define contains at h
  split at h
  · cases h
  · next hn =>
    cases h
    by_cases hl : l = label
    · subst hl
      have : s.entries.lookup l = none := Option.not_isSome_iff_eq_none.1 hn
      simp [get?, List.lookup_append, this]
    · have hb : (l == label) = false := by simpa using hl
      simp [get?, List.lookup_append, List.lookup_cons, hl, hb]

def find (s : SymbolTable) (label : Text) : Except Cause Int :=
  match s.get? label with
  | some address => .ok address
  | none => .error (.unknownLabel label)

/-- The value of an operand: a decimal literal, or the address of a label. -/
def resolve (s : SymbolTable) (token : Text) (line? : Option Int) : Except Failure Int :=
  if Numeral.isDecimalLiteral token then
    match Numeral.readInteger .decimal token with
    | .ok v => .ok v
    | .error e => .error (.aborted (.unreadable e))
  else (s.find token).mapError (Failure.report · line?)

end SymbolTable
end WordMachine
