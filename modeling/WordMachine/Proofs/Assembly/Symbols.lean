import Mathlib.Data.List.Forall2
import WordMachine.Proofs.Assembly.Settled

namespace WordMachine

namespace SymbolTable

variable {s s' : SymbolTable}

def Extends (s s' : SymbolTable) : Prop := ∀ l v, s.get? l = some v → s'.get? l = some v

theorem Extends.refl (s : SymbolTable) : Extends s s := fun _ _ h => h

theorem Extends.trans {s'' : SymbolTable} (h : Extends s s') (h' : Extends s' s'') :
    Extends s s'' := fun l v hl => h' l v (h l v hl)

theorem extends_define {label : Text} {v : Int} (h : s.define label v = .ok s') :
    Extends s s' := by
  intro l u hl
  rw [get?_define h]
  split
  · next e =>
    -- A label that is defined already is refused.
    subst e
    simp [define, contains, hl] at h
  · exact hl

/-- What an operand stands for: the value of a decimal literal, or the address of a label. -/
def Denotes (s : SymbolTable) (token : Text) (v : Int) : Prop :=
  if Numeral.isDecimalLiteral token then Numeral.readInteger .decimal token = .ok v
  else s.get? token = some v

theorem denotes_of_resolve {token : Text} {line? : Option Int} {v : Int}
    (h : s.resolve token line? = .ok v) : s.Denotes token v := by
  unfold resolve at h
  unfold Denotes
  split
  · next hliteral =>
    rw [if_pos hliteral] at h
    split at h
    · next u hu =>
      cases h
      exact hu
    · cases h
  · next hliteral =>
    rw [if_neg hliteral] at h
    cases hl : s.get? token with
    | none => simp [find, hl, Except.mapError] at h
    | some address =>
      simp only [find, hl] at h
      cases h
      rfl

theorem forall₂_denotes_of_mapM {tokens : List Text} {line? : Option Int} {values : List Int}
    (h : tokens.mapM (s.resolve · line?) = .ok values) :
    List.Forall₂ s.Denotes tokens values := by
  induction tokens generalizing values with
  | nil =>
    cases h
    exact .nil
  | cons token tokens ih =>
    rw [List.mapM_cons] at h
    cases hv : s.resolve token line? with
    | error e => simp [hv, bind, Except.bind] at h
    | ok v =>
      cases hvs : tokens.mapM (s.resolve · line?) with
      | error e => simp [hv, hvs, bind, Except.bind] at h
      | ok vs =>
        simp only [hv, hvs, bind, Except.bind] at h
        cases h
        exact .cons (denotes_of_resolve hv) (ih hvs)

end SymbolTable

namespace Layout

variable {symbols : SymbolTable} {counter : Nat} {number : Int}

theorem extends_defineLabel {label? : Option Text} {symbols' : SymbolTable}
    (h : defineLabel symbols counter label? = .ok symbols') : symbols.Extends symbols' := by
  cases label? with
  | none =>
    cases h
    exact .refl symbols
  | some label => exact SymbolTable.extends_define h

theorem placeOperation_symbols {op : Text} {operands : List Text} :
    (placeOperation symbols counter number op operands).symbols = symbols := by
  unfold placeOperation
  split
  · split <;> rfl
  · split <;> rfl

theorem place_placeOperation {op : Text} {operands : List Text} {n : Nat}
    (h : (placeOperation symbols counter number op operands).place = .at n) : n = counter := by
  unfold placeOperation at h
  split at h
  · split at h <;> cases h
  · split at h
    · cases h
    · cases h
      rfl

/-- A step keeps the symbols and defines the label of a line that takes a word as its address. -/
theorem step_symbols {line : SourceLine} (h : (step symbols counter number line).failure? = none) :
    symbols.Extends (step symbols counter number line).symbols ∧
      ∀ l n, line.label? = some l → (step symbols counter number line).place = .at n →
        (step symbols counter number line).symbols.get? l = some (n : Int) := by
  cases hop : line.op? with
  | none =>
    simp only [step, hop]
    exact ⟨.refl symbols, fun l n _ hn => by cases hn⟩
  | some op =>
    cases hd : defineLabel symbols counter line.label? with
    | error cause => simp [step, hop, hd] at h
    | ok symbols' =>
      simp only [step, hop, hd, placeOperation_symbols]
      refine ⟨extends_defineLabel hd, ?_⟩
      intro l n hl hn
      rw [hl] at hd
      rw [place_placeOperation hn, SymbolTable.get?_define hd, if_pos rfl]

theorem ofLines_symbols {texts : List Text}
    (h : (ofLines symbols counter number texts).failure? = none) :
    symbols.Extends (ofLines symbols counter number texts).symbols ∧
      ∀ p ∈ (ofLines symbols counter number texts).lines, ∀ l n, p.line.label? = some l →
        p.place = .at n →
        (ofLines symbols counter number texts).symbols.get? l = some (n : Int) := by
  induction texts generalizing symbols counter number with
  | nil => exact ⟨.refl symbols, by simp [ofLines]⟩
  | cons t texts ih =>
    rw [ofLines] at h ⊢
    cases hs : (step symbols counter number (SourceLine.read t)).failure? with
    | some failure => simp [hs] at h
    | none =>
      simp only [hs] at h ⊢
      obtain ⟨hstep, hlabel⟩ := step_symbols hs
      obtain ⟨hrest, hlabels⟩ := ih h
      refine ⟨hstep.trans hrest, ?_⟩
      intro p hp l n hl hn
      -- What the first step has defined is kept by the rest.
      rcases List.mem_cons.1 hp with rfl | hp
      · exact hrest l n (hlabel l n hl hn)
      · exact hlabels p hp l n hl hn

end Layout

namespace Assembly

variable {text : Text} {a : Assembly}

theorem get?_label (h : ofText text = .ok a) {p : PlacedLine} (hp : p ∈ a.lines) {l : Text} {n : Nat}
    (hl : p.line.label? = some l) (hn : p.place = .at n) : a.symbols.get? l = some (n : Int) := by
  have hshape := (complete_of_ofText h).shape
  obtain ⟨hlayout, -, rfl⟩ := of_ofText h
  have hmem : p.shape ∈ (Layout.ofText text).lines.map PlacedLine.shape :=
    hshape ▸ List.mem_map_of_mem hp
  obtain ⟨q, hq, hqp⟩ := List.mem_map.1 hmem
  have hline : q.line = p.line := congrArg Prod.fst hqp
  have hplace : q.place = p.place := congrArg Prod.snd hqp
  exact (Layout.ofLines_symbols hlayout).2 q hq l n (hline ▸ hl) (hplace ▸ hn)

end Assembly
end WordMachine
