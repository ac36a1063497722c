import WordMachine.Proofs.Assembly.Statements
import WordMachine.Proofs.Assembly.Symbols

namespace WordMachine

open Emission

namespace SymbolTable

variable {s s' : SymbolTable}

theorem resolve_of_extends (h : s.Extends s') {token : Text} {line? : Option Int} {v : Int}
    (hv : s.resolve token line? = .ok v) : s'.resolve token line? = .ok v := by
  unfold resolve at hv ⊢
  by_cases hliteral : Numeral.isDecimalLiteral token = true
  · rw [if_pos hliteral] at hv ⊢
    exact hv
  · rw [if_neg hliteral] at hv ⊢
    cases hl : s.get? token with
    | none => simp [find, hl, Except.mapError] at hv
    | some address =>
      simp only [find, hl, h token address hl] at hv ⊢
      exact hv

end SymbolTable

namespace Emission

variable {symbols symbols' : SymbolTable} {number : Int} {op : Text} {operands : List Text} {v : Int}

/-- The number of a line shows in its failures alone. -/
theorem value_of_number (h : value symbols number op operands = .ok v) (number' : Int) :
    value symbols number' op operands = .ok v := by
  have hsame := @toOption_value symbols op op rfl number number' operands
  rw [h] at hsame
  cases hv : value symbols number' op operands with
  | ok u => simpa [hv, Except.toOption, eq_comm] using hsame
  | error f => simp [hv, Except.toOption] at hsame

theorem value_of_extends (hs : symbols.Extends symbols')
    (h : value symbols number op operands = .ok v) : value symbols' number op operands = .ok v := by
  unfold value at h ⊢
  by_cases hdata : isData op = true
  · rw [if_pos hdata] at h ⊢
    split at h
    · exact SymbolTable.resolve_of_extends hs h
    · cases h
  · rw [if_neg hdata] at h ⊢
    by_cases hhlt : Mnemonic.read? op = some .hlt
    · rw [if_pos hhlt] at h ⊢
      exact h
    · rw [if_neg hhlt] at h ⊢
      obtain ⟨numbers, hnumbers, h⟩ := bind_eq_ok.1 h
      refine bind_eq_ok.2 ⟨numbers, ?_, h⟩
      obtain ⟨values, hvalues, hn⟩ := bind_eq_ok.1 hnumbers
      refine bind_eq_ok.2 ⟨values, ?_, hn⟩
      exact mapM_eq_ok_of_imp (fun token u hu => SymbolTable.resolve_of_extends hs hu) hvalues

end Emission

namespace Layout

variable {symbols : SymbolTable} {counter : Nat} {number : Int}

theorem ofLines_map_congr {α : Type} {f g : α → Text} {xs : List α}
    (h : ∀ x ∈ xs, ∀ symbols counter number, step symbols counter number (SourceLine.read (f x)) =
      step symbols counter number (SourceLine.read (g x))) :
    (ofLines symbols counter number (xs.map f)).failure? =
        (ofLines symbols counter number (xs.map g)).failure? ∧
      (ofLines symbols counter number (xs.map f)).symbols =
        (ofLines symbols counter number (xs.map g)).symbols ∧
      (ofLines symbols counter number (xs.map f)).lines.map (·.place) =
        (ofLines symbols counter number (xs.map g)).lines.map (·.place) := by
  induction xs generalizing symbols counter number with
  | nil => exact ⟨rfl, rfl, rfl⟩
  | cons x xs ih =>
    obtain ⟨hx, hxs⟩ := List.forall_mem_cons.1 h
    rw [List.map_cons, List.map_cons, ofLines, ofLines, hx]
    simp only
    split
    · exact ⟨rfl, rfl, rfl⟩
    · obtain ⟨hfailure, hsymbols, hplaces⟩ := @ih _ _ (number + 1) hxs
      exact ⟨hfailure, hsymbols, congrArg (_ :: ·) hplaces⟩

end Layout

theorem PlacedLine.map_shape_eq_zip (ps : List PlacedLine) :
    ps.map PlacedLine.shape = (ps.map (·.line)).zip (ps.map (·.place)) :=
  List.zip_map'.symm

namespace Settled

variable {symbols symbols' : SymbolTable} {p q : PlacedLine}

theorem of_extends (hs : symbols.Extends symbols') (h : Settled symbols p) : Settled symbols' p := by
  cases h with
  | silent hop => exact .silent hop
  | directive hop hloc => exact .directive hop hloc
  | word hop hloc haddress hvalue => exact .word hop hloc haddress (value_of_extends hs hvalue)

/-- A settled line is determined by what is read from it and its place. -/
theorem eq_of_shape (hp : Settled symbols p) (hq : Settled symbols q) (h : p.shape = q.shape) :
    p = q := by
  rcases hp with hop | ⟨hop, hloc⟩ | @⟨line, op, address, number, v, hop, hloc, haddress, hvalue⟩
  · rcases hq with hop' | ⟨hop', hloc'⟩ | ⟨hop', hloc', -, -⟩
    · cases h
      rfl
    · cases h
    · cases h
  · rcases hq with hop' | ⟨hop', hloc'⟩ | ⟨hop', hloc', -, -⟩
    · cases h
    · cases h
      rfl
    · cases h
  · rcases hq with hop' | ⟨hop', hloc'⟩ | @⟨line', op', address', number', v', hop', -, -, hvalue'⟩
    · cases h
    · cases h
    · cases h
      obtain rfl : op = op' := Option.some.inj (hop.symm.trans hop')
      have hsame := value_of_number hvalue number'
      rw [hvalue'] at hsame
      rw [Except.ok.inj hsame]

theorem eq_of_map_shape {ps qs : List PlacedLine} (hps : ∀ p ∈ ps, Settled symbols p)
    (hqs : ∀ q ∈ qs, Settled symbols q) (h : ps.map PlacedLine.shape = qs.map PlacedLine.shape) :
    ps = qs := by
  induction ps generalizing qs with
  | nil => exact (List.map_eq_nil_iff.1 h.symm).symm
  | cons p ps ih =>
    cases qs with
    | nil => cases h
    | cons q qs =>
      obtain ⟨hp, hps⟩ := List.forall_mem_cons.1 hps
      obtain ⟨hq, hqs⟩ := List.forall_mem_cons.1 hqs
      obtain ⟨hshape, hrest⟩ := List.cons.inj h
      rw [hp.eq_of_shape hq hshape, ih hps hqs hrest]

end Settled

namespace Emission

variable {symbols : SymbolTable}

theorem failure?_ofLines_of_settled {placed qs : List PlacedLine}
    (hqs : ∀ q ∈ qs, Settled symbols q)
    (h : placed.map PlacedLine.shape = qs.map PlacedLine.shape) (number : Int) :
    (ofLines symbols number placed).failure? = none := by
  induction placed generalizing qs number with
  | nil => rfl
  | cons p placed ih =>
    cases qs with
    | nil => cases h
    | cons q qs =>
      obtain ⟨line, place, word?⟩ := p
      obtain ⟨hq, hqs⟩ := List.forall_mem_cons.1 hqs
      obtain ⟨hshape, hrest⟩ := List.cons.inj h
      have hnone := ih hqs hrest (number + 1)
      rw [ofLines]
      -- Line `p` has the shape of the settled line `q`, so it states what that one states.
      cases hq with
      | silent hop =>
        cases hshape
        simp only [hop]
        exact hnone
      | directive hop hloc =>
        cases hshape
        simp only [hop]
        exact hnone
      | word hop hloc haddress hvalue =>
        cases hshape
        simp only [hop, value_of_number hvalue number]
        exact hnone

end Emission

namespace Assembly

theorem map_shape {text : Text} {a : Assembly} (h : ofText text = .ok a) :
    a.lines.map PlacedLine.shape = (Layout.ofText text).lines.map PlacedLine.shape :=
  (complete_of_ofText h).shape

theorem symbols_eq {text : Text} {a : Assembly} (h : ofText text = .ok a) :
    a.symbols = (Layout.ofText text).symbols := by
  obtain ⟨-, -, rfl⟩ := of_ofText h
  rfl

theorem ofText_eq_ok {text : Text} (hlayout : (Layout.ofText text).failure? = none)
    (hemission : (Emission.ofLayout (Layout.ofText text)).failure? = none) :
    ofText text = .ok ⟨(Emission.ofLayout (Layout.ofText text)).lines, (Layout.ofText text).symbols,
      (Emission.ofLayout (Layout.ofText text)).listing,
      (Emission.ofLayout (Layout.ofText text)).load⟩ := by
  rw [ofText]
  simp only [hlayout, hemission]

/-- A program is assembled to the settled lines that its layout has the shape of. -/
theorem exists_ofText_eq_ok {text : Text} {qs : List PlacedLine}
    (hlayout : (Layout.ofText text).failure? = none)
    (hqs : ∀ q ∈ qs, Settled (Layout.ofText text).symbols q)
    (hshape : (Layout.ofText text).lines.map PlacedLine.shape = qs.map PlacedLine.shape) :
    ∃ a, ofText text = .ok a ∧ a.lines = qs ∧ a.symbols = (Layout.ofText text).symbols := by
  have hemission : (Emission.ofLayout (Layout.ofText text)).failure? = none :=
    Emission.failure?_ofLines_of_settled hqs hshape 1
  have hcomplete := Emission.complete_ofLines (Layout.placed_ofLines hlayout) hemission
  have hlines := Settled.eq_of_map_shape hcomplete.settled hqs (hcomplete.shape.trans hshape)
  exact ⟨_, ofText_eq_ok hlayout hemission, hlines, rfl⟩

end Assembly
end WordMachine
