import Mathlib.Data.List.Forall2

namespace WordMachine

variable {α β : Type}

/-- Two lists side by side that `f` maps alike, without the elements that it leaves out. -/
inductive Aligned (f : α → Option β) : List α → List α → Prop
  | nil : Aligned f [] []
  | skipLeft {a : α} {xs ys : List α} (ha : f a = none) (h : Aligned f xs ys) :
    Aligned f (a :: xs) ys
  | skipRight {b : α} {xs ys : List α} (hb : f b = none) (h : Aligned f xs ys) :
    Aligned f xs (b :: ys)
  | both {a b : α} {c : β} {xs ys : List α} (ha : f a = some c) (hb : f b = some c)
    (h : Aligned f xs ys) : Aligned f (a :: xs) (b :: ys)

variable {f : α → Option β}

theorem aligned_of_filterMap_eq {xs ys : List α} (h : xs.filterMap f = ys.filterMap f) :
    Aligned f xs ys := by
  induction xs generalizing ys with
  | nil =>
    induction ys with
    | nil => exact .nil
    | cons b ys ih =>
      have hall := List.filterMap_eq_nil_iff.1 h.symm
      exact .skipRight (hall b List.mem_cons_self)
        (ih (List.filterMap_eq_nil_iff.2 fun c hc => hall c (List.mem_cons_of_mem b hc)).symm)
  | cons a xs ih =>
    cases ha : f a with
    | none =>
      rw [List.filterMap_cons_none ha] at h
      exact .skipLeft ha (ih h)
    | some c =>
      rw [List.filterMap_cons_some ha] at h
      -- The other list is skipped up to the element that is mapped to `c` as well.
      induction ys with
      | nil => cases h
      | cons b ys ihr =>
        cases hb : f b with
        | none =>
          rw [List.filterMap_cons_none hb] at h
          exact .skipRight hb (ihr h)
        | some d =>
          rw [List.filterMap_cons_some hb] at h
          obtain ⟨rfl, hrest⟩ := List.cons.inj h
          exact .both ha hb (ih hrest)

theorem Aligned.filterMap_eq {γ : Type} {g : α → Option γ} {xs ys : List α} (h : Aligned f xs ys)
    (hleft : ∀ a ∈ xs, f a = none → g a = none) (hright : ∀ b ∈ ys, f b = none → g b = none)
    (hboth : ∀ a b c, f a = some c → f b = some c → g a = g b) :
    xs.filterMap g = ys.filterMap g := by
  induction h with
  | nil => rfl
  | @skipLeft a xs ys ha h ih =>
    rw [List.filterMap_cons_none (hleft a List.mem_cons_self ha)]
    exact ih (fun b hb => hleft b (List.mem_cons_of_mem a hb)) hright
  | @skipRight b xs ys hb h ih =>
    rw [List.filterMap_cons_none (hright b List.mem_cons_self hb)]
    exact ih hleft fun a ha => hright a (List.mem_cons_of_mem b ha)
  | @both a b c xs ys ha hb h ih =>
    rw [List.filterMap_cons, List.filterMap_cons, hboth a b c ha hb,
      ih (fun d hd => hleft d (List.mem_cons_of_mem a hd))
        fun d hd => hright d (List.mem_cons_of_mem b hd)]

theorem filterMap_eq_of_forall₂ {γ : Type} {R : α → γ → Prop} {g : α → Option β}
    {g' : γ → Option β} {xs : List α} {ys : List γ} (hg : ∀ x y, R x y → g' y = g x)
    (h : List.Forall₂ R xs ys) : ys.filterMap g' = xs.filterMap g := by
  induction h with
  | nil => rfl
  | cons hxy h ih => rw [List.filterMap_cons, List.filterMap_cons, hg _ _ hxy, ih]

theorem zipWith_eq_map {γ δ : Type} {key : α → γ} {key' : β → γ} {g : α → β → δ} {k : α → δ}
    {xs : List α} {ys : List β} (hkey : xs.map key = ys.map key')
    (hg : ∀ x y, key x = key' y → g x y = k x) : List.zipWith g xs ys = xs.map k := by
  induction xs generalizing ys with
  | nil => rfl
  | cons x xs ih =>
    cases ys with
    | nil => cases hkey
    | cons y ys =>
      obtain ⟨hxy, hrest⟩ := List.cons.inj hkey
      rw [List.zipWith_cons_cons, List.map_cons, hg x y hxy, ih hrest]

end WordMachine
