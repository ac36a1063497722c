import Mathlib.Data.List.Basic
import WordMachine.Text.LowerCase
import WordMachine.Text.UpperCase

namespace WordMachine.Text

/-- An ASCII character that has no counterpart outside ASCII. -/
def IsPlain (c : Char) : Prop := 0 < c.toNat ∧ c.toNat < 0x80 ∧ c ≠ 'k'

instance (c : Char) : Decidable (IsPlain c) := inferInstanceAs (Decidable (_ ∧ _))

theorem toNat_ofNat_eq (n : Nat) : (Char.ofNat n).toNat = n ∨ (Char.ofNat n).toNat = 0 := by
  by_cases h : n.isValidChar
  · have hchar : Char.ofNat n = Char.ofNatAux n h := dif_pos h
    rw [hchar]
    exact .inl rfl
  · have hchar : (Char.ofNat n).toNat = 0 := congrArg Char.toNat (dif_neg h)
    exact .inr hchar

theorem image_lowerRuns : ∀ run ∈ lowerRuns,
    0x80 ≤ run.image ∨ run.first = 0x212A ∧ run.last = 0x212A ∧ run.image = 0x6B := by
  decide +kernel

theorem not_isPlain_apply_lowerRuns {c : Char} (hc : 0x80 ≤ c.toNat) :
    ¬ IsPlain (CaseRun.apply lowerRuns c) := by
  rintro ⟨hpos, hlt, hne⟩
  unfold CaseRun.apply at hpos hlt hne
  split at hlt
  · next run hrun =>
    simp only [hrun] at hpos hne
    have hcovers := List.find?_some hrun
    simp only [CaseRun.covers, Bool.and_eq_true, decide_eq_true_eq] at hcovers
    rcases image_lowerRuns run (List.mem_of_find?_eq_some hrun) with himage | ⟨hfirst, hlast, himage⟩
    · rcases toNat_ofNat_eq (run.image + (c.toNat - run.first)) with h | h <;> omega
    · -- The run of the Kelvin sign has one character.
      have hzero : c.toNat - run.first = 0 := by omega
      rw [himage, hzero] at hne
      exact hne rfl
  · omega

theorem toNat_lt_of_forall_isPlain {c : Char} (h : ∀ d ∈ lowerChar c, IsPlain d) :
    c.toNat < 0x80 := by
  refine Nat.lt_of_not_le fun hc => ?_
  unfold lowerChar at h
  rw [if_neg (Nat.not_lt.2 hc)] at h
  split at h
  · exact absurd (h '\u0307' (by simp)) (by decide)
  · exact not_isPlain_apply_lowerRuns hc (h _ (by simp))

theorem not_isPlain_lowerSigma (before after : Text) : ¬ IsPlain (lowerSigma before after) := by
  unfold lowerSigma
  split <;> decide

/-- A text with a plain lower case is in ASCII, and its characters are put in lower case one by
one. -/
theorem lower_eq_map_of_forall_isPlain {t : Text} (h : ∀ d ∈ lower t, IsPlain d) :
    lower t = t.map Char.toLower ∧ ∀ c ∈ t, c.toNat < 0x80 := by
  unfold lower at h ⊢
  generalize ([] : Text) = before at h ⊢
  induction t generalizing before with
  | nil => exact ⟨rfl, nofun⟩
  | cons c t ih =>
    rw [lowerAfter] at h ⊢
    obtain ⟨hfirst, hrest⟩ := List.forall_mem_append.1 h
    obtain ⟨hlower, hascii⟩ := ih (c :: before) hrest
    have hsigma : c ≠ 'Σ' := by
      intro e
      rw [if_pos e] at hfirst
      exact not_isPlain_lowerSigma before t (hfirst _ (by simp))
    rw [if_neg hsigma] at hfirst ⊢
    have hc := toNat_lt_of_forall_isPlain hfirst
    rw [hlower, lowerChar, if_pos hc]
    exact ⟨rfl, List.forall_mem_cons.2 ⟨hc, hascii⟩⟩

theorem upperChar_toLower {c : Char} (hc : c.toNat < 0x80) :
    upperChar c.toLower = upperChar c := by
  have hascii : ∀ n < 0x80, upperChar (Char.ofNat n).toLower = upperChar (Char.ofNat n) := by decide
  have h := hascii c.toNat hc
  rwa [Char.ofNat_toNat] at h

theorem upper_lower_of_forall_isPlain {t : Text} (h : ∀ d ∈ lower t, IsPlain d) :
    upper (lower t) = upper t := by
  obtain ⟨hlower, hascii⟩ := lower_eq_map_of_forall_isPlain h
  rw [hlower, upper, upper, List.flatMap_map]
  exact List.flatMap_congr fun c hc => upperChar_toLower (hascii c hc)

end WordMachine.Text
