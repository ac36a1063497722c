import WordMachine.Proofs.Files.Writing

namespace WordMachine

namespace FileSystem

/-- What every file system keeps to. A path is refused for a null character only if it holds one.
After a removal nothing is at the path, and no removal brings back what was not there. -/
class Lawful (σ : Type) [FileSystem σ] : Prop where
  makeDirectory_ne_nullCharacter (s : σ) {path : Text} (h : '\x00' ∉ path) :
    (makeDirectory s path).2 ≠ .error .nullCharacter
  writeFile_ne_nullCharacter (s : σ) {path : Text} (h : '\x00' ∉ path) (bytes : List UInt8) :
    (writeFile s path bytes).2 ≠ .error .nullCharacter
  removeFile_ne_nullCharacter (s : σ) {path : Text} (h : '\x00' ∉ path) :
    (removeFile s path).2 ≠ .error .nullCharacter
  hasEntry_removed {s s' : σ} {path : Text} (h : removeFile s path = (s', .ok ())) :
    hasEntry s' path = false
  hasEntry_of_removed {s s' : σ} {path other : Text} (h : removeFile s path = (s', .ok ()))
    (hother : hasEntry s other = false) : hasEntry s' other = false

variable {σ : Type} [FileSystem σ] {path : Text}

/-- One level of making directories: those above are made if they are missing, and then, unless
that has failed, the directory of the path is. -/
theorem ensureDirectories_succ (s : σ) (depth : Nat) (path : Text) :
    ∃ s₁ made, ((s₁, made) = (s, .ok ()) ∨
        (Path.parent path).1 ≠ [] ∧ ensureDirectories s depth (Path.parent path).1 = (s₁, made)) ∧
      (ensureDirectories s (depth + 1) path = (s₁, .ok ()) ∨
        ensureDirectories s (depth + 1) path = (s₁, made) ∨
        ensureDirectories s (depth + 1) path = ensureDirectory s₁ path) := by
  rw [ensureDirectories]
  by_cases habove : (Path.parent path).1 ≠ [] ∧ (Path.parent path).2 ≠ [] ∧
      !hasEntry s (Path.parent path).1
  · refine ⟨_, _, .inr ⟨habove.1, rfl⟩, ?_⟩
    simp only [if_pos habove]
    split
    · split
      · exact .inl rfl
      · exact .inr (.inr rfl)
    · split
      · exact .inl rfl
      · exact .inr (.inr rfl)
    · next hmade => exact .inr (.inl (Prod.ext rfl hmade.symm))
  · refine ⟨s, .ok (), .inl rfl, .inr (.inr ?_)⟩
    simp only [if_neg habove]
    rfl

theorem ensureDirectory_ne_nullCharacter [Lawful σ] (s : σ) (h : '\x00' ∉ path) :
    (ensureDirectory s path).2 ≠ .error .nullCharacter := by
  have hmake := Lawful.makeDirectory_ne_nullCharacter s h
  unfold ensureDirectory
  split
  · split
    · nofun
    · nofun
  · next hmade => simpa [hmade] using hmake

theorem ensureDirectories_ne_nullCharacter [Lawful σ] (s : σ) (depth : Nat)
    (h : '\x00' ∉ path) : (ensureDirectories s depth path).2 ≠ .error .nullCharacter := by
  induction depth generalizing path with
  | zero => nofun
  | succ depth ih =>
    obtain ⟨s₁, made, habove, hlevel⟩ := ensureDirectories_succ s depth path
    have hmade : made ≠ .error .nullCharacter := by
      rcases habove with heq | ⟨-, heq⟩
      · obtain ⟨-, rfl⟩ := Prod.mk.inj heq
        nofun
      · have hparent := ih fun hc => h ((Path.parent_isPrefixOf path).subset hc)
        rw [heq] at hparent
        exact hparent
    rcases hlevel with h' | h' | h'
    · rw [h']
      nofun
    · rw [h']
      exact hmade
    · rw [h']
      exact ensureDirectory_ne_nullCharacter s₁ h

theorem makeDirectories_ne_nullCharacter [Lawful σ] (s : σ) (h : '\x00' ∉ path) :
    (makeDirectories s path).2 ≠ .error .nullCharacter :=
  ensureDirectories_ne_nullCharacter s _ h

end FileSystem

namespace FileTree

variable {t t' : FileTree} {path other : Text} {l : Location}

theorem checked_ne_nullCharacter {α : Type} (h : '\x00' ∉ path) (r : Except FileError α) :
    checked path r ≠ .error .nullCharacter := by
  rw [checked, if_neg h]
  intro hnull
  obtain ⟨e, -, he⟩ := mapError_eq_error.1 hnull
  cases he

theorem changed_ne_nullCharacter {r : Except PathFailure FileTree}
    (h : r ≠ .error .nullCharacter) : (t.changed r).2 ≠ .error .nullCharacter := by
  intro hnull
  exact h (changed_eq_error.1 (Prod.ext rfl hnull)).2

theorem removeFile_eq_ok (h : t.removeFile path = .ok t') :
    ∃ l, t.locate path = .ok l ∧ t.get? l ≠ some .directory ∧ t' = t.erase l := by
  unfold removeFile checked at h
  split at h
  · cases h
  · obtain ⟨e, hfind, h⟩ := bind_eq_ok.1 (mapError_eq_ok.1 h)
    split at h
    · obtain ⟨l, hl, h⟩ := bind_eq_ok.1 h
      obtain ⟨-, k, hk, hget⟩ := find_eq_file hfind
      obtain rfl := Except.ok.inj (hl.symm.trans hk)
      cases h
      exact ⟨l, hl, by simp [hget], rfl⟩
    · cases h

theorem hasEntry_iff : t.hasEntry path = true ↔ '\x00' ∉ path ∧ ∃ e, t.find path = .ok e := by
  unfold hasEntry checked
  by_cases hnull : '\x00' ∈ path
  · simp [hnull, Except.isOk, Except.toBool]
  · rw [if_neg hnull]
    cases t.find path <;> simp [hnull, Except.mapError, Except.isOk, Except.toBool]

theorem keepsDirectories_of_erase (h : t.get? l ≠ some .directory) :
    KeepsDirectories (t.erase l) t where
  directory {k} hk := by
    rw [get?_erase t (ne_nil_of_get? h)] at hk
    split at hk
    · cases hk
    · exact hk
  workingDirectory := rfl

/-- What is found without a file was found with it, at another location. -/
theorem find_of_find_erase (h : t.get? l ≠ some .directory) {e : Entry}
    (hfind : (t.erase l).find path = .ok e) : t.find path = .ok e ∧ t.locate path ≠ .ok l := by
  obtain ⟨k, hk, hentry⟩ := bind_eq_ok.1 hfind
  have hlocate := locate_of_keepsDirectories (keepsDirectories_of_erase h) hk
  have hkl : k ≠ l := by
    rintro rfl
    rw [get?_erase t (ne_nil_of_get? h), if_pos rfl] at hentry
    cases hentry
  rw [get?_erase t (ne_nil_of_get? h), if_neg hkl] at hentry
  refine ⟨bind_eq_ok.2 ⟨k, hlocate, hentry⟩, fun hl => hkl ?_⟩
  exact Except.ok.inj (hlocate.symm.trans hl)

instance : FileSystem.Lawful FileTree where
  makeDirectory_ne_nullCharacter _ _ h := changed_ne_nullCharacter (checked_ne_nullCharacter h _)
  writeFile_ne_nullCharacter _ _ h _ := changed_ne_nullCharacter (checked_ne_nullCharacter h _)
  removeFile_ne_nullCharacter _ _ h := changed_ne_nullCharacter (checked_ne_nullCharacter h _)
  hasEntry_removed h := by
    obtain ⟨l, hl, hne, rfl⟩ := removeFile_eq_ok (changed_eq_ok.1 h)
    rw [← Bool.not_eq_true]
    intro hentry
    obtain ⟨-, e, hfind⟩ := hasEntry_iff.1 hentry
    exact (find_of_find_erase hne hfind).2 hl
  hasEntry_of_removed h hother := by
    obtain ⟨l, hl, hne, rfl⟩ := removeFile_eq_ok (changed_eq_ok.1 h)
    rw [← Bool.not_eq_true] at hother ⊢
    intro hentry
    obtain ⟨hnull, e, hfind⟩ := hasEntry_iff.1 hentry
    exact hother (hasEntry_iff.2 ⟨hnull, e, (find_of_find_erase hne hfind).1⟩)

end FileTree
end WordMachine
