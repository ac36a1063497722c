import WordMachine.Proofs.Assembly.OutputFiles
import WordMachine.Proofs.Files.System

namespace WordMachine.FileSystem

variable {σ : Type} [FileSystem σ] {s s' s₁ s₂ : σ} {source outDir path p : Text}
  {paths : List Text} {texts before : List (Text × Text)} {a : Assembly} {e : FileError}

/-- Whatever is at the paths has been removed, one path after the other. -/
inductive CleanedUp : σ → List Text → σ → Prop where
  | nil (s : σ) : CleanedUp s [] s
  | absent {s s' : σ} {path : Text} {paths : List Text} (hentry : hasEntry s path = false)
      (hrest : CleanedUp s paths s') : CleanedUp s (path :: paths) s'
  | removed {s s₁ s' : σ} {path : Text} {paths : List Text} (hentry : hasEntry s path = true)
      (hremove : removeFile s path = (s₁, .ok ())) (hrest : CleanedUp s₁ paths s') :
      CleanedUp s (path :: paths) s'

/-- The removal of what is at one of the paths is refused, after those before it are cleaned up. -/
inductive RemovalFails (s : σ) : List Text → Text → FileError → σ → Prop where
  | intro {s₁ s' : σ} {before after : List Text} {path : Text} {e : FileError}
      (hbefore : CleanedUp s before s₁) (hentry : hasEntry s₁ path = true)
      (hremove : removeFile s₁ path = (s', .error (.refused e))) :
      RemovalFails s (before ++ path :: after) path e s'

/-- The writing of the output files is refused, with the paths that have been opened until then, the
path that the refusal is about, the refusal, and what has been done. No path has been opened if the
directory cannot be made. -/
inductive WriteFails (s : σ) (source outDir : Text) (a : Assembly) :
    List Text → Text → FileError → σ → Prop where
  | directory {s₁ : σ} {e : FileError}
      (hmake : makeDirectories s outDir = (s₁, .error (.refused e))) :
      WriteFails s source outDir a [] outDir e s₁
  | output {s₀ s₁ s₂ : σ} {before after : List (Text × Text)} {path text : Text} {e : FileError}
      (hmake : makeDirectories s outDir = (s₀, .ok ()))
      (htexts : outputTexts source outDir a = before ++ (path, text) :: after)
      (hwrote : Wrote s₀ before s₁)
      (hwrite : writeFile s₁ path (Text.Utf8.encode text) = (s₂, .error (.refused e))) :
      WriteFails s source outDir a (before.map Prod.fst ++ [path]) path e s₂

theorem discard_append (h : CleanedUp s paths s₁) (rest : List Text) :
    discard s (paths ++ rest) = discard s₁ rest := by
  induction h with
  | nil s => rfl
  | absent hentry _ ih => simpa [discard, hentry] using ih
  | removed hentry hremove _ ih => simpa [discard, hentry, hremove] using ih

theorem discard_of_cleanedUp (h : CleanedUp s paths s') : discard s paths = (s', .ok ()) := by
  have h := discard_append h []
  rwa [List.append_nil] at h

theorem discard_of_removalFails (h : RemovalFails s paths p e s') :
    discard s paths = (s', .error (.aborted (.cannotRemove p e))) := by
  obtain ⟨hbefore, hentry, hremove⟩ := h
  rw [discard_append hbefore]
  simp [discard, hentry, hremove]

theorem CleanedUp.hasEntry_eq_false [Lawful σ] (h : CleanedUp s paths s')
    (hentry : hasEntry s p = false) : hasEntry s' p = false := by
  induction h with
  | nil s => exact hentry
  | absent _ _ ih => exact ih hentry
  | removed _ hremove _ ih => exact ih (Lawful.hasEntry_of_removed hremove hentry)

theorem CleanedUp.gone [Lawful σ] (h : CleanedUp s paths s') :
    ∀ p ∈ paths, hasEntry s' p = false := by
  induction h with
  | nil s => exact List.forall_mem_nil _
  | absent hentry hrest ih => exact List.forall_mem_cons.2 ⟨hrest.hasEntry_eq_false hentry, ih⟩
  | removed _ hremove hrest ih =>
    exact List.forall_mem_cons.2 ⟨hrest.hasEntry_eq_false (Lawful.hasEntry_removed hremove), ih⟩

theorem CleanedUp.not_removalFails (h : CleanedUp s paths s') : ¬ RemovalFails s paths p e s₁ := by
  intro hfails
  cases (discard_of_cleanedUp h).symm.trans (discard_of_removalFails hfails)

theorem RemovalFails.head (hentry : hasEntry s path = true)
    (hremove : removeFile s path = (s', .error (.refused e))) (rest : List Text) :
    RemovalFails s (path :: rest) path e s' :=
  show RemovalFails s ([] ++ path :: rest) path e s' from .intro (.nil s) hentry hremove

theorem RemovalFails.cons_absent (hentry : hasEntry s path = false)
    (h : RemovalFails s paths p e s') : RemovalFails s (path :: paths) p e s' := by
  obtain ⟨hbefore, hp, hremove⟩ := h
  exact .intro (.absent hentry hbefore) hp hremove

theorem RemovalFails.cons_removed (hentry : hasEntry s path = true)
    (hremove : removeFile s path = (s₁, .ok ())) (h : RemovalFails s₁ paths p e s') :
    RemovalFails s (path :: paths) p e s' := by
  obtain ⟨hbefore, hp, hrefused⟩ := h
  exact .intro (.removed hentry hremove hbefore) hp hrefused

/-- Paths are cleaned up, unless a removal is refused. -/
theorem cleanedUp_or_removalFails [Lawful σ] (s : σ) (hnull : ∀ p ∈ paths, '\x00' ∉ p) :
    (∃ s', CleanedUp s paths s') ∨ ∃ p e s', RemovalFails s paths p e s' := by
  induction paths generalizing s with
  | nil => exact .inl ⟨s, .nil s⟩
  | cons path paths ih =>
    rw [List.forall_mem_cons] at hnull
    cases hentry : hasEntry s path with
    | false =>
      rcases ih s hnull.2 with ⟨s', h⟩ | ⟨p, e, s', h⟩
      · exact .inl ⟨s', .absent hentry h⟩
      · exact .inr ⟨p, e, s', h.cons_absent hentry⟩
    | true =>
      match hremove : removeFile s path with
      | (s₁, .ok ()) =>
        rcases ih s₁ hnull.2 with ⟨s', h⟩ | ⟨p, e, s', h⟩
        · exact .inl ⟨s', .removed hentry hremove h⟩
        · exact .inr ⟨p, e, s', h.cons_removed hentry hremove⟩
      | (s₁, .error (.refused e)) =>
        exact .inr ⟨path, e, s₁, .head hentry hremove paths⟩
      | (s₁, .error .nullCharacter) =>
        exact absurd (congrArg Prod.snd hremove) (Lawful.removeFile_ne_nullCharacter s hnull.1)

theorem writeTexts_append (h : Wrote s before s₁) (opened : List Text)
    (rest : List (Text × Text)) :
    writeTexts s opened (before ++ rest) = writeTexts s₁ (opened ++ before.map Prod.fst) rest := by
  induction h generalizing opened with
  | nil s => simp
  | cons hwrite _ ih =>
    rw [List.cons_append, writeTexts, hwrite]
    exact (ih _).trans (by simp)

theorem wrote_or_refused [Lawful σ] (s : σ) (hnull : ∀ x ∈ texts, '\x00' ∉ x.1) :
    (∃ s', Wrote s texts s') ∨ ∃ before path text after s₁ s₂ e,
      texts = before ++ (path, text) :: after ∧ Wrote s before s₁ ∧
        writeFile s₁ path (Text.Utf8.encode text) = (s₂, .error (.refused e)) := by
  induction texts generalizing s with
  | nil => exact .inl ⟨s, .nil s⟩
  | cons x texts ih =>
    obtain ⟨path, text⟩ := x
    rw [List.forall_mem_cons] at hnull
    match hwrite : writeFile s path (Text.Utf8.encode text) with
    | (s₁, .ok ()) =>
      rcases ih s₁ hnull.2 with ⟨s', h⟩ | ⟨before, path', text', after, s₂, s₃, e, rfl, h, hrefused⟩
      · exact .inl ⟨s', .cons hwrite h⟩
      · exact .inr ⟨(path, text) :: before, path', text', after, s₂, s₃, e, rfl, .cons hwrite h,
          hrefused⟩
    | (s₁, .error (.refused e)) =>
      exact .inr ⟨[], path, text, texts, s, s₁, e, rfl, .nil s, hwrite⟩
    | (s₁, .error .nullCharacter) =>
      exact absurd (congrArg Prod.snd hwrite) (Lawful.writeFile_ne_nullCharacter s hnull.1 _)

theorem assembleFile_of_ok (hsource : assembleSource s source = .ok a) :
    assembleFile s source outDir =
      match writeInto s outDir (outputTexts source outDir a) with
      | (s, .ok ()) => (s, .ok ⟨a, (Path.outputs source outDir).1, (Path.outputs source outDir).2⟩)
      | (s, .error failure) => (s, .error failure) := by
  rw [assembleFile, hsource]
  rfl

/-- What has been opened is cleaned up before the refusal is reported. -/
theorem writeInto_of_writeFails (h : WriteFails s source outDir a paths path e s₁) :
    writeInto s outDir (outputTexts source outDir a) =
      match discard s₁ paths with
      | (s, .ok ()) => (s, .error (.reported (.cannotWrite path e) none))
      | (s, .error failure) => (s, .error failure) := by
  cases h with
  | directory hmake =>
    rw [writeInto, hmake]
    rfl
  | output hmake htexts hwrote hwrite =>
    rw [writeInto, hmake, htexts]
    simp only [writeTexts_append hwrote, writeTexts, hwrite, List.nil_append]
    rfl

theorem assembleFile_of_cleanedUp (hsource : assembleSource s source = .ok a)
    (h : WriteFails s source outDir a paths path e s₁) (hcleaned : CleanedUp s₁ paths s') :
    assembleFile s source outDir = (s', .error (.reported (.cannotWrite path e) none)) := by
  rw [assembleFile_of_ok hsource, writeInto_of_writeFails h, discard_of_cleanedUp hcleaned]

theorem assembleFile_of_removalFails (hsource : assembleSource s source = .ok a)
    (h : WriteFails s source outDir a paths path e s₁) {e' : FileError}
    (hfails : RemovalFails s₁ paths p e' s') :
    assembleFile s source outDir = (s', .error (.aborted (.cannotRemove p e'))) := by
  rw [assembleFile_of_ok hsource, writeInto_of_writeFails h, discard_of_removalFails hfails]

theorem null_not_mem_outputTexts (hsource : '\x00' ∉ source) (houtDir : '\x00' ∉ outDir) :
    ∀ x ∈ outputTexts source outDir a, '\x00' ∉ x.1 := by
  intro x hx
  rcases List.mem_pair.1 hx with rfl | rfl
  · exact Path.not_mem_output Path.isName_listingSuffix (by decide) hsource houtDir (by decide)
  · exact Path.not_mem_output Path.isName_loadSuffix (by decide) hsource houtDir (by decide)

theorem WriteFails.null_not_mem_opened (h : WriteFails s source outDir a paths path e s₁)
    (hsource : '\x00' ∉ source) (houtDir : '\x00' ∉ outDir) : ∀ p ∈ paths, '\x00' ∉ p := by
  cases h with
  | directory hmake => exact List.forall_mem_nil _
  | output hmake htexts hwrote hwrite =>
    have hnull := null_not_mem_outputTexts hsource houtDir (a := a)
    rw [htexts] at hnull
    intro p hp
    rcases List.mem_append.1 hp with hp | hp
    · obtain ⟨x, hx, rfl⟩ := List.mem_map.1 hp
      exact hnull x (List.mem_append_left _ hx)
    · obtain rfl := List.mem_singleton.1 hp
      exact hnull _ (List.mem_append_right _ List.mem_cons_self)

/-- An assembly that fails after its source is assembled has been refused something to write. -/
theorem writeFails_of_assembleFile [Lawful σ] (hsource : assembleSource s source = .ok a)
    (hnull : '\x00' ∉ source) (hnull' : '\x00' ∉ outDir) {failure : Failure}
    (h : assembleFile s source outDir = (s', .error failure)) :
    ∃ opened path e s₁, WriteFails s source outDir a opened path e s₁ := by
  match hmake : makeDirectories s outDir with
  | (s₀, .error (.refused e)) => exact ⟨_, _, _, _, .directory hmake⟩
  | (s₀, .error .nullCharacter) =>
    exact absurd (congrArg Prod.snd hmake) (makeDirectories_ne_nullCharacter s hnull')
  | (s₀, .ok ()) =>
    rcases wrote_or_refused s₀ (null_not_mem_outputTexts hnull hnull' (a := a)) with
      ⟨s₁, hwrote⟩ | ⟨before, path, text, after, s₁, s₂, e, htexts, hwrote, hwrite⟩
    · -- All output files have been written, so the assembly has not failed.
      have hwrites := writeTexts_append hwrote [] []
      rw [List.append_nil] at hwrites
      rw [assembleFile_of_ok hsource, writeInto, hmake] at h
      simp only [hwrites, writeTexts] at h
      cases h
    · exact ⟨_, _, _, _, .output hmake htexts hwrote hwrite⟩

end WordMachine.FileSystem
