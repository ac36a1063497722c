import WordMachine.Assembly.Files
import WordMachine.Proofs.Assembly.StartAddress
import WordMachine.Proofs.Files.Writing

namespace WordMachine

namespace FileSystem

variable {σ : Type} [FileSystem σ] {s s' : σ} {source outDir : Text}

def outputTexts (source outDir : Text) (a : Assembly) : List (Text × Text) :=
  [((Path.outputs source outDir).1, a.listing), ((Path.outputs source outDir).2, a.load)]

/-- Texts written to files, one after the other. -/
inductive Wrote : σ → List (Text × Text) → σ → Prop where
  | nil (s : σ) : Wrote s [] s
  | cons {s s₁ s₂ : σ} {path text : Text} {rest : List (Text × Text)}
      (hwrite : writeFile s path (Text.Utf8.encode text) = (s₁, .ok ()))
      (hrest : Wrote s₁ rest s₂) : Wrote s ((path, text) :: rest) s₂

theorem wrote_of_writeTexts {opened : List Text} {texts : List (Text × Text)}
    (h : writeTexts s opened texts = (s', .ok ())) : Wrote s texts s' := by
  induction texts generalizing s opened with
  | nil =>
    cases h
    exact .nil _
  | cons x rest ih =>
    rw [writeTexts] at h
    split at h
    · next hwrite => exact .cons hwrite (ih h)
    · cases h
    · split at h <;> cases h

theorem assembleFile_of_error {failure : Failure} (h : assembleSource s source = .error failure) :
    assembleFile s source outDir = (s, .error failure) := by
  rw [assembleFile, h]

/-- What the assembly of a file has read, made and written when it succeeds. -/
theorem wrote_of_assembleFile {w : WrittenAssembly}
    (h : assembleFile s source outDir = (s', .ok w)) :
    assembleSource s source = .ok w.assembly ∧
      (w.listingPath, w.loadPath) = Path.outputs source outDir ∧
      ∃ s₀, makeDirectories s outDir = (s₀, .ok ()) ∧
        Wrote s₀ (outputTexts source outDir w.assembly) s' := by
  rw [assembleFile] at h
  split at h
  · cases h
  · next assembly hsource =>
    simp only [writeInto] at h
    split at h
    · next hinto =>
      cases h
      split at hinto
      · next s₀ hmade => exact ⟨hsource, rfl, s₀, hmade, wrote_of_writeTexts hinto⟩
      · cases hinto
      · cases hinto
    · cases h

end FileSystem

namespace FileTree

variable {t t' : FileTree}

theorem readText_of_find {path text : Text} (hnull : '\x00' ∉ path) (hcr : '\r' ∉ text)
    (h : t.find path = .ok (.file (Text.Utf8.encode text))) : t.readText path = .ok text := by
  simp only [FileSystem.readText, readFile_eq, readFile_of_find hnull h, Text.Utf8.decode_encode,
    Text.unifyLineBreaks_of_not_mem hcr]

theorem writes_of_assembleFile {source outDir : Text} {w : WrittenAssembly}
    (h : t.assembleFile source outDir = (t', .ok w)) :
    t.assembleSource source = .ok w.assembly ∧
      (w.listingPath, w.loadPath) = Path.outputs source outDir ∧
      (t.makeDirectories outDir).2 = .ok () ∧
      ∃ t₁ : FileTree,
        (t.makeDirectories outDir).1.writeFile w.listingPath
          (Text.Utf8.encode w.assembly.listing) = .ok t₁ ∧
        t₁.writeFile w.loadPath (Text.Utf8.encode w.assembly.load) = .ok t' := by
  obtain ⟨hsource, hpaths, t₀, hmade, hwrote⟩ := FileSystem.wrote_of_assembleFile h
  obtain ⟨a, listingPath, loadPath⟩ := w
  obtain ⟨rfl, rfl⟩ := Prod.mk.inj hpaths
  -- First the listing has been written, then the load text.
  cases hwrote with
  | cons h₁ hrest =>
    cases hrest with
    | cons h₂ hnil =>
      cases hnil
      rw [show t.makeDirectories outDir = (t₀, .ok ()) from hmade]
      exact ⟨hsource, rfl, rfl, _, changed_eq_ok.1 h₁, changed_eq_ok.1 h₂⟩

theorem assembleFile_eq_ok {source outDir : Text} {w : WrittenAssembly}
    (h : t.assembleFile source outDir = (t', .ok w)) :
    t.assembleSource source = .ok w.assembly ∧
      (w.listingPath, w.loadPath) = Path.outputs source outDir ∧
      ∃ t₀ t₁ : FileTree, t₀.writeFile w.listingPath (Text.Utf8.encode w.assembly.listing) = .ok t₁ ∧
        t₁.writeFile w.loadPath (Text.Utf8.encode w.assembly.load) = .ok t' := by
  obtain ⟨hsource, hpaths, -, hwrites⟩ := writes_of_assembleFile h
  exact ⟨hsource, hpaths, _, hwrites⟩

/-- Both files are found after they have been written, the listing also under the path that is
looked for beside the load file. -/
theorem find_outputs {t₀ t₁ : FileTree} {source outDir : Text} {listing load : List UInt8}
    (hlisting : t₀.writeFile (Path.outputs source outDir).1 listing = .ok t₁)
    (hload : t₁.writeFile (Path.outputs source outDir).2 load = .ok t') :
    t'.find (Path.siblingListing (Path.outputs source outDir).2) = .ok (.file listing) ∧
      t'.find (Path.outputs source outDir).2 = .ok (.file load) := by
  rw [Path.siblingListing_outputs]
  refine find_join_of_writes (Path.isName_output Path.isName_listingSuffix source)
    (Path.isName_output Path.isName_loadSuffix source) ?_ hlisting hload
  exact fun e => absurd (List.append_cancel_left e) (by decide)

end FileTree

variable {t t' : FileTree} {source outDir : Text} {w : WrittenAssembly}

theorem WrittenAssembly.ofText (h : t.assembleFile source outDir = (t', .ok w)) {text : Text}
    (hread : t.readText source = .ok text) : Assembly.ofText text = .ok w.assembly := by
  have hsource := (FileTree.assembleFile_eq_ok h).1
  obtain ⟨text', hread', h⟩ := bind_eq_ok.1 hsource
  obtain rfl := Except.ok.inj (hread.symm.trans hread')
  exact h

namespace LoadImage

/-- The load file of an assembly is read as its records, and the listing beside it tells where
they start. -/
theorem ofFile_startHint?_outputs {text : Text} {a : Assembly}
    (ha : Assembly.ofText text = .ok a) {t₀ t₁ : FileTree}
    (hlisting : t₀.writeFile (Path.outputs source outDir).1 (Text.Utf8.encode a.listing) = .ok t₁)
    (hload : t₁.writeFile (Path.outputs source outDir).2 (Text.Utf8.encode a.load) = .ok t') :
    ofFile t' (Path.outputs source outDir).2 = .ok a.records ∧
      startHint? t' (Path.outputs source outDir).2 a.records =
        shownStart? a.listing a.records := by
  obtain ⟨hfind₁, hfind₂⟩ := FileTree.find_outputs hlisting hload
  have hnull := (FileTree.writeFile_eq_ok hload).1
  have hnull' : '\x00' ∉ Path.siblingListing (Path.outputs source outDir).2 :=
    Path.not_mem_siblingListing (FileTree.writeFile_eq_ok hlisting).1
  constructor
  · rw [ofFile, FileTree.readText_of_find hnull (Assembly.carriageReturn_not_mem_load ha) hfind₂]
    exact Assembly.read_load ha
  · rw [startHint?, shownStart?]
    simp only [FileTree.hasFile_of_find hnull' hfind₁, if_true,
      FileTree.readText_of_find hnull' (Assembly.carriageReturn_not_mem_listing ha) hfind₁]
    cases firstInstruction? a.listing <;> rfl

end LoadImage
end WordMachine
