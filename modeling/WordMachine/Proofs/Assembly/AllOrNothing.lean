import WordMachine.Proofs.Assembly.OutputFiles
import WordMachine.Proofs.Files.Directories

namespace WordMachine.FileTree

variable {t t' : FileTree} {source outDir : Text} {w : WrittenAssembly}

theorem find_of_assembleSource {a : Assembly} (h : t.assembleSource source = .ok a) :
    '\x00' ∉ source ∧ ∃ bytes, t.find source = .ok (.file bytes) := by
  obtain ⟨text, htext, -⟩ := bind_eq_ok.1 h
  rw [FileSystem.readText, readFile_eq] at htext
  split at htext
  · cases htext
  · cases htext
  · next bytes hbytes => exact ⟨(find_of_readFile hbytes).1, bytes, (find_of_readFile hbytes).2⟩

/-- A file is found under its own name. -/
theorem WellFormed.getLast?_of_find (h : t.WellFormed) {path : Text} {bytes : List UInt8}
    {l : Location} (hfind : t.find path = .ok (.file bytes)) (hl : t.locate path = .ok l) :
    l.getLast? = some (Path.baseName path) := by
  obtain ⟨hslash, l', hl', hget⟩ := find_eq_file hfind
  obtain rfl : l = l' := Except.ok.inj (hl.symm.trans hl')
  obtain ⟨k, name, hname, -, rfl⟩ := h.locate hl (by simp [hget])
  rw [Path.getLast?_parts (locate_eq_ok_iff.1 hl).1 hslash] at hname
  rw [List.getLast?_concat, hname]

theorem WellFormed.of_writeFile (h : t.WellFormed) {path : Text} {bytes : List UInt8}
    (hwrite : t.writeFile path bytes = .ok t') : t'.WellFormed := by
  obtain ⟨-, l, hl, hne, rfl⟩ := writeFile_eq_ok hwrite
  exact h.insert hl hne _

/-- The source is not where an output file is. -/
theorem WellFormed.ne_output (h : t.WellFormed) {suffix : Text} (hsuffix : Path.IsName suffix)
    (hdot : suffix.head? ≠ some '.') {bytes : List UInt8} {l l' : Location}
    (hfind : t.find source = .ok (.file bytes)) (hl : t.locate source = .ok l)
    (hl' : t'.locate (Path.join outDir (Path.stem (Path.baseName source) ++ suffix)) = .ok l') :
    l ≠ l' := by
  rintro rfl
  have hlast := (h.getLast?_of_find hfind hl).symm.trans
    (getLast?_of_locate_join (Path.isName_output hsuffix source) hl')
  exact Path.stem_append_ne hsuffix.ne_nil hdot (Option.some.inj hlast).symm

/-- What the assembly of a file leaves when it succeeds. -/
structure AssemblyLeft (t t' : FileTree) (source outDir : Text) (w : WrittenAssembly) : Prop where
  assembled : t.assembleSource source = .ok w.assembly
  paths : (w.listingPath, w.loadPath) = Path.outputs source outDir
  listing : t'.readFile w.listingPath = .ok (Text.Utf8.encode w.assembly.listing)
  load : t'.readFile w.loadPath = .ok (Text.Utf8.encode w.assembly.load)
  records : LoadImage.ofFile t' w.loadPath = .ok w.assembly.records
  directory : t'.find outDir = .ok .directory
  workingDirectory : t'.workingDirectory = t.workingDirectory
  /-- But for the output files, only directories on the way of the one asked for may be new. -/
  elsewhere (l : Location) : t'.locate w.listingPath ≠ .ok l → t'.locate w.loadPath ≠ .ok l →
    t'.get? l = t.get? l ∨
      t.get? l = none ∧ t'.get? l = some .directory ∧ t'.LeadsThrough outDir l
  wellFormed : t.WellFormed → t'.WellFormed
  source : t.WellFormed → t'.find source = t.find source ∧
    ∀ l, t.locate source = .ok l → t'.locate w.listingPath ≠ .ok l ∧ t'.locate w.loadPath ≠ .ok l

theorem AssemblyLeft.of_assembleFile (h : t.assembleFile source outDir = (t', .ok w)) :
    AssemblyLeft t t' source outDir w := by
  obtain ⟨hsource, hpaths, hmade, t₁, h₁, h₂⟩ := writes_of_assembleFile h
  have hdirs := directoriesMade_makeDirectories t outDir
  generalize (t.makeDirectories outDir).1 = t₀ at h₁ hdirs
  obtain ⟨a, listingPath, loadPath⟩ := w
  obtain ⟨rfl, rfl⟩ := Prod.mk.inj hpaths
  -- The two names differ, so the files stand at two locations of the same directory.
  have hlistingName := Path.isName_output Path.isName_listingSuffix source
  have hloadName := Path.isName_output Path.isName_loadSuffix source
  obtain ⟨hwrites, l₁, l₂, hl, hl₁, hl₂, hget⟩ := get?_of_writes hlistingName hloadName
    (fun e => absurd (List.append_cancel_left e) (by decide)) h₁ h₂
  have hkeep := hdirs.keepsDirectories.trans hwrites
  have helse : ∀ l, l ≠ l₁ → l ≠ l₂ → t'.get? l = t₀.get? l := by
    intro l hne₁ hne₂
    rw [hget, if_neg hne₂, if_neg hne₁]
  refine ⟨hsource, rfl, ?listing, ?load, ?records, ?directory, hkeep.workingDirectory, ?elsewhere,
    ?wellFormed, ?source⟩
  case listing =>
    apply readFile_of_find (writeFile_eq_ok h₁).1
    apply find_of_locate hl₁ (Path.getLast?_join_ne _ hlistingName)
    rw [hget, if_neg hl, if_pos rfl]
  case load =>
    apply readFile_of_find (writeFile_eq_ok h₂).1
    apply find_of_locate hl₂ (Path.getLast?_join_ne _ hloadName)
    rw [hget, if_pos rfl]
  case records =>
    obtain ⟨text, -, htext⟩ := bind_eq_ok.1 hsource
    exact (LoadImage.ofFile_startHint?_outputs htext h₁ h₂).1
  case directory =>
    refine find_of_locate_join hloadName ?_ hl₂
    rintro rfl
    exact makeDirectories_nil_ne_ok t hmade
  case elsewhere =>
    intro l hlisting hload
    rw [helse l (fun e => hlisting (e ▸ hl₁)) (fun e => hload (e ▸ hl₂))]
    exact (hdirs.entry l).imp_right fun ⟨hnone, hnew, hleads⟩ => ⟨hnone, hnew, hleads.mono hwrites⟩
  case wellFormed =>
    intro hwell
    exact ((hdirs.wellFormed hwell).of_writeFile h₁).of_writeFile h₂
  case source =>
    intro hwell
    obtain ⟨-, bytes, hfind⟩ := find_of_assembleSource hsource
    have hne : ∀ l, t.locate source = .ok l → l ≠ l₁ ∧ l ≠ l₂ := fun l hl =>
      ⟨hwell.ne_output Path.isName_listingSuffix (by decide) hfind hl hl₁,
        hwell.ne_output Path.isName_loadSuffix (by decide) hfind hl hl₂⟩
    constructor
    · rw [hfind]
      refine find_of_keepsDirectories hkeep (fun l hl hget => ?_) hfind
      rw [helse l (hne l hl).1 (hne l hl).2]
      exact hdirs.get?_of_some hget
    · intro l hl
      exact ⟨fun hlisting => (hne l hl).1 (Except.ok.inj (hlisting.symm.trans hl₁)),
        fun hload => (hne l hl).2 (Except.ok.inj (hload.symm.trans hl₂))⟩

/-- Nothing changes unless the source is assembled, and a success leaves the output files of the
assembly, the directory they are in, and all else as it was. -/
theorem assembleFile_all_or_nothing (t : FileTree) (source outDir : Text) :
    (∀ failure, t.assembleSource source = .error failure →
      t.assembleFile source outDir = (t, .error failure)) ∧
    ∀ t' w, t.assembleFile source outDir = (t', .ok w) → AssemblyLeft t t' source outDir w :=
  ⟨fun _ h => FileSystem.assembleFile_of_error h, fun _ _ h => .of_assembleFile h⟩

def haltFiles : FileTree := ⟨[(["halt.asm".toList], .file (Text.Utf8.encode "HLT\n".toList))], []⟩

theorem wellFormed_haltFiles : haltFiles.WellFormed :=
  .of_entries rfl (by decide)

theorem haltFiles_all_or_nothing :
    ∃ failure t' w, haltFiles.assembleFile "other.asm".toList "a/out".toList =
        (haltFiles, .error failure) ∧
      haltFiles.assembleFile "halt.asm".toList "a/out".toList = (t', .ok w) ∧
      LoadImage.ofFile t' w.loadPath = .ok [⟨0, 0⟩] ∧
      t'.find "halt.asm".toList = haltFiles.find "halt.asm".toList := by
  refine ⟨_, _, _, (assembleFile_all_or_nothing haltFiles "other.asm".toList "a/out".toList).1 _ rfl,
    rfl, ?_⟩
  have hleft := (assembleFile_all_or_nothing haltFiles "halt.asm".toList "a/out".toList).2 _ _ rfl
  exact ⟨hleft.records, (hleft.source wellFormed_haltFiles).1⟩

end WordMachine.FileTree
