import WordMachine.CommandLine.Basic
import WordMachine.Proofs.Assembly.AllOrNothing
import WordMachine.Proofs.Assembly.Undoing
import WordMachine.Proofs.Files.Guarded

namespace WordMachine

namespace CommandLine

variable {σ : Type} [FileSystem σ] {s s' : σ} {source outDir : Text} {arguments : List Text}
  {quiet : Bool}

theorem run_of_reported {cause : Cause}
    (hread : readOptions arguments = .ok (.assemble ⟨source, some outDir, quiet⟩))
    (h : FileSystem.assembleFile s source outDir = (s', .error (.reported cause none))) :
    run s arguments = ⟨s', "", "error: " ++ cause.message ++ "\n", .returned 1⟩ := by
  simp only [run, hread, assemble, h, locatedMessage]

theorem run_of_aborted {abort : Abort}
    (hread : readOptions arguments = .ok (.assemble ⟨source, some outDir, quiet⟩))
    (h : FileSystem.assembleFile s source outDir = (s', .error (.aborted abort))) :
    run s arguments = ⟨s', "", "", .aborted abort⟩ := by
  simp only [run, hread, assemble, h]

end CommandLine

open CommandLine in
/-- How an assembly ends that cannot write its output, in every file system. If it fails, it has
been refused the directory or one of the output files. Unless a removal of the clean-up is refused
then, nothing is left at the paths that it has opened, the failure is reported, and a call of the
program prints it and returns 1. A removal that is refused ends the program without a report, before
what is at the paths after it is removed. -/
theorem FileSystem.failed_write_undone {σ : Type} [FileSystem σ] [Lawful σ] {s : σ}
    {source outDir : Text} {a : Assembly} (hsource : assembleSource s source = .ok a)
    (hnull : '\x00' ∉ source) (hnull' : '\x00' ∉ outDir) :
    (∀ s' failure, assembleFile s source outDir = (s', .error failure) →
      ∃ opened path e s₁, WriteFails s source outDir a opened path e s₁) ∧
    ∀ opened path e s₁, WriteFails s source outDir a opened path e s₁ →
      ((∀ p e' s', ¬ RemovalFails s₁ opened p e' s') →
        ∃ s' cause, CleanedUp s₁ opened s' ∧ (∀ p ∈ opened, hasEntry s' p = false) ∧
          cause.kind = .io ∧
          cause.message = "Cannot write " ++ String.ofList path ++ ": " ++ e.message ∧
          assembleFile s source outDir = (s', .error (.reported cause none)) ∧
          ∀ arguments quiet, readOptions arguments = .ok (.assemble ⟨source, some outDir, quiet⟩) →
            run s arguments = ⟨s', "", "error: " ++ cause.message ++ "\n", .returned 1⟩) ∧
      ∀ p e' s', RemovalFails s₁ opened p e' s' →
        assembleFile s source outDir = (s', .error (.aborted (.cannotRemove p e'))) ∧
        ∀ arguments quiet, readOptions arguments = .ok (.assemble ⟨source, some outDir, quiet⟩) →
          run s arguments = ⟨s', "", "", .aborted (.cannotRemove p e')⟩ := by
  refine ⟨fun s' failure h => writeFails_of_assembleFile hsource hnull hnull' h, ?_⟩
  intro opened path e s₁ h
  constructor
  · intro hfree
    rcases cleanedUp_or_removalFails s₁ (h.null_not_mem_opened hnull hnull') with
      ⟨s', hcleaned⟩ | ⟨p, e', s', hfails⟩
    · have hreported := assembleFile_of_cleanedUp hsource h hcleaned
      exact ⟨s', .cannotWrite path e, hcleaned, hcleaned.gone, rfl, rfl, hreported,
        fun arguments quiet hread => run_of_reported hread hreported⟩
    · exact absurd hfails (hfree p e' s')
  · intro p e' s' hfails
    have haborted := assembleFile_of_removalFails hsource h hfails
    exact ⟨haborted, fun arguments quiet hread => run_of_aborted hread haborted⟩

/-- A working directory that holds a program, and a directory where its load file should be. -/
def FileTree.obstructedFiles : FileTree :=
  ⟨[(["halt.asm".toList], .file (Text.Utf8.encode "HLT\n".toList)), (["out".toList], .directory),
    (["out".toList, "halt_load.txt".toList], .directory)], []⟩

theorem FileTree.wellFormed_obstructedFiles : obstructedFiles.WellFormed :=
  .of_entries rfl (by decide)

/-- A working directory that holds a program, and a file where the directory for its output should
be. -/
def FileTree.occupiedFiles : FileTree :=
  ⟨[(["halt.asm".toList], .file (Text.Utf8.encode "HLT\n".toList)), (["out".toList], .file [])], []⟩

/-- A working directory that holds a program and its output files. The load file may not be written,
and if the output is locked, nothing may be removed from its directory. -/
def GuardedTree.guardedFiles (locked : Bool) : GuardedTree where
  tree :=
    ⟨[(["halt.asm".toList], .file (Text.Utf8.encode "HLT\n".toList)), (["out".toList], .directory),
      (["out".toList, "halt_listing.txt".toList], .file []),
      (["out".toList, "halt_load.txt".toList], .file [])], []⟩
  refusal?
    | .openFile, l =>
      if l = ["out".toList, "halt_load.txt".toList] then some .permissionDenied else none
    | .remove, l => if locked ∧ l.dropLast = ["out".toList] then some .permissionDenied else none
    | _, _ => none

def haltArguments : List Text := ["--outdir".toList, "out".toList, "halt.asm".toList]

open CommandLine FileSystem GuardedTree in
open FileTree (obstructedFiles occupiedFiles) in
theorem failed_writes_of_halt :
    (∃ t', run obstructedFiles haltArguments =
      ⟨t', "", "", .aborted (.directoryInTheWay "out/halt_load.txt".toList)⟩) ∧
    (∃ t' message, run occupiedFiles haltArguments = ⟨t', "", message, .returned 1⟩) ∧
    (∃ g, run (guardedFiles true) haltArguments =
      ⟨g, "", "", .aborted (.cannotRemove "out/halt_listing.txt".toList .permissionDenied)⟩ ∧
      hasEntry g "out/halt_listing.txt".toList = true) ∧
    ∃ g message, run (guardedFiles false) haltArguments = ⟨g, "", message, .returned 1⟩ ∧
      hasEntry g "out/halt_listing.txt".toList = false ∧
      hasEntry g "out/halt_load.txt".toList = false := by
  have hnull : '\x00' ∉ "halt.asm".toList := by decide
  have hnull' : '\x00' ∉ "out".toList := by decide
  refine ⟨?obstructed, ?occupied, ?locked, ?unlocked⟩
  case obstructed =>
    obtain ⟨a, hsource⟩ : ∃ a, assembleSource obstructedFiles "halt.asm".toList = .ok a := ⟨_, rfl⟩
    have hends := (failed_write_undone hsource hnull hnull').2 _ _ _ _
      (.output rfl rfl (.cons rfl (.nil _)) rfl)
    -- The listing is removed again, and the directory is not.
    obtain ⟨-, hrun⟩ := hends.2 _ _ _ (.intro (.removed rfl rfl (.nil _)) rfl rfl)
    exact ⟨_, hrun haltArguments false rfl⟩
  case occupied =>
    obtain ⟨a, hsource⟩ : ∃ a, assembleSource occupiedFiles "halt.asm".toList = .ok a := ⟨_, rfl⟩
    have hends := (failed_write_undone hsource hnull hnull').2 _ _ _ _ (.directory rfl)
    obtain ⟨t', cause, -, -, -, -, -, hrun⟩ :=
      hends.1 fun _ _ _ => (CleanedUp.nil _).not_removalFails
    exact ⟨t', _, hrun haltArguments false rfl⟩
  case locked =>
    obtain ⟨a, hsource⟩ : ∃ a, assembleSource (guardedFiles true) "halt.asm".toList = .ok a :=
      ⟨_, rfl⟩
    have hends := (failed_write_undone hsource hnull hnull').2 _ _ _ _
      (.output rfl rfl (.cons rfl (.nil _)) rfl)
    -- The listing that has been written is the first that may not be removed.
    obtain ⟨-, hrun⟩ := hends.2 _ _ _ (.head rfl rfl _)
    exact ⟨_, hrun haltArguments false rfl, rfl⟩
  case unlocked =>
    obtain ⟨a, hsource⟩ : ∃ a, assembleSource (guardedFiles false) "halt.asm".toList = .ok a :=
      ⟨_, rfl⟩
    have hends := (failed_write_undone hsource hnull hnull').2 _ _ _ _
      (.output rfl rfl (.cons rfl (.nil _)) rfl)
    -- Both files are removed, the one that has been written and the one that has not.
    obtain ⟨g, cause, -, hgone, -, -, -, hrun⟩ := hends.1 fun _ _ _ =>
      (CleanedUp.removed rfl rfl (.removed rfl rfl (.nil _))).not_removalFails
    exact ⟨g, _, hrun haltArguments false rfl, hgone _ (.head _), hgone _ (.tail _ (.head _))⟩

theorem FileTree.not_forall_failure_reported :
    ¬ ∀ (t t' : FileTree) (source outDir : Text) (a : Assembly) (failure : Failure),
      t.WellFormed → '\x00' ∉ source → '\x00' ∉ outDir → t.assembleSource source = .ok a →
      t.assembleFile source outDir = (t', .error failure) →
      ∃ cause line?, failure = .reported cause line? ∧ cause.kind = .io := by
  intro h
  obtain ⟨cause, line?, hreported, -⟩ := h obstructedFiles _ "halt.asm".toList "out".toList _
    (.aborted (.directoryInTheWay "out/halt_load.txt".toList)) wellFormed_obstructedFiles
    (by decide) (by decide) rfl rfl
  cases hreported

end WordMachine
