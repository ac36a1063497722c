import WordMachine.Assembly.Files
import WordMachine.CommandLine.Options

namespace WordMachine.CommandLine

/-- How a call ends. -/
inductive Ending where
  | returned (code : Nat)
  /-- The program ends while it reads its options. -/
  | exited (code : Nat)
  | aborted (abort : Abort)

structure Report (σ : Type := FileTree) where
  files : σ
  output : String
  errors : String
  ending : Ending

def usage : String := "usage: c6461-assemble [-h] [--outdir OUTDIR] [--quiet] source\n"

def help : String := usage ++ "
Two-pass assembler for the C6461

positional arguments:
  source           assembly source file (.asm)

options:
  -h, --help       show this help message and exit
  --outdir OUTDIR  directory for the listing and load files (default: txt)
  --quiet, -q      do not report the files written

Examples:
  c6461-assemble test.asm
  c6461-assemble --outdir build test.asm
"

def writtenLines (w : WrittenAssembly) : String :=
  "Wrote listing: " ++ String.ofList w.listingPath ++ "\n" ++
  "Wrote load:    " ++ String.ofList w.loadPath ++ s!" ({w.assembly.records.length} word(s))\n"

section

variable {σ : Type} [FileSystem σ]

/-- Assembles the source file. If there is no directory to write to, the call ends once the source
is assembled. -/
def assemble (files : σ) (options : Options) : σ × Except Failure WrittenAssembly :=
  match options.outdir? with
  | some directory => FileSystem.assembleFile files options.source directory
  | none => (files, do
    let _ ← FileSystem.assembleSource files options.source
    .error (.aborted .noDirectory))

def run (files : σ) (arguments : List Text) : Report σ :=
  match readOptions arguments with
  | .error e => ⟨files, "", usage ++ "c6461-assemble: error: " ++ e.message ++ "\n", .exited 2⟩
  | .ok .help => ⟨files, help, "", .exited 0⟩
  | .ok (.assemble options) =>
    match assemble files options with
    | (files, .ok written) =>
      ⟨files, if options.quiet then "" else writtenLines written, "", .returned 0⟩
    | (files, .error (.reported cause line?)) =>
      ⟨files, "", "error: " ++ locatedMessage line? cause.message ++ "\n", .returned 1⟩
    | (files, .error (.aborted abort)) => ⟨files, "", "", .aborted abort⟩

end

end WordMachine.CommandLine
