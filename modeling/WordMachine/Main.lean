import WordMachine.CommandLine.Basic

namespace WordMachine.Main

def waypoints (path : Text) : List Text :=
  let names := Text.splitOn '/' path
  ((List.range names.length).map fun i => Text.join ['/'] (names.take (i + 1))).filter
    (!·.isEmpty)

/-- Every path that a call can read or write, those above before those below. -/
def reachablePaths (options : CommandLine.Options) : List Text :=
  let outputs := match options.outdir? with
    | some directory =>
      let (listing, load) := Path.outputs options.source directory
      [directory, listing, load]
    | none => []
  (options.source :: outputs).flatMap waypoints

def depth : Nat := 256

/-- A tree without files. The working directory is deep, so that a path may lead above it, and the
empty names of those directories occur in no path. -/
def emptyTree : FileTree :=
  ⟨(List.range depth).map fun i => (List.replicate (i + 1) [], .directory),
    List.replicate depth []⟩

def lookUp (path : Text) : IO (Option Entry) := do
  try
    let bytes ← IO.FS.readBinFile (String.ofList path)
    return some (.file bytes.toList)
  catch
    | .inappropriateType .. => return some .directory
    | .noFileOrDirectory .. => return none
    | e => throw e

def survey (paths : List Text) : IO FileTree :=
  paths.foldlM (fun t path => do
    match t.locate path with
    | .error _ => return t
    | .ok l =>
      if (t.get? l).isSome then return t
      match ← lookUp path with
      | some e => return t.insert l e
      | none => return t) emptyTree

def settle (before after : FileTree) (path : Text) : IO Unit := do
  let name := String.ofList path
  match before.find path, after.find path with
  | .error _, .ok .directory => IO.FS.createDir name
  | .ok (.file old), .ok (.file new) =>
    if old ≠ new then IO.FS.writeBinFile name ⟨new.toArray⟩
  | _, .ok (.file new) => IO.FS.writeBinFile name ⟨new.toArray⟩
  | .ok (.file _), .error _ => IO.FS.removeFile name
  | _, _ => return

end WordMachine.Main

open WordMachine in
def main (arguments : List String) : IO UInt32 := do
  let arguments := arguments.map String.toList
  let paths := match CommandLine.readOptions arguments with
    | .ok (.assemble options) => Main.reachablePaths options
    | _ => []
  let files ← Main.survey paths
  let report := CommandLine.run files arguments
  paths.eraseDups.forM (Main.settle files report.files)
  IO.print report.output
  IO.eprint report.errors
  match report.ending with
  | .returned code | .exited code => return UInt32.ofNat code
  | .aborted abort =>
    IO.eprintln abort.message
    return 1
