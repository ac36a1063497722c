import WordMachine.Numeral.Reading
import WordMachine.Text.Quoted

namespace WordMachine.CommandLine

inductive Switch where
  | help
  | outdir
  | quiet
deriving DecidableEq

def spellings : List (Text × Switch) := [
  ("-h".toList, .help), ("--help".toList, .help), ("--outdir".toList, .outdir),
  ("--quiet".toList, .quiet), ("-q".toList, .quiet)]

def Switch.title : Switch → String
  | help => "-h/--help"
  | outdir => "--outdir"
  | quiet => "--quiet/-q"

/-- One argument of the command line. -/
inductive Argument where
  | word (t : Text)
  | separator
  /-- An option: the switch, whether it is a short one, and the argument written with it. -/
  | option (switch : Switch) (short : Bool) (attached? : Option Text)
  /-- It looks like an option, but there is none of that name. -/
  | unknown (t : Text)

inductive UsageError where
  | ambiguous (argument : Text) (candidates : List Text)
  | missingArgument (switch : Switch)
  | ignoredArgument (switch : Switch) (argument : Text)
  | missingSource
  | unrecognized (arguments : List Text)

def UsageError.message : UsageError → String
  | ambiguous a candidates =>
    "ambiguous option: " ++ String.ofList a ++ " could match " ++
      ", ".intercalate (candidates.map String.ofList)
  | missingArgument s => "argument " ++ s.title ++ ": expected one argument"
  | ignoredArgument s a =>
    "argument " ++ s.title ++ ": ignored explicit argument " ++ String.ofList (Text.quoted a)
  | missingSource => "the following arguments are required: source"
  | unrecognized l => "unrecognized arguments: " ++ " ".intercalate (l.map String.ofList)

def isLong (t : Text) : Bool := "--".toList.isPrefixOf t

/-- Negative numbers are plain words: a minus and digits, or digits around a point. -/
def isNegativeNumber (t : Text) : Bool :=
  let t := if t.getLast? = some '\n' then t.dropLast else t
  match t with
  | '-' :: rest =>
    match Text.cut '.' rest with
    | (whole, none) => whole ≠ [] && whole.all Numeral.isDecimalDigit
    | (whole, some fraction) =>
      whole.all Numeral.isDecimalDigit && fraction ≠ [] && fraction.all Numeral.isDecimalDigit
  | _ => false

/-- The options that a text may mean. A long one may be shortened as long as only one is meant. -/
def candidates (t : Text) : List (Text × Switch × Option Text) :=
  if isLong t then
    let (name, attached?) := Text.cut '=' t
    (spellings.filter fun s => name.isPrefixOf s.1).map fun s => (s.1, s.2, attached?)
  else
    (spellings.filter fun s => s.1 = t.take 2).map fun s => (s.1, s.2, some (t.drop 2))

def classify (t : Text) : Except UsageError Argument :=
  if t.head? ≠ some '-' then .ok (.word t)
  else match spellings.lookup t with
    | some s => .ok (.option s (!isLong t) none)
    | none =>
      if t = ['-'] then .ok (.word t)
      else
        let (name, attached?) := Text.cut '=' t
        match attached?, spellings.lookup name with
        | some attached, some s => .ok (.option s (!isLong name) (some attached))
        | _, _ =>
          match candidates t with
          | [(name, s, attached?)] => .ok (.option s (!isLong name) attached?)
          | [] => .ok (if isNegativeNumber t ∨ ' ' ∈ t then .word t else .unknown t)
          | several => .error (.ambiguous t (several.map (·.1)))

def classifyAll : List Text → Except UsageError (List Argument)
  | [] => .ok []
  | t :: rest =>
    if t = "--".toList then .ok (.separator :: rest.map .word)
    else do
      let argument ← classify t
      let arguments ← classifyAll rest
      return argument :: arguments

structure Options where
  source : Text
  /-- The directory to write to. There is none if `--` is given for it. -/
  outdir? : Option Text
  quiet : Bool
deriving DecidableEq

inductive Request where
  | help
  | assemble (options : Options)

structure Reading where
  source? : Option Text
  outdir? : Option Text
  quiet : Bool
  /-- Arguments that no option takes, the last one first. -/
  extras : List Text

def shortSwitch? : Text → Option (Switch × Text)
  | [] => none
  | c :: rest => (spellings.lookup ['-', c]).map (·, rest)

/-- The switches of an option without argument that has a text attached: after a short option, the
text may hold further short options. `budget` bounds their number. -/
def combined (s : Switch) (short : Bool) : (budget : Nat) → Text → Except UsageError (List Switch)
  | 0, attached => .error (.ignoredArgument s attached)
  | budget + 1, attached =>
    if short then
      match shortSwitch? attached with
      | some (next, []) => .ok [s, next]
      | some (next, rest) => (s :: ·) <$> combined next true budget rest
      | none => .error (.ignoredArgument s attached)
    else .error (.ignoredArgument s attached)

/-- Carries out switches without arguments; a call for help ends the reading. -/
def turnOn (r : Reading) (switches : List Switch) : Option Reading :=
  if .help ∈ switches then none else some { r with quiet := r.quiet || .quiet ∈ switches }

def named? (t : Text) : Option Text := if t = "--".toList then none else some t

/-- Reads the arguments from left to right. The first word is the source; a separator next to it
belongs to it. -/
def readArguments (r : Reading) : List Argument → Except UsageError (Option Reading)
  | [] => .ok (some r)
  | .word t :: .separator :: rest =>
    if r.source?.isNone then readArguments { r with source? := some t } rest
    else readArguments { r with extras := "--".toList :: t :: r.extras } rest
  | .word t :: rest =>
    if r.source?.isNone then readArguments { r with source? := some t } rest
    else readArguments { r with extras := t :: r.extras } rest
  | .separator :: rest =>
    if r.source?.isNone then readArguments r rest
    else readArguments { r with extras := "--".toList :: r.extras } rest
  | .unknown t :: rest => readArguments { r with extras := t :: r.extras } rest
  | .option .outdir _ (some directory) :: rest =>
    readArguments { r with outdir? := named? directory } rest
  | .option .outdir _ none :: .word directory :: rest =>
    readArguments { r with outdir? := some directory } rest
  | .option .outdir _ none :: _ => .error (.missingArgument .outdir)
  | .option s short attached? :: rest => do
    let switches ← match attached? with
      | none => .ok [s]
      | some attached => combined s short attached.length attached
    match turnOn r switches with
    | some r => readArguments r rest
    | none => return none

def readOptions (arguments : List Text) : Except UsageError Request := do
  let arguments ← classifyAll arguments
  match ← readArguments ⟨none, some "txt".toList, false, []⟩ arguments with
  | none => return .help
  | some r =>
    match r.source? with
    | none => .error .missingSource
    | some source =>
      if r.extras = [] then return .assemble ⟨source, r.outdir?, r.quiet⟩
      else .error (.unrecognized r.extras.reverse)

end WordMachine.CommandLine
