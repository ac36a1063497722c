import WordMachine.Failure
import WordMachine.Text.Basic

namespace WordMachine

/-- A line `label: op operand,operand ;comment`, each part of which may be missing. -/
structure SourceLine where
  text : Text
  label? : Option Text
  op? : Option Text
  operands : List Text
  comment? : Option Text
deriving DecidableEq

namespace SourceLine

/-- The operands in what follows the operation: pieces between commas, empty ones dropped, with
single spaces between the words of a piece. -/
def operandsOf (words : List Text) : List Text :=
  ((Text.splitOn ',' (Text.join [' '] words)).map Text.trim).filter (!·.isEmpty)

def splitLabel : List Text → Option Text × List Text
  | [] => (none, [])
  | word :: rest =>
    if word.getLast? = some ':' then (some word.dropLast, rest) else (none, word :: rest)

def read (text : Text) : SourceLine :=
  let (code, comment?) := Text.cut ';' text
  let (label?, words) := splitLabel (Text.words code)
  { text
    label?
    op? := words.head?
    operands := operandsOf words.tail
    comment? := comment?.map Text.trim }

/-- A line written anew for its operation, with single separators. Empty comments are left out. -/
def write (line : SourceLine) (op : Text) : Text :=
  (match line.label? with
    | some label => label ++ [':', ' ']
    | none => []) ++ op ++
  (if line.operands.isEmpty then [] else ' ' :: Text.join [','] line.operands) ++
  (match line.comment? with
    | some (c :: rest) => ' ' :: ';' :: c :: rest
    | _ => [])

/-- The line written anew. A line without an operation has no such form. -/
def source? (line : SourceLine) : Option Text := line.op?.map line.write

def summary (line : SourceLine) (number : Int) : Except Abort String :=
  showing [number] (s!"<SourceLine {number} " ++ String.ofList (Text.quoted line.text) ++ ">")

end SourceLine
end WordMachine
