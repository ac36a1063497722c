import WordMachine.Failure
import WordMachine.Text.Lines

namespace WordMachine

structure LoadRecord where
  address : Int
  word : Int
deriving DecidableEq

abbrev LoadImage := List LoadRecord

namespace LoadImage

def firstAddress? (records : LoadImage) : Option Int := records.head?.map (·.address)

def isSilent : Text → Bool
  | [] => true
  | '#' :: _ => true
  | ';' :: _ => true
  | '/' :: '/' :: _ => true
  | _ => false

theorem isSilent_cons {c : Char} (t : Text) (h : c ∉ ['#', ';', '/']) :
    isSilent (c :: t) = false := by
  simp only [List.mem_cons, List.not_mem_nil, or_false, not_or] at h
  unfold isSilent
  split
  · next e => cases e
  · next e => exact absurd (List.cons.inj e).1 h.1
  · next e => exact absurd (List.cons.inj e).1 h.2.1
  · next e => exact absurd (List.cons.inj e).1 h.2.2
  · rfl

def number (token : Text) : Except Cause Int :=
  (Numeral.readNumber token).mapError fun _ => .badRecord token

/-- The record of a line, if it holds one. What follows the first two tokens is not read. -/
def readLine (line : Text) : Except Cause (Option LoadRecord) :=
  let line := Text.trim line
  if isSilent line then .ok none
  else match Text.words line with
    | address :: word :: _ => do
      let address ← number address
      let word ← number word
      return some ⟨address, word⟩
    | _ => .error (.missingFields line)

def readLines (before : Nat) : List Text → Except Failure LoadImage
  | [] => .ok []
  | line :: rest => do
    let record? ← (readLine line).mapError (Failure.report · (some (before + 1 : Nat)))
    let records ← readLines (before + 1) rest
    return record?.toList ++ records

def read (text : Text) : Except Failure LoadImage := readLines 0 (Text.lines text)

end LoadImage
end WordMachine
