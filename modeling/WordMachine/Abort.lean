import WordMachine.Files.System
import WordMachine.Numeral.Reading
import WordMachine.Text.Quoted

namespace WordMachine

/-- A failure that is not reported: it ends the operation that meets it. -/
inductive Abort where
  | unreadable (error : Numeral.ReadError)
  | unwritable
  | negativeWidth
  | nullInPath
  | cannotRemove (path : Text) (error : FileError)
  | noDirectory

@[match_pattern]
abbrev Abort.directoryInTheWay (path : Text) : Abort := .cannotRemove path .isDirectory

/-- How much of a malformed numeral a message shows. -/
def shownNumeral : Nat := 200

def Abort.message : Abort → String
  | unreadable (.malformed base t) =>
    s!"invalid literal for int() with base {base.radix}: " ++
      String.ofList ((Text.quoted t).take shownNumeral)
  | unreadable (.tooManyDigits n) =>
    s!"Exceeds the limit ({Numeral.maxDigits} digits) for integer string conversion: " ++
      s!"value has {n} digits; use sys.set_int_max_str_digits() to increase the limit"
  | unwritable =>
    s!"Exceeds the limit ({Numeral.maxDigits} digits) for integer string conversion; " ++
      "use sys.set_int_max_str_digits() to increase the limit"
  | negativeWidth => "negative shift count"
  | nullInPath => "embedded null byte"
  | cannotRemove p e => s!"[Errno {e.code}] " ++ e.message ++ ": " ++ String.ofList (Text.quoted p)
  | noDirectory => "expected str, bytes or os.PathLike object, not list"

end WordMachine
