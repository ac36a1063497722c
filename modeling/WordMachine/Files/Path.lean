import WordMachine.Text.Basic

namespace WordMachine.Path

def baseName (p : Text) : Text := (p.reverse.takeWhile (· != '/')).reverse

/-- What precedes the name, without the slashes at its end unless it has nothing else. -/
def directory (p : Text) : Text :=
  let head := Text.dropRightWhile (· != '/') p
  if head.all (· == '/') then head else Text.dropRightWhile (· == '/') head

/-- A directory and a name in it. A name that starts with a slash stands for itself. -/
def join (directory name : Text) : Text :=
  if name.head? = some '/' then name
  else if directory = [] ∨ directory.getLast? = some '/' then directory ++ name
  else directory ++ '/' :: name

/-- A name without its extension, the part from the last dot on. Dots at the beginning of the name
do not count. -/
def stem (name : Text) : Text :=
  let body := (Text.dropRightWhile (· != '.') name).dropLast
  if body.all (· == '.') then name else body

/-- The directory and the name that a path is made of, slashes at its end left out of account. -/
def parent (p : Text) : Text × Text :=
  if baseName p = [] then (directory (directory p), baseName (directory p))
  else (directory p, baseName p)

def listingSuffix : Text := "_listing.txt".toList

def loadSuffix : Text := "_load.txt".toList

def outputs (source outDir : Text) : Text × Text :=
  let name := stem (baseName source)
  (join outDir (name ++ listingSuffix), join outDir (name ++ loadSuffix))

/-- A stem without one `_load` at its end. -/
def dropLoadMark (name : Text) : Text :=
  let mark := "_load".toList
  if mark.isSuffixOf name then name.take (name.length - mark.length) else name

def siblingListing (load : Text) : Text :=
  join (directory load) (dropLoadMark (stem (baseName load)) ++ listingSuffix)

end WordMachine.Path
