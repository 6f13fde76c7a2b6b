import ListfileSettings.Choice
import ListfileSettings.Text.Blank
import ListfileSettings.Text.Case

/-!
# Paths

A path is text. Its pieces stand between slashes; a `Place` is the list of the names on the way
from the root. Folding a path goes through its pieces without looking at any file.
-/
namespace ListfileSettings

/-- The names on the way from the root. -/
abbrev Place := List String

namespace Place

/-- One piece further: nothing and a dot stay, two dots go up unless at the root. -/
def step (place : Place) (piece : String) : Place :=
  if piece = "" || piece = "." then place
  else if piece = ".." then place.dropLast
  else place ++ [piece]

def path (place : Place) : String :=
  if place.isEmpty then "/" else String.join (place.map ("/" ++ ·))

/-- The place and all places above it, the nearest first. -/
def ancestors (place : Place) : List Place :=
  (List.range (place.length + 1)).reverse.map place.take

end Place

namespace Path

def pieces (path : String) : List String := Text.split '/' path

def isAbsolute (path : String) : Bool := path.toList.head? = some '/'

/-- Where a path starts: at the root or in the working directory. -/
def origin (cwd : Place) (path : String) : Place := if isAbsolute path then [] else cwd

/-- The place of a path, by its pieces alone. -/
def fold (cwd : Place) (path : String) : Place := (pieces path).foldl Place.step (origin cwd path)

def join (directory name : String) : String :=
  match directory.toList.getLast? with
  | none => name
  | some '/' => directory ++ name
  | some _ => directory ++ "/" ++ name

/-- The last piece that is a name, if no two dots come after it. -/
def fileName? (path : String) : Option String :=
  match ((pieces path).filter fun p => p ≠ "" && p ≠ ".").getLast? with
  | some name => if name = ".." then none else some name
  | none => none

/-- What follows the last dot of a name, unless the dot is its first character. -/
def extension? (path : String) : Option String := do
  let name ← fileName? path
  let parts := Text.split '.' name
  let last ← parts.getLast?
  if parts.length < 2 || parts.dropLast = [""] then none else some last

end Path

/-- The encoding that the name of a file stands for. -/
def Encoding.ofPath (path : String) : Encoding :=
  match Path.extension? path with
  | some extension => if Text.asciiLower extension = "json" then .json else .assignments
  | none => .assignments

end ListfileSettings
