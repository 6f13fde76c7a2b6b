import ListfileSettings.Event
import ListfileSettings.Path
import ListfileSettings.Text.Utf8

/-!
# Files and the environment

What settings are loaded from: files, a working directory and the variables of the environment.
Looking up a path goes through its pieces from its origin; every piece needs the directory that it
is looked up in. A variable is a name and a value of any octets, which need not be texts. The settings
file is looked for in a directory and then in each directory above it, under a few names: the nearest
directory wins, and within a directory the first of the names.
-/
namespace ListfileSettings

inductive Entry where
  | file (bytes : List UInt8)
  | directory
  deriving DecidableEq, Repr

/-- What there is at each place. The root is a directory. -/
structure FileSystem where
  entries : List (Place × Entry)

namespace FileSystem

def empty : FileSystem := ⟨[]⟩

def at? (fs : FileSystem) (place : Place) : Option Entry :=
  if place.isEmpty then some .directory else fs.entries.lookup place

/-- Makes the directories on the way to a place, where there is nothing yet. -/
def withParents (fs : FileSystem) (place : Place) : FileSystem :=
  place.ancestors.tail.foldl
    (fun fs p => if (fs.at? p).isSome then fs else ⟨(p, .directory) :: fs.entries⟩) fs

/-- Puts an entry at a place, in place of what is there, and makes the directories above it. -/
def insert (fs : FileSystem) (place : Place) (entry : Entry) : FileSystem :=
  ⟨(place, entry) :: (fs.withParents place).entries⟩

def walk (fs : FileSystem) (place : Place) : List String → Option Place
  | [] => some place
  | piece :: pieces =>
    match fs.at? place with
    | some .directory => fs.walk (place.step piece) pieces
    | _ => none

end FileSystem

structure Variable where
  name : List UInt8
  value : List UInt8
  deriving DecidableEq, Repr

namespace Variable

def ofTexts (name value : String) : Variable :=
  ⟨Text.Utf8.encode name.toList, Text.Utf8.encode value.toList⟩

/-- The name and the value, if both encode texts. -/
def texts? (v : Variable) : Option (String × String) :=
  match Text.Utf8.decode v.name, Text.Utf8.decode v.value with
  | .ok name, .ok value => some (String.ofList name, String.ofList value)
  | _, _ => none

end Variable

structure World where
  files : FileSystem
  cwd : Place
  environment : List Variable

namespace World

/-- What a path leads to. The empty path leads nowhere. -/
def entry? (w : World) (path : String) : Option Entry :=
  if path = "" then none
  else do
    let place ← w.files.walk (Path.origin w.cwd path) (Path.pieces path)
    w.files.at? place

def exists? (w : World) (path : String) : Bool := (w.entry? path).isSome

def isFile (w : World) (path : String) : Bool :=
  match w.entry? path with
  | some (.file _) => true
  | _ => false

/-- The variables as texts, unless one of them encodes none. -/
def texts? (w : World) : Option (List (String × String)) := w.environment.mapM Variable.texts?

end World

/-! ### Finding the settings file -/

namespace Search

/-- The names of settings files, the most wanted first. -/
def fileNames : List String := [
  ".cmake-format.py",
  ".cmake-format",
  "cmake-format.py",
  ".cmake-format.json",
  "cmake-format.json"]

def inDirectory (w : World) (directory : String) : Option String :=
  (fileNames.map (Path.join directory)).find? w.isFile

def nearest (w : World) (place : Place) : Option String :=
  place.ancestors.findSome? fun p => inDirectory w p.path

/-- Looks for the settings file from a path upwards. -/
def upwards (w : World) (start : String) : Logged ε (Option String) := do
  let place := Path.fold w.cwd start
  match nearest w place with
  | some path =>
    Logged.emit (.discovered path)
    pure (some path)
  | none =>
    Logged.emit (.notDiscovered place.path)
    pure none

end Search

end ListfileSettings
