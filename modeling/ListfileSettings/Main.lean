import ListfileSettings.CommandLine.Arguments
import ListfileSettings.CommandLine.Run

/-!
# The program

Runs the command that the arguments ask for. The files that the command looks at and the variables
of the environment are read first; what is printed and what fails is decided by the library.
-/
namespace ListfileSettings.CommandLine

/-- The places that are passed on the way along a path. -/
def waypoints (cwd : Place) (path : String) : List Place :=
  (Path.pieces path).foldl (fun places piece => (places.headD []).step piece :: places)
    [Path.origin cwd path]

/-- Where settings files can be that are looked for from a path upwards. -/
def searchedPlaces (cwd : Place) (start : String) : List Place :=
  (Path.fold cwd start).ancestors.flatMap fun place => Search.fileNames.map fun n => place ++ [n]

def Options.places (o : Options) (cwd : Place) : List Place :=
  match o.command with
  | .check origin | .print origin _ =>
    match origin.file with
    | some path => waypoints cwd path
    | none => searchedPlaces cwd origin.directory
  | .locate start => searchedPlaces cwd start
  | .defaults _ => []

def usageText : String :=
  "Validate and inspect listfile formatter settings\n\n" ++
  "Usage: fmtrc [OPTIONS] <COMMAND>\n\n" ++
  "Commands:\n" ++
  "  check     Load and validate the settings, reporting the file used\n" ++
  "  show      Print the resolved settings\n" ++
  "  locate    Print the path of the settings file that discovery selects\n" ++
  "  defaults  Print the built-in defaults\n"

def Usage.text : Usage → String
  | .help | .helpForNothing => usageText
  | .version => "fmtrc 0.1.0\n"
  | .missingCommand => "error: a subcommand is required\n"
  | .unknownCommand => "error: unrecognized subcommand\n"
  | .unknownArgument => "error: unexpected argument\n"
  | .invalidValue => "error: invalid value for an argument\n"
  | .repeatedOption => "error: an argument cannot be used multiple times\n"
  | .unwantedValue => "error: unexpected value for an argument\n"
  | .notText => "error: invalid UTF-8 was detected in an argument\n"

def eventLine (e : Event) : String :=
  " ".intercalate (e.message :: e.fields.map fun (name, text) => name ++ "=" ++ text)

/-- The variable of an entry `NAME=value`. A name is not empty, so it can begin with the sign that
ends it. An entry without the sign is no variable. -/
def ofEntry? : List UInt8 → Option Variable
  | [] => none
  | first :: rest =>
    match rest.dropWhile (· ≠ 0x3D) with
    | [] => none
    | _ :: value => some ⟨first :: rest.takeWhile (· ≠ 0x3D), value⟩

/-- The variables of entries that end in a zero octet. -/
def environmentOf (bytes : List UInt8) : List Variable := (bytes.splitOn 0).filterMap ofEntry?

def readEntry (place : Place) : IO (Option Entry) := do
  try
    let bytes ← IO.FS.readBinFile place.path
    pure (some (.file bytes.toList))
  catch
    -- A directory opens but cannot be read, and that error names no file.
    | .inappropriateType none .. => pure (some .directory)
    | _ => pure none

def readFiles (places : List Place) : IO FileSystem := do
  let mut fs := FileSystem.empty
  for place in places do
    if let some entry ← readEntry place then
      fs := fs.insert place entry
  return fs

def execute (o : Options) (cwd : Place) (environment : List Variable) : IO UInt32 := do
  if let .error f := o.logSetup.start false then
    IO.eprintln ("Error: failed to initialize logging: " ++ f.message)
    return 1
  let files ← readFiles (o.places cwd)
  let outcome := o.run { files, cwd, environment }
  for e in outcome.events do
    if e.level = .warn then IO.eprintln ("WARN " ++ eventLine e)
  match outcome.result with
  | .ok text =>
    IO.print text
    return 0
  | .error (.failure f) =>
    IO.eprintln ("Error: " ++ f.message)
    return 1
  | .error .crash =>
    IO.eprintln "a variable of the environment is not text"
    return 101

end ListfileSettings.CommandLine

open ListfileSettings ListfileSettings.CommandLine in
def main (args : List String) : IO UInt32 := do
  let environment := environmentOf (← IO.FS.readBinFile "/proc/self/environ").toList
  let cwd := Path.fold [] (toString (← IO.currentDir))
  match Options.ofArguments environment args with
  | .error usage =>
    if usage = .help || usage = .version then
      IO.print usage.text
      return 0
    else
      IO.eprint usage.text
      return 2
  | .ok o => execute o cwd environment
