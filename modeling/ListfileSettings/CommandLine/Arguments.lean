import ListfileSettings.CommandLine.Options
import ListfileSettings.World

/-!
# Arguments

Reading the arguments of a command line. Arguments stand on two levels, before and after the name
of the command; the options that belong to no command can stand on either, and the later one
counts. A value is looked at only when the next option or the end of its level is reached.
-/
namespace ListfileSettings.CommandLine

/-- Why there is nothing to run: help or the version is asked for, or the arguments are wrong. -/
inductive Usage where
  | help
  | version
  /-- There are no arguments at all. -/
  | helpForNothing
  | missingCommand
  | unknownCommand
  | unknownArgument
  /-- A value that is none of the known ones, is empty or is missing. -/
  | invalidValue
  | repeatedOption
  /-- A value for an option that takes none. -/
  | unwantedValue
  | notText
  deriving DecidableEq, Repr

inductive Flag where
  | unknownKeys
  | stem
  | noOverrides
  | logLevel
  | logStyle
  | config
  | directory
  | encoding
  | help
  | version
  deriving DecidableEq, Repr

namespace Flag

def long : Flag → String
  | unknownKeys => "unknown-keys"
  | stem => "env-prefix"
  | noOverrides => "no-env"
  | logLevel => "log-level"
  | logStyle => "log-format"
  | config => "config"
  | directory => "dir"
  | encoding => "format"
  | help => "help"
  | version => "version"

def short? : Flag → Option Char
  | config => some 'c'
  | directory => some 'd'
  | encoding => some 'f'
  | help => some 'h'
  | version => some 'V'
  | _ => none

def takesValue : Flag → Bool
  | noOverrides | help | version => false
  | _ => true

/-- The options that can stand on either level. -/
def shared : List Flag := [unknownKeys, stem, noOverrides, logLevel, logStyle, help]

end Flag

/-- The arguments before the name of the command, or those after it. -/
inductive Stage where
  | top
  | command (name : CommandName)
  deriving DecidableEq, Repr

def Stage.flags : Stage → List Flag
  | .top => Flag.version :: Flag.shared
  | .command .check => Flag.shared ++ [.config, .directory]
  | .command .print => Flag.shared ++ [.config, .directory, .encoding]
  | .command .locate => Flag.shared
  | .command .defaults => Flag.shared ++ [.encoding]

/-- What has been given on one level. -/
structure Given where
  unknownKeys : Option UnknownKeys := none
  stem : Option String := none
  noOverrides : Bool := false
  logLevel : Option String := none
  logStyle : Option LogStyle := none
  config : Option String := none
  directory : Option String := none
  encoding : Option Encoding := none
  /-- The directory to start from, which is no option. -/
  start : Option String := none
  deriving DecidableEq, Repr

/-- A value that can be given once and must be readable. -/
def once (earlier value : Option α) : Except Usage (Option α) :=
  if earlier.isSome then .error .repeatedOption
  else if value.isSome then .ok value
  else .error .invalidValue

def path? (s : String) : Option String := if s = "" then none else some s

def Given.take (g : Given) : Flag → Option String → Except Usage Given
  | .help, _ => .error .help
  | .version, _ => .error .version
  | .noOverrides, _ =>
    if g.noOverrides then .error .repeatedOption else .ok { g with noOverrides := true }
  | _, none => .error .invalidValue
  | .unknownKeys, some s =>
    (once g.unknownKeys (Named.ofName? s)).map fun v => { g with unknownKeys := v }
  | .stem, some s => (once g.stem (some s)).map fun v => { g with stem := v }
  | .logLevel, some s => (once g.logLevel (some s)).map fun v => { g with logLevel := v }
  | .logStyle, some s =>
    (once g.logStyle (Named.ofName? s)).map fun v => { g with logStyle := v }
  | .config, some s => (once g.config (path? s)).map fun v => { g with config := v }
  | .directory, some s => (once g.directory (path? s)).map fun v => { g with directory := v }
  | .encoding, some s =>
    (once g.encoding (Named.ofName? s)).map fun v => { g with encoding := v }

/-- What has been read and not looked at. -/
inductive Pending where
  | nothing
  | option (flag : Flag) (value : Option String)
  | start (path : String)
  deriving DecidableEq, Repr

structure Progress where
  given : Given := {}
  pending : Pending := .nothing
  /-- Two dashes have been read: no option comes any more. -/
  isTrailing : Bool := false
  deriving DecidableEq, Repr

namespace Progress

def resolve (p : Progress) : Except Usage Given :=
  match p.pending with
  | .nothing => .ok p.given
  | .option flag value => p.given.take flag value
  | .start path =>
    if path = "" then .error .invalidValue else .ok { p.given with start := some path }

def awaits? (p : Progress) : Option Flag :=
  match p.pending with
  | .option flag none => some flag
  | _ => none

/-- Whether the directory to start from has been read, looked at or not. -/
def hasStart (p : Progress) : Bool :=
  p.given.start.isSome ||
    match p.pending with
    | .start _ => true
    | _ => false

def take (p : Progress) (flag : Flag) (value : Option String) : Except Usage Progress := do
  let given ← (← p.resolve).take flag value
  .ok { p with given, pending := .nothing }

def await (p : Progress) (flag : Flag) : Except Usage Progress := do
  .ok { p with given := ← p.resolve, pending := .option flag none }

/-- An option by its long name, with the value after an equals sign. -/
def readLong (p : Progress) (stage : Stage) (name : String) (value : Option String) :
    Except Usage Progress :=
  match stage.flags.find? fun f => f.long = name with
  | none => .error .unknownArgument
  | some f =>
    match f.takesValue, value with
    | true, none => p.await f
    | false, some _ => .error .unwantedValue
    | _, value => p.take f value

/-- Options by their letters; the rest after one that takes a value is its value. -/
def readShort (p : Progress) (stage : Stage) : List Char → Except Usage Progress
  | [] => .ok p
  | c :: cs =>
    match stage.flags.find? fun f => f.short? = some c with
    | none => .error .unknownArgument
    | some f =>
      if f.takesValue then
        match cs with
        | [] => p.await f
        | '=' :: cs => p.take f (some (String.ofList cs))
        | cs => p.take f (some (String.ofList cs))
      else do
        let p ← p.take f none
        p.readShort stage cs

def readPlain (p : Progress) (stage : Stage) (arg : String) : Except Usage Progress :=
  match stage with
  | .top =>
    if p.isTrailing && (arg = "help" || (Named.names CommandName).contains arg) then
      .error .unknownArgument
    else .error .unknownCommand
  | .command .locate =>
    if p.hasStart then .error .unknownArgument
    else do
      .ok { p with given := ← p.resolve, pending := .start arg }
  | .command _ => .error .unknownArgument

def read (p : Progress) (stage : Stage) (arg : String) : Except Usage Progress :=
  if p.isTrailing then p.readPlain stage arg
  else match arg.toList with
    | ['-', '-'] => .ok { p with isTrailing := true }
    | '-' :: '-' :: cs =>
      let name := cs.takeWhile (· ≠ '=')
      let value := if name.length = cs.length then none else some (cs.drop (name.length + 1))
      p.readLong stage (String.ofList name) (value.map String.ofList)
    | '-' :: c :: cs => p.readShort stage (c :: cs)
    | _ =>
      match p.awaits? with
      | some flag => .ok { p with pending := .option flag (some arg) }
      | none => p.readPlain stage arg

end Progress

/-- What to do about a request for help on commands of these names. -/
def helpFor : List String → Usage
  | [] => .help
  | [name] =>
    if name = "help" || (Named.names CommandName).contains name then .help else .unknownCommand
  | _ => .unknownCommand

/-- Reads the arguments of a stage, at the top up to the name of a command. -/
def readStage (stage : Stage) :
    Progress → List String → Except Usage (Progress × Option (CommandName × List String))
  | p, [] => .ok (p, none)
  | p, arg :: args =>
    let isOpen := stage = .top && !p.isTrailing && p.awaits?.isNone
    if isOpen && arg = "help" then .error (helpFor args)
    else match if isOpen then Named.ofName? (α := CommandName) arg else none with
      | some name => .ok (p, some (name, args))
      | none => do
        let p ← p.read stage arg
        readStage stage p args

def command (name : CommandName) (g : Given) : Command :=
  let origin : Origin := { file := g.config, directory := g.directory.getD "." }
  let encoding := g.encoding.getD .assignments
  match name with
  | .check => .check origin
  | .print => .print origin encoding
  | .locate => .locate (g.start.getD ".")
  | .defaults => .defaults encoding

/-- What is given on the two levels together; a log level can also be set from outside. -/
def combine (name : CommandName) (above below : Given) (logLevel : Option String) : Options :=
  { command := command name below
    unknownKeys := (below.unknownKeys <|> above.unknownKeys).getD .reject
    stem := (below.stem <|> above.stem).getD "FMTRC"
    ignoresOverrides := above.noOverrides || below.noOverrides
    logLevel := (below.logLevel <|> above.logLevel <|> logLevel).getD "warn"
    logStyle := (below.logStyle <|> above.logStyle).getD .compact }

def logVariable : String := "FMTRC_LOG"

/-- The log level that is set from outside, if it is. It must be text. -/
def outerLogLevel (environment : List Variable) : Except Usage (Option String) :=
  match environment.find? fun v => v.name = Text.Utf8.encode logVariable.toList with
  | none => .ok none
  | some v =>
    match Text.Utf8.decode v.value with
    | .ok level => .ok (some (String.ofList level))
    | .error _ => .error .notText

/-- The log level that is given, else another one, which is looked at only then. -/
def Given.logLevelOr (g : Given) (outer : Except Usage (Option String)) :
    Except Usage (Option String) :=
  match g.logLevel with
  | some level => .ok (some level)
  | none => outer

/-- The options of a command line, in an environment. -/
def Options.ofArguments (environment : List Variable) (args : List String) :
    Except Usage Options := do
  let outer := outerLogLevel environment
  match ← readStage .top {} args with
  | (top, some (name, args)) =>
    let (p, _) ← readStage (.command name) {} args
    let below ← p.resolve
    let _ ← below.logLevelOr outer
    let above ← top.resolve
    let logLevel ← above.logLevelOr outer
    .ok (combine name above below logLevel)
  | (top, none) =>
    let given ← top.resolve
    let logLevel ← given.logLevelOr outer
    .error (if given = {} && logLevel.isNone then .helpForNothing else .missingCommand)

end ListfileSettings.CommandLine
