import ListfileSettings.CommandLine.Options
import ListfileSettings.Json.Writer
import ListfileSettings.Draft
import ListfileSettings.Settings.Listing

/-!
# Running commands

What a command prints in a world, or how it fails.
-/
namespace ListfileSettings.CommandLine

inductive CommandFailure where
  /-- Settings cannot be loaded; the context says what was being done. -/
  | settings (context : Option String) (failure : Failure)
  /-- There is no settings file from this directory up to the root. -/
  | nothingFound (directory : String)
  deriving DecidableEq, Repr

namespace CommandFailure

/-- The failure of settings behind it, if there is one. -/
def failure? : CommandFailure → Option Failure
  | settings _ f => some f
  | nothingFound _ => none

/-- The context, the failure and its cause, as far as there are any. -/
def message : CommandFailure → String
  | settings context f =>
    ": ".intercalate (context.toList ++ f.message :: f.cause?.toList)
  | nothingFound directory =>
    "no formatter settings found in " ++ directory ++ " or any parent directory"

end CommandFailure

def printed (r : Settings) : Encoding → String
  | .assignments => r.text
  | .json => r.toJson.pretty ++ "\n"

/-- A draft with the settings of the file, or of the file that is nearest to the directory. -/
def draft (o : Options) (origin : Origin) (w : World) : Logged CommandFailure Draft :=
  let d : Draft := { policy := o.unknownKeys }
  match origin.file with
  | some path => (d.addFile w path).mapFailure (.settings (some ("failed to load " ++ path)))
  | none => (d.addNearest w origin.directory).mapFailure (.settings none)

/-- What was being done when loading fails after the file has been read. -/
def loadContext : Option String → String
  | some path => "invalid settings in " ++ path
  | none => "invalid settings"

/-- The settings with their overrides, and the file that they come from. -/
def load (o : Options) (origin : Origin) (w : World) :
    Logged (Halt CommandFailure) (Settings × Option String) := do
  let d ← (draft o origin w).lift
  let d := if o.ignoresOverrides then d else d.withStem o.stem
  let r ← (d.load w).mapFailure (Halt.map (.settings (some (loadContext d.source))))
  pure (r, d.source)

def Options.run (o : Options) (w : World) : Logged (Halt CommandFailure) String :=
  match o.command with
  | .check origin => do
    let (_, source) ← load o origin w
    match source with
    | some path => pure (path ++ ": ok\n")
    | none => pure "ok\n"
  | .print origin encoding => do
    let (r, _) ← load o origin w
    pure (printed r encoding)
  | .locate start => do
    match ← Search.upwards w start with
    | some path => pure (path ++ "\n")
    | none => .fail (.failure (.nothingFound start))
  | .defaults encoding => pure (printed {} encoding)

end ListfileSettings.CommandLine
