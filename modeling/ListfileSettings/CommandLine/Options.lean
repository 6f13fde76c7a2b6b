import ListfileSettings.Choice
import ListfileSettings.LogSetup

/-!
# Options

What a command line asks for: a command and how it is to be run.
-/
namespace ListfileSettings.CommandLine

inductive CommandName where
  | check
  | print
  | locate
  | defaults
  deriving DecidableEq, Repr

instance : Named CommandName where
  all := [.check, .print, .locate, .defaults]
  name
    | .check => "check"
    | .print => "show"
    | .locate => "locate"
    | .defaults => "defaults"
  mem_all a := by cases a <;> simp
  name_injective a b := by cases a <;> cases b <;> simp

/-- Where settings come from: a file or else the file that is nearest to a directory. -/
structure Origin where
  file : Option String := none
  directory : String := "."
  deriving DecidableEq, Repr

inductive Command where
  /-- Load the settings and name the file. -/
  | check (origin : Origin)
  /-- Load the settings and print them. -/
  | print (origin : Origin) (encoding : Encoding)
  /-- Print the path of the nearest settings file. -/
  | locate (start : String)
  /-- Print the settings that nothing is set in. -/
  | defaults (encoding : Encoding)
  deriving DecidableEq, Repr

structure Options where
  command : Command
  unknownKeys : UnknownKeys := .reject
  /-- The stem of the overrides. -/
  stem : String := "FMTRC"
  ignoresOverrides : Bool := false
  logLevel : String := "warn"
  logStyle : LogStyle := .compact
  deriving DecidableEq, Repr

def Options.logSetup (o : Options) : LogSetup :=
  { LogSetup.ofStyle o.logStyle with level := o.logLevel }

end ListfileSettings.CommandLine
