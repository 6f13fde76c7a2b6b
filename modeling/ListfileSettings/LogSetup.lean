import ListfileSettings.Choice
import ListfileSettings.LogFilter

/-!
# Log setup

How events are to be shown, with a few ready-made setups.
-/
namespace ListfileSettings

inductive LogStyle where
  | compact
  | pretty
  | json
  deriving DecidableEq, Repr

instance : Named LogStyle where
  all := [.compact, .pretty, .json]
  name
    | .compact => "compact"
    | .pretty => "pretty"
    | .json => "json"
  mem_all a := by cases a <;> simp
  name_injective a b := by cases a <;> cases b <;> simp

structure LogSetup where
  enabled : Bool := true
  /-- The filter that events have to pass. -/
  level : String := "warn"
  style : LogStyle := .compact
  fileLineInfo : Bool := false
  includeTarget : Bool := false
  ansi : Bool := true
  deriving DecidableEq, Repr

structure LogFailure where
  reason : String
  deriving DecidableEq, Repr

def LogFailure.message (f : LogFailure) : String := "Failed to initialize logging: " ++ f.reason

namespace LogSetup

def verbose : LogSetup :=
  { level := "debug", style := .pretty, fileLineInfo := true, includeTarget := true }

def machine : LogSetup := { style := .json, includeTarget := true, ansi := false }

def ofStyle : LogStyle → LogSetup
  | .compact => {}
  | .pretty => verbose
  | .json => machine

def checkFilter (filter : String) : Except LogFailure Unit :=
  (LogFilter.check filter).mapError fun f => ⟨"Invalid log level: " ++ f.message⟩

/-- Sets up logging, which can be done once. -/
def start (setup : LogSetup) (isStarted : Bool) : Except LogFailure Unit :=
  if !setup.enabled then .ok ()
  else do
    checkFilter setup.level
    if isStarted then .error ⟨"a global default trace dispatcher has already been set"⟩
    else .ok ()

end LogSetup

end ListfileSettings
