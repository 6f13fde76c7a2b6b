import ListfileSettings.Decimal.Digits

/-!
# Failures

What can go wrong with settings, and how it is worded.
-/
namespace ListfileSettings

inductive Failure where
  | fileNotFound (path : String)
  | unreadable (path : String) (cause : String)
  /-- No settings file from this directory up to the root. -/
  | notDiscovered (start : String)
  | malformed (line : Nat) (message : String)
  | unknownKey (key : String) (line : Option Nat)
  | invalidValue (key : String) (reason : String)
  | environment (name : String) (reason : String)
  deriving DecidableEq, Repr

inductive FailureKind where
  | malformed
  | unknownKey
  | invalidValue
  | inputOutput
  deriving DecidableEq, Repr

namespace Failure

/-- An override that cannot be used counts as an invalid value. -/
def kind : Failure → FailureKind
  | malformed .. => .malformed
  | unknownKey .. => .unknownKey
  | invalidValue .. | environment .. => .invalidValue
  | fileNotFound .. | unreadable .. | notDiscovered .. => .inputOutput

def message : Failure → String
  | fileNotFound path => "configuration file not found: " ++ path
  | unreadable path _ => "failed to read configuration file: " ++ path
  | notDiscovered start => "no configuration file found in " ++ start ++ " or any parent directory"
  | malformed line message =>
    "malformed syntax at line " ++ Decimal.naturalText line ++ ": " ++ message
  | unknownKey key line =>
    "unknown configuration key '" ++ key ++ "'" ++
      (match line with
        | some n => " at line " ++ Decimal.naturalText n
        | none => "")
  | invalidValue key reason => "invalid value for " ++ key ++ ": " ++ reason
  | environment name reason =>
    "failed to parse environment variable " ++ name ++ ": " ++ reason

def cause? : Failure → Option String
  | unreadable _ cause => some cause
  | _ => none

end Failure

end ListfileSettings
