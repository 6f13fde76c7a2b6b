import ListfileSettings.Failure
import ListfileSettings.Settings.Value

/-!
# Checked updates

Setting one key to a literal or to a JSON value, and the checks on a whole record.
-/
namespace ListfileSettings.Settings

/-- A reason with the line that it is about, if that is known. -/
def reasonAt (reason : String) : Option Nat → String
  | some n => reason ++ " (line " ++ Decimal.naturalText n ++ ")"
  | none => reason

/-- Sets a key to a literal that comes from this line. -/
def assign (r : Settings) (key : String) (v : Literal) (line : Option Nat) :
    Except Failure Settings :=
  match Key.ofText? key with
  | none => .error (.unknownKey key line)
  | some k =>
    match k.kind.ofLiteral v with
    | .ok value => .ok (r.set k value)
    | .error unfit => .error (.invalidValue key (reasonAt unfit.message line))

def assignJson (r : Settings) (k : Key) (v : Json) : Except Failure Settings :=
  match k.kind.ofJson v with
  | .ok value => .ok (r.set k value)
  | .error m => .error (.invalidValue k.text m.message)

def literal (r : Settings) (k : Key) : Literal := k.kind.toLiteral (r.get k)

def toJson (r : Settings) : Json :=
  .object (Key.all.map fun k => (k.text, k.kind.toJson (r.get k)))

/-- What makes the record unusable, if anything does. -/
def flaw? (r : Settings) : Option Failure :=
  if r.lineWidth = 0 then some (.invalidValue Key.lineWidth.text "must be greater than 0")
  else if r.tabSize = 0 then some (.invalidValue Key.tabSize.text "must be greater than 0")
  else if r.maxPrefixChars < r.minPrefixChars then
    some (.invalidValue Key.maxPrefixChars.text
      (Decimal.naturalText r.maxPrefixChars.toNat ++ " is less than min_prefix_chars (" ++
        Decimal.naturalText r.minPrefixChars.toNat ++ ")"))
  else none

/-- Checks that widths are positive and that the prefix bounds are in order. -/
def validate (r : Settings) : Except Failure Unit :=
  match r.flaw? with
  | some f => .error f
  | none => .ok ()

end ListfileSettings.Settings
