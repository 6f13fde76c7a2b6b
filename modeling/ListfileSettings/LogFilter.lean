import ListfileSettings.Decimal.Digits
import ListfileSettings.Text.AlphanumericTable
import ListfileSettings.Text.Blank
import ListfileSettings.Text.Case
import ListfileSettings.Text.Utf8

/-!
# Log filters

A filter is a list of directives between commas: a target, a level, or a target with a level after
an equals sign. `check` says whether a text is one.
-/
namespace ListfileSettings.LogFilter

inductive Fault where
  | invalidDirective
  | invalidLevel
  deriving DecidableEq, Repr

def Fault.message : Fault → String
  | .invalidDirective => "invalid filter directive"
  | .invalidLevel =>
    "error parsing level filter: expected one of \"off\", \"error\", \"warn\", \"info\", " ++
      "\"debug\", \"trace\", or a number 0-5"

def levelNames : List String := ["off", "error", "warn", "info", "debug", "trace"]

/-- A number without a sign or with a plus sign. -/
def unsigned? : List Char → Option Nat
  | '+' :: cs => Decimal.natural? cs
  | cs => Decimal.natural? cs

/-- A level is a name in any case or its number. -/
def isLevel (s : String) : Bool :=
  levelNames.contains (Text.asciiLower s) ||
    (unsigned? s.toList).any (· < levelNames.length)

def isAlphanumeric (c : Char) : Bool :=
  if c.toNat < 128 then c.isAlphanum else Text.inRanges Text.alphanumericRanges c.toNat

def isStart (c : Char) : Bool := isAlphanumeric c || c = '-' || c = ':' || c = '_'

/-- Checks a directive. The blanks before it are not taken off before the level is cut out, so
they shift the cut. -/
def checkDirective (directive : String) : Except Fault Unit :=
  let cs := (Text.trim directive).toList
  match cs with
  | [] => .error .invalidDirective
  | c :: _ =>
    if !isStart c then .error .invalidDirective
    else
      let target := cs.takeWhile (· ≠ '=')
      if target.length = cs.length then .ok ()
      else
        let level := Text.Utf8.drop (Text.Utf8.size target + 1) directive.toList
        if level.isEmpty || isLevel (String.ofList level) then .ok () else .error .invalidLevel

def check (filter : String) : Except Fault Unit :=
  ((Text.split ',' filter).filter (· ≠ "")).forM checkDirective

end ListfileSettings.LogFilter
