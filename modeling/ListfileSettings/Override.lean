import ListfileSettings.Literal
import ListfileSettings.Key
import ListfileSettings.Text.Blank
import ListfileSettings.Text.Case

/-!
# Overrides

Variables of the environment that set a key: their names are a stem, two underscores and the key
in any case. They are used in the order of their names.
-/
namespace ListfileSettings.Override

def marker (stem : String) : String := stem ++ "__"

def isUnder (stem : String) (name : String) : Bool :=
  (marker stem).toList.isPrefixOf name.toList

/-- What follows after a text that a name starts with, if it does. -/
def rest? (start name : String) : Option String :=
  if start.toList.isPrefixOf name.toList then
    some (String.ofList (name.toList.drop start.length))
  else none

/-- The key that an override under this stem sets: the stem is taken off its name and then the two
underscores. -/
def key? (stem name : String) : Option String :=
  ((rest? stem name).bind (rest? "__")).map Text.lower

/-- Pairs in the order of their first parts, then of their second parts. -/
def precedes (v w : String × String) : Bool := v.1 < w.1 || v.1 = w.1 && !(w.2 < v.2)

/-- The overrides under a stem in the order in which they are used. -/
def under (stem : String) (environment : List (String × String)) : List (String × String) :=
  (environment.filter fun v => isUnder stem v.1).mergeSort precedes

def truthOf? (s : String) : Option Bool :=
  let word := Text.lower s
  if ["true", "1", "yes", "on"].contains word then some true
  else if ["false", "0", "no", "off"].contains word then some false
  else none

/-- The pieces between commas, without the blanks around them and without empty ones. -/
def namesOf (s : String) : List String := ((Text.split ',' s).map Text.trim).filter (· ≠ "")

def literal? (kind : Kind) (text : String) : Option Literal :=
  let s := Text.trim text
  match kind with
  | .positive | .count =>
    ((Decimal.signed? s.toList).bind Decimal.Wide.ofInt?).map .integer
  | .flag => (truthOf? s).map .boolean
  | .caseStyle | .lineEnding => some (.string s)
  | .names => some (.sequence ((namesOf s).map .string))

def expectation : Kind → String
  | .positive | .count => "expected integer"
  | .flag => "expected boolean"
  | .caseStyle | .lineEnding => "expected name"
  | .names => "expected comma-separated list"

end ListfileSettings.Override
