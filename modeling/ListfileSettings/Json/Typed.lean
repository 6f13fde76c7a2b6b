import ListfileSettings.Json.Decode
import ListfileSettings.Json.Reader

/-!
# Reading values of a type

Readers that know what they expect. A value of another type is a fault that stands after the
value, or before it if it is a list or an object.
-/
namespace ListfileSettings.Json

def mismatched (m : Mismatch) (s : List Char) : Except Fault α := .error (.before (.mismatch m) s)

def typedScalar (expected : Expected) (decode : Json → Except Mismatch α) : Reader α := fun s =>
  match skipSpace s with
  | '[' :: s => mismatched (.type .sequence expected) ('[' :: s)
  | '{' :: s => mismatched (.type .map expected) ('{' :: s)
  | s => do
    let (v, s) ← scalar s
    match decode v with
    | .ok a => .ok (a, s)
    | .error m => mismatched m s

def typedWord : Reader UInt32 := typedScalar .word toWord

def typedFlag : Reader Bool := typedScalar .boolean toFlag

def typedText : Reader String := typedScalar .string toText

def typedTexts : Reader (List String) := fun s =>
  match skipSpace s with
  | '[' :: s => items typedText (s.length + 1) true s
  | s => typedScalar .sequence toTexts s

def typedName (α : Type) [Named α] (name : String) : Reader α := fun s =>
  match chosen α name with
  | .ok a => .ok (a, s)
  | .error m => mismatched m s

/-- A choice is a name, or an object whose one member has the name and is null. -/
def typedChoice (α : Type) [Named α] : Reader α := fun s =>
  match skipSpace s with
  | [] => .error (.atNext .endInValue [])
  | '"' :: s => do
    let (name, s) ← stringAfterQuote s
    typedName α name s
  | '{' :: s => do
    match ← nextMember true s with
    | .done s => .error (.before .expectedValue s)
    | .item s =>
      let (name, s) ← stringAfterQuote s
      let (a, s) ← typedName α name s
      let s ← colon s
      let ((), s) ← typedScalar .unit toUnit s
      match skipSpace s with
      | [] => .error (.before .endInObject [])
      | '}' :: s => .ok (a, s)
      | s => .error (.before .expectedValue s)
  | s => .error (.atNext .expectedValue s)

end ListfileSettings.Json
