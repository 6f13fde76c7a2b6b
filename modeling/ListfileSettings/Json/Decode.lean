import ListfileSettings.Choice
import ListfileSettings.Json.Mismatch

/-!
# Decoding JSON values

A JSON value as a value of a type, or how it fails to be one.
-/
namespace ListfileSettings.Json

def toWord : Json → Except Mismatch UInt32
  | .integer n =>
    if 0 ≤ n ∧ n < UInt32.size then .ok (UInt32.ofNat n.toNat)
    else .error (.value (.integer n) .word)
  | v => .error (.type v.shape .word)

def toFlag : Json → Except Mismatch Bool
  | .boolean b => .ok b
  | v => .error (.type v.shape .boolean)

def toText : Json → Except Mismatch String
  | .string s => .ok s
  | v => .error (.type v.shape .string)

def toTexts : Json → Except Mismatch (List String)
  | .array items => items.mapM toText
  | v => .error (.type v.shape .sequence)

def toUnit : Json → Except Mismatch Unit
  | .null => .ok ()
  | v => .error (.type v.shape .unit)

def chosen (α : Type) [Named α] (name : String) : Except Mismatch α :=
  match Named.ofName? name with
  | some a => .ok a
  | none => .error (.choice name (Named.names α))

/-- A choice is a name, or an object whose one member has the name and is null. -/
def toChoice (α : Type) [Named α] : Json → Except Mismatch α
  | .string s => chosen α s
  | .object [(name, v)] => do
    let a ← chosen α name
    let () ← v.toUnit
    .ok a
  | .object _ => .error (.value .map .singleMember)
  | v => .error (.type v.shape .choice)

end ListfileSettings.Json
