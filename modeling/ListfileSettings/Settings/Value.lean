import ListfileSettings.Json.Decode
import ListfileSettings.Literal
import ListfileSettings.Settings

/-!
# Values of a kind

The values of a kind as literals and as JSON. A literal is first made into JSON, except that the
integer of an integer key has bounds of its own; so both kinds of source refuse a value of the
wrong type in the same words.
-/
namespace ListfileSettings

/-- Why a value does not fit a key. -/
inductive Unfit where
  | belowOne (n : Int)
  | negative (n : Int)
  | tooLarge (n : Int)
  /-- An integer in a literal, at any depth, that JSON does not hold. -/
  | outOfRange (n : Int)
  | mismatch (m : Json.Mismatch)

def Unfit.message : Unfit → String
  | .belowOne n => "must be at least 1, got " ++ Decimal.integerText n
  | .negative n => Decimal.integerText n ++ " is negative"
  | .tooLarge n => Decimal.integerText n ++ " exceeds 4294967295"
  | .outOfRange n => Decimal.integerText n ++ " is out of range"
  | .mismatch m => m.message

namespace Literal

mutual

/-- The literal as JSON; its integers must fit 64 bits. -/
def toJson : Literal → Except Unfit Json
  | integer n =>
    if -0x8000000000000000 ≤ n.val ∧ n.val < 0x8000000000000000 then .ok (.integer n.val)
    else .error (.outOfRange n.val)
  | boolean b => .ok (.boolean b)
  | string s => .ok (.string s)
  | sequence items => (itemsToJson items).map .array

def itemsToJson : List Literal → Except Unfit (List Json)
  | [] => .ok []
  | v :: vs => do
    let j ← toJson v
    let js ← itemsToJson vs
    .ok (j :: js)

end

mutual

/-- The literal of a JSON value, if it has one: its integers must fit 64 bits. -/
def ofJson? : Json → Option Literal
  | .boolean b => some (.boolean b)
  | .integer n =>
    if -0x8000000000000000 ≤ n ∧ n < 0x8000000000000000 then
      (Decimal.Wide.ofInt? n).map .integer
    else none
  | .string s => some (.string s)
  | .array items => (itemsOfJson? items).map .sequence
  | .null | .float _ | .object _ => none

def itemsOfJson? : List Json → Option (List Literal)
  | [] => some []
  | j :: js => do
    let v ← ofJson? j
    let vs ← itemsOfJson? js
    some (v :: vs)

end

end Literal

namespace Kind

def ofJson : (k : Kind) → Json → Except Json.Mismatch k.Value
  | .positive, v | .count, v => v.toWord
  | .flag, v => v.toFlag
  | .caseStyle, v => v.toChoice CaseStyle
  | .lineEnding, v => v.toChoice LineEnding
  | .names, v => v.toTexts

def toJson : (k : Kind) → k.Value → Json
  | .positive, n | .count, n => .integer n.toNat
  | .flag, b => .boolean b
  | .caseStyle, c => .string (Named.name c)
  | .lineEnding, e => .string (Named.name e)
  | .names, texts => .array (texts.map .string)

/-- An integer from `least` to the greatest of 32 bits. -/
def bounded (least : Int) (below : Int → Unfit) (n : Int) : Except Unfit UInt32 :=
  if n < least then .error (below n)
  else if UInt32.size ≤ n then .error (.tooLarge n)
  else .ok (UInt32.ofNat n.toNat)

def ofLiteral : (k : Kind) → Literal → Except Unfit k.Value
  | .positive, .integer n => bounded 1 .belowOne n.val
  | .count, .integer n => bounded 0 .negative n.val
  | k, v => do
    let j ← v.toJson
    (k.ofJson j).mapError .mismatch

def toLiteral : (k : Kind) → k.Value → Literal
  | .positive, n | .count, n => .integer (.ofUInt32 n)
  | .flag, b => .boolean b
  | .caseStyle, c => .string (Named.name c)
  | .lineEnding, e => .string (Named.name e)
  | .names, texts => .sequence (texts.map .string)

end Kind

end ListfileSettings
