import ListfileSettings.Decimal.Shortest
import ListfileSettings.Json
import ListfileSettings.Text.Blank
import ListfileSettings.Text.UnprintedTable

/-!
# Mismatches

How a JSON value can fail to be what a reader expects. A `Shape` is as much of the value as a
message shows. In it a text is quoted so that nothing is left that cannot be seen: quotes,
backslashes and controls are escaped, and so is every character beyond ASCII that does not print by
itself.
-/
namespace ListfileSettings

namespace Text

def hexText (n : Nat) : List Char := Nat.toDigits 16 n

def isUnprinted (c : Char) : Bool :=
  if c.toNat < 128 then c.toNat < 32 || c.toNat == 127 else inRanges unprintedRanges c.toNat

def quotedChar (c : Char) : List Char :=
  match c with
  | '"' => ['\\', '"']
  | '\\' => ['\\', '\\']
  | '\n' => ['\\', 'n']
  | '\r' => ['\\', 'r']
  | '\t' => ['\\', 't']
  | '\x00' => ['\\', '0']
  | c => if isUnprinted c then ['\\', 'u', '{'] ++ hexText c.toNat ++ ['}'] else [c]

def quoted (s : String) : String :=
  String.ofList ('"' :: s.toList.flatMap quotedChar ++ ['"'])

end Text

namespace Json

inductive Shape where
  | null
  | boolean (b : Bool)
  | integer (n : Int)
  | float (x : Float)
  | string (s : String)
  | sequence
  | map

def shape : Json → Shape
  | .null => .null
  | .boolean b => .boolean b
  | .integer n => .integer n
  | .float x => .float x
  | .string s => .string s
  | .array _ => .sequence
  | .object _ => .map

def Shape.text : Shape → String
  | .null => "null"
  | .boolean b => "boolean `" ++ (if b then "true" else "false") ++ "`"
  | .integer n => "integer `" ++ Decimal.integerText n ++ "`"
  | .float x => "floating point `" ++ Decimal.floatText x ++ "`"
  | .string s => "string " ++ Text.quoted s
  | .sequence => "sequence"
  | .map => "map"

inductive Expected where
  | word
  | boolean
  | sequence
  | string
  | choice
  | unit
  | singleMember
  | record

def Expected.text : Expected → String
  | .word => "u32"
  | .boolean => "a boolean"
  | .sequence => "a sequence"
  | .string => "a string"
  | .choice => "string or map"
  | .unit => "unit"
  | .singleMember => "map with a single key"
  | .record => "struct FormatConfig"

inductive Mismatch where
  /-- A value of another type. -/
  | type (found : Shape) (expected : Expected)
  /-- A value of the type that is out of bounds. -/
  | value (found : Shape) (expected : Expected)
  /-- A name that is none of the known ones. -/
  | choice (name : String) (known : List String)
  /-- A member that the record does not have. -/
  | field (name : String) (known : List String)
  /-- A member that the record has had already. -/
  | repeated (name : String)

def quotedNames (names : List String) : String :=
  ", ".intercalate (names.map fun n => "`" ++ n ++ "`")

def Mismatch.message : Mismatch → String
  | .type found expected => "invalid type: " ++ found.text ++ ", expected " ++ expected.text
  | .value found expected => "invalid value: " ++ found.text ++ ", expected " ++ expected.text
  | .choice name known => "unknown variant `" ++ name ++ "`, expected one of " ++ quotedNames known
  | .field name known => "unknown field `" ++ name ++ "`, expected one of " ++ quotedNames known
  | .repeated name => "duplicate field `" ++ name ++ "`"

end Json

end ListfileSettings
