import ListfileSettings.Decimal.Wide

/-!
# Literals

The values that a settings text assigns, and the one text that a literal is written as.
-/
namespace ListfileSettings

inductive Literal where
  | integer (n : Decimal.Wide)
  | boolean (b : Bool)
  | string (s : String)
  | sequence (items : List Literal)
  deriving Inhabited, Repr

namespace Literal

def typeName : Literal → String
  | integer _ => "integer"
  | boolean _ => "boolean"
  | string _ => "string"
  | sequence _ => "sequence"

/-- A character between single quotes: backslash, quote, line break and tab are escaped. -/
def escaped (c : Char) : List Char :=
  match c with
  | '\\' => ['\\', '\\']
  | '\'' => ['\\', '\'']
  | '\n' => ['\\', 'n']
  | '\t' => ['\\', 't']
  | c => [c]

def stringChars (s : String) : List Char := '\'' :: s.toList.flatMap escaped ++ ['\'']

mutual

def chars : Literal → List Char
  | integer n => Decimal.integerDigits n.val
  | boolean true => ['T', 'r', 'u', 'e']
  | boolean false => ['F', 'a', 'l', 's', 'e']
  | string s => stringChars s
  | sequence items => '[' :: itemChars items ++ [']']

def itemChars : List Literal → List Char
  | [] => []
  | [v] => chars v
  | v :: vs => chars v ++ [',', ' '] ++ itemChars vs

end

def text (v : Literal) : String := String.ofList v.chars

end Literal

end ListfileSettings
