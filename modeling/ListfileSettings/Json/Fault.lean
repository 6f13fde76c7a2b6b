import ListfileSettings.Json.Mismatch
import ListfileSettings.Text.Utf8

/-!
# Faults in a JSON text

Why a text cannot be read, and where. A fault carries the number of octets that were still unread,
from which `positionAfter` finds its line and column.
-/
namespace ListfileSettings.Json

open Text.Utf8 (size)

inductive Cause where
  | endInValue
  | endInList
  | endInObject
  | endInString
  | expectedValue
  | expectedIdent
  | nameNotString
  | expectedColon
  | expectedListEnd
  | expectedObjectEnd
  | trailingComma
  | trailingCharacters
  | invalidNumber
  | numberOutOfRange
  | invalidEscape
  | loneSurrogate
  | endInHexEscape
  | controlCharacter
  | tooDeep
  | mismatch (m : Mismatch)

def Cause.message : Cause → String
  | .endInValue => "EOF while parsing a value"
  | .endInList => "EOF while parsing a list"
  | .endInObject => "EOF while parsing an object"
  | .endInString => "EOF while parsing a string"
  | .expectedValue => "expected value"
  | .expectedIdent => "expected ident"
  | .nameNotString => "key must be a string"
  | .expectedColon => "expected `:`"
  | .expectedListEnd => "expected `,` or `]`"
  | .expectedObjectEnd => "expected `,` or `\x7d`"
  | .trailingComma => "trailing comma"
  | .trailingCharacters => "trailing characters"
  | .invalidNumber => "invalid number"
  | .numberOutOfRange => "number out of range"
  | .invalidEscape => "invalid escape"
  | .loneSurrogate => "lone leading surrogate in hex escape"
  | .endInHexEscape => "unexpected end of hex escape"
  | .controlCharacter => "control character (\\u0000-\\u001F) found while parsing a string"
  | .tooDeep => "recursion limit exceeded"
  | .mismatch m => m.message

/-- The text ends too early, is not JSON, or is JSON of the wrong types. -/
inductive Category where
  | ended
  | malformed
  | mistyped
  deriving DecidableEq, Repr

def Cause.category : Cause → Category
  | .endInValue | .endInList | .endInObject | .endInString => .ended
  | .mismatch _ => .mistyped
  | _ => .malformed

/-- A cause and the number of octets from the fault to the end of the text. -/
structure Fault where
  cause : Cause
  unread : Nat

def Fault.before (cause : Cause) (rest : List Char) : Fault := ⟨cause, size rest⟩

/-- A fault of the next octet of the rest, if it has one. -/
def Fault.atNext (cause : Cause) (rest : List Char) : Fault := ⟨cause, size rest - 1⟩

structure Position where
  line : Nat
  column : Nat
  deriving DecidableEq, Repr

/-- The position after `count` octets more: a line break starts a line at column zero. -/
def Position.advance (p : Position) : Nat → List Char → Position
  | _, [] => p
  | count, c :: cs =>
    if count = 0 then p
    else if c = '\n' then Position.advance ⟨p.line + 1, 0⟩ (count - 1) cs
    else
      let size := min count c.utf8Size
      Position.advance ⟨p.line, p.column + size⟩ (count - size) cs

def Fault.position (f : Fault) (text : String) : Position :=
  Position.advance ⟨1, 0⟩ (size text.toList - f.unread) text.toList

def Fault.message (f : Fault) (text : String) : String :=
  let p := f.position text
  f.cause.message ++ " at line " ++ Decimal.naturalText p.line ++
    " column " ++ Decimal.naturalText p.column

end ListfileSettings.Json
