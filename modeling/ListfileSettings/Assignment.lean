import ListfileSettings.Literal

/-!
# Assignments

A settings text is a list of assignments of literals to keys. `Malformed` says why a text is none
and on which line.
-/
namespace ListfileSettings

structure Assignment where
  key : String
  value : Literal
  /-- The line of the key; the first line is one. -/
  line : Nat
  deriving Repr

namespace Assignment

inductive Cause where
  | expectedKey (found : Char)
  | expectedEquals (key : String)
  | expectedValue
  | unexpectedCharacter (found : Char)
  | unexpectedWord (word : String)
  | unterminatedString
  | invalidInteger
  /-- An integer that runs on, with the first character too many. -/
  | integerRunsOn (text : String)
  | unclosedSequence
  | expectedSeparator (found : Char)
  | unexpectedAfterValue (found : Char) (key : String)
  deriving DecidableEq, Repr

def Cause.message : Cause → String
  | .expectedKey c => "expected an identifier, found '" ++ c.toString ++ "'"
  | .expectedEquals key => "expected '=' after '" ++ key ++ "'"
  | .expectedValue => "expected a value"
  | .unexpectedCharacter c => "unexpected character '" ++ c.toString ++ "'"
  | .unexpectedWord w => "unexpected identifier '" ++ w ++ "', strings must be quoted"
  | .unterminatedString => "unterminated string"
  | .invalidInteger => "invalid integer literal"
  | .integerRunsOn text => "invalid integer literal '" ++ text ++ "...'"
  | .unclosedSequence => "unclosed '['"
  | .expectedSeparator c => "expected ',' or ']' in sequence, found '" ++ c.toString ++ "'"
  | .unexpectedAfterValue c key =>
    "unexpected '" ++ c.toString ++ "' after value of '" ++ key ++ "'"

/-- Why a text is not a list of assignments, and on which line. -/
structure Malformed where
  line : Nat
  cause : Cause
  deriving DecidableEq, Repr

end Assignment

end ListfileSettings
