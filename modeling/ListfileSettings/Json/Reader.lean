import ListfileSettings.Decimal.Digits
import ListfileSettings.Json.Fault

/-!
# Reading JSON

A reader takes the rest of a text and gives a value and what is left. A loop is given the number
of characters that are left as a bound on its rounds; each round takes at least one of them.
-/
namespace ListfileSettings.Json

/-- Takes the rest of a text, gives a value and what is left. -/
abbrev Reader (α : Type) := List Char → Except Fault (α × List Char)

def isSpace (c : Char) : Bool := c = ' ' || c = '\n' || c = '\t' || c = '\r'

def skipSpace (s : List Char) : List Char := s.dropWhile isSpace

/-- Takes exactly the letters of a word whose first letter has been taken. -/
def word : List Char → List Char → Except Fault (List Char)
  | [], s => .ok s
  | _ :: _, [] => .error (.before .endInValue [])
  | c :: cs, d :: s => if d = c then word cs s else .error (.atNext .expectedIdent (d :: s))

/-! ### Strings -/

def hexValue? (c : Char) : Option Nat :=
  if '0' ≤ c ∧ c ≤ '9' then some (c.toNat - 48)
  else if 'a' ≤ c ∧ c ≤ 'f' then some (c.toNat - 87)
  else if 'A' ≤ c ∧ c ≤ 'F' then some (c.toNat - 55)
  else none

/-- The number that four digits in base sixteen denote. -/
def hexQuad : Reader Nat := fun s =>
  if Text.Utf8.size s < 4 then .error ⟨.endInString, 0⟩
  else match s with
    | a :: b :: c :: d :: rest =>
      match hexValue? a, hexValue? b, hexValue? c, hexValue? d with
      | some a, some b, some c, some d => .ok (((a * 16 + b) * 16 + c) * 16 + d, rest)
      | _, _, _, _ => .error ⟨.invalidEscape, Text.Utf8.size s - 4⟩
    | _ => .error ⟨.invalidEscape, Text.Utf8.size s - 4⟩

/-- The second half of a surrogate pair, whose first half is `high`. -/
def lowSurrogate (high : Nat) : Reader Char := fun s =>
  match s with
  | [] => .error (.before .endInString [])
  | '\\' :: [] => .error (.before .endInString [])
  | '\\' :: 'u' :: s => do
    let (low, s) ← hexQuad s
    if low < 0xDC00 || 0xDFFF < low then .error (.before .loneSurrogate s)
    else .ok (Char.ofNat ((high - 0xD800) * 0x400 + (low - 0xDC00) + 0x10000), s)
  | '\\' :: s => .error (.atNext .endInHexEscape s)
  | s => .error (.atNext .endInHexEscape s)

/-- The character that a backslash and the text after it stand for. -/
def escape : Reader Char
  | [] => .error (.before .endInString [])
  | '"' :: s => .ok ('"', s)
  | '\\' :: s => .ok ('\\', s)
  | '/' :: s => .ok ('/', s)
  | 'b' :: s => .ok ('\x08', s)
  | 'f' :: s => .ok ('\x0c', s)
  | 'n' :: s => .ok ('\n', s)
  | 'r' :: s => .ok ('\r', s)
  | 't' :: s => .ok ('\t', s)
  | 'u' :: s => do
    let (n, s) ← hexQuad s
    if 0xDC00 ≤ n && n ≤ 0xDFFF then .error (.before .loneSurrogate s)
    else if 0xD800 ≤ n && n ≤ 0xDBFF then lowSurrogate n s
    else .ok (Char.ofNat n, s)
  | s => .error (.atNext .invalidEscape s)

/-- The characters up to the closing quote, in at most `rounds` rounds. -/
def stringRest : Nat → Reader (List Char)
  | _, [] => .error (.before .endInString [])
  | 0, s => .error (.before .endInString s)
  | rounds + 1, c :: s =>
    if c = '"' then .ok ([], s)
    else if c = '\\' then do
      let (d, s) ← escape s
      let (ds, s) ← stringRest rounds s
      .ok (d :: ds, s)
    else if c.toNat < 32 then .error (.atNext .controlCharacter (c :: s))
    else do
      let (ds, s) ← stringRest rounds s
      .ok (c :: ds, s)

def stringAfterQuote : Reader String := fun s => do
  let (cs, s) ← stringRest s.length s
  .ok (String.ofList cs, s)

/-! ### Numbers -/

/-- The leading digits of a number as far as they fit 64 bits, and how many more there were. -/
structure Digits where
  significand : Nat
  dropped : Nat

/-- One more digit: once a digit does not fit, no later one is looked at. -/
def Digits.push (d : Digits) (c : Char) : Digits :=
  let next := Decimal.push d.significand c
  if d.dropped = 0 && next < UInt64.size then { d with significand := next }
  else { d with dropped := d.dropped + 1 }

def wholeDigits (cs : List Char) : Digits := cs.foldl Digits.push ⟨0, 0⟩

/-- Digits after the point go on from the significand and lower the exponent by one each, until
one does not fit. -/
def fractionDigits (significand : Nat) (cs : List Char) : Nat × Nat :=
  let d := cs.foldl Digits.push ⟨significand, 0⟩
  (d.significand, cs.length - d.dropped)

/-- Multiplies a floating-point number by a power of ten, at most `10 ^ 308` at a time; `none` if
it becomes infinite. -/
def scaleFloat? : Nat → Float → Int → Option Float
  | 0, x, _ => some x
  | rounds + 1, x, exponent =>
    if exponent.natAbs ≤ 308 then
      let power := Float.ofScientific 1 false exponent.natAbs
      if exponent ≥ 0 then
        let y := x * power
        if y.isInf then none else some y
      else some (x / power)
    else if x == 0 then some x
    else if exponent ≥ 0 then none
    else scaleFloat? rounds (x / Float.ofScientific 1 false 308) (exponent + 308)

/-- The floating-point number of a sign, a significand of 64 bits and an exponent. -/
def makeFloat? (isNegative : Bool) (significand : Nat) (exponent : Int) : Option Float :=
  (scaleFloat? (exponent.natAbs / 308 + 1) significand.toUInt64.toFloat exponent).map
    fun x => if isNegative then -x else x

/-- The number of a significand and an exponent, or the fault of one that is too large. -/
def finishFloat (isNegative : Bool) (significand : Nat) (exponent : Int) : Reader Json := fun s =>
  match makeFloat? isNegative significand exponent with
  | some x => .ok (.float x, s)
  | none => .error (.before .numberOutOfRange s)

def exponentLimit : Nat := 0x7FFFFFFF

/-- The digits of an exponent: the number they denote, or what follows the first digit that takes
it over the limit. -/
def exponentDigits (n : Nat) : List Char → Except (List Char) (Nat × List Char)
  | [] => .ok (n, [])
  | c :: s =>
    if c.isDigit then
      let next := Decimal.push n c
      if next ≤ exponentLimit then exponentDigits next s else .error s
    else .ok (n, c :: s)

def clampExponent (e : Int) : Int := max (-0x80000000) (min e 0x7FFFFFFF)

/-- The digits of an exponent after its sign. An exponent over the limit is out of range, unless
the number is then zero. -/
def exponentAfterSign (isNegative : Bool) (significand : Nat) (exponent : Int) (isMinus : Bool) :
    Reader Json
  | [] => .error (.before .endInValue [])
  | c :: s =>
    if !c.isDigit then .error (.atNext .invalidNumber (c :: s))
    else match exponentDigits 0 (c :: s) with
      | .ok (n, s) =>
        let e := clampExponent (if isMinus then exponent - n else exponent + n)
        finishFloat isNegative significand e s
      | .error s =>
        if significand ≠ 0 && !isMinus then .error (.before .numberOutOfRange s)
        else .ok (.float (if isNegative then -0.0 else 0.0), s.dropWhile Char.isDigit)

def exponentPart (isNegative : Bool) (significand : Nat) (exponent : Int) : Reader Json
  | '+' :: s => exponentAfterSign isNegative significand exponent false s
  | '-' :: s => exponentAfterSign isNegative significand exponent true s
  | s => exponentAfterSign isNegative significand exponent false s

/-- What can follow the digits of a floating-point number: an exponent or nothing. -/
def floatEnd (isNegative : Bool) (significand : Nat) (exponent : Int) : Reader Json
  | 'e' :: s => exponentPart isNegative significand exponent s
  | 'E' :: s => exponentPart isNegative significand exponent s
  | s => finishFloat isNegative significand exponent s

/-- A fraction whose point has been taken; it has at least one digit. -/
def fractionPart (isNegative : Bool) (d : Digits) : Reader Json := fun s =>
  let cs := s.takeWhile Char.isDigit
  let s := s.dropWhile Char.isDigit
  if cs.isEmpty then
    .error (.atNext (if s.isEmpty then .endInValue else .invalidNumber) s)
  else
    let (significand, places) := fractionDigits d.significand cs
    floatEnd isNegative significand (d.dropped - places) s

/-- A number without fraction and exponent: an integer if it fits 64 bits with its sign or, when
not negative, without one; otherwise a floating-point number, as is a negative zero. -/
def wholeNumber (isNegative : Bool) (d : Digits) : Reader Json := fun s =>
  if d.dropped > 0 then finishFloat isNegative d.significand d.dropped s
  else if !isNegative then .ok (.integer d.significand, s)
  else if 0 < d.significand && d.significand ≤ 0x8000000000000000 then
    .ok (.integer (-d.significand), s)
  else .ok (.float (-d.significand.toUInt64.toFloat), s)

/-- A number after its sign. A zero is not followed by a digit. -/
def number (isNegative : Bool) : Reader Json := fun s =>
  let cs := s.takeWhile Char.isDigit
  let s' := s.dropWhile Char.isDigit
  match cs with
  | [] =>
    match s with
    | [] => .error (.before .endInValue [])
    | _ => .error (.atNext .invalidNumber s)
  | '0' :: _ :: _ => .error (.atNext .invalidNumber (s.drop 1))
  | cs =>
    let d := wholeDigits cs
    match s' with
    | '.' :: s' => fractionPart isNegative d s'
    | 'e' :: s' => exponentPart isNegative d.significand d.dropped s'
    | 'E' :: s' => exponentPart isNegative d.significand d.dropped s'
    | s' => wholeNumber isNegative d s'

/-! ### Lists and objects -/

/-- The next element of a list or member of an object: where it starts, or what follows the
closing bracket. -/
inductive Next where
  | item (s : List Char)
  | done (s : List Char)

def nextItem (isFirst : Bool) (s : List Char) : Except Fault Next :=
  match skipSpace s with
  | [] => .error (.atNext .endInList [])
  | c :: s =>
    if c = ']' then .ok (.done s)
    else if isFirst then .ok (.item (c :: s))
    else if c = ',' then
      match skipSpace s with
      | [] => .error (.atNext .endInValue [])
      | d :: s => if d = ']' then .error (.atNext .trailingComma (d :: s)) else .ok (.item (d :: s))
    else .error (.atNext .expectedListEnd (c :: s))

def nameStart : List Char → Except Fault Next
  | '"' :: s => .ok (.item s)
  | s => .error (.atNext .nameNotString s)

/-- Goes to the next member of an object, past the opening quote of its name. -/
def nextMember (isFirst : Bool) (s : List Char) : Except Fault Next :=
  match skipSpace s with
  | [] => .error (.atNext .endInObject [])
  | c :: s =>
    if c = '}' then .ok (.done s)
    else if isFirst then nameStart (c :: s)
    else if c = ',' then
      match skipSpace s with
      | [] => .error (.atNext .endInValue [])
      | d :: s => if d = '}' then .error (.atNext .trailingComma (d :: s)) else nameStart (d :: s)
    else .error (.atNext .expectedObjectEnd (c :: s))

def colon (s : List Char) : Except Fault (List Char) :=
  match skipSpace s with
  | [] => .error (.atNext .endInObject [])
  | ':' :: s => .ok s
  | s => .error (.atNext .expectedColon s)

def items (item : Reader α) : Nat → Bool → Reader (List α)
  | 0, _, s => .error (.atNext .endInList s)
  | rounds + 1, isFirst, s => do
    match ← nextItem isFirst s with
    | .done s => .ok ([], s)
    | .item s =>
      let (v, s) ← item s
      let (vs, s) ← items item rounds false s
      .ok (v :: vs, s)

/-- The members of an object whose opening bracket has been taken, added up from `acc`. A member
is given its name and the text from the colon on. -/
def foldMembers (member : σ → String → Reader σ) : Nat → Bool → σ → Reader σ
  | 0, _, _, s => .error (.atNext .endInObject s)
  | rounds + 1, isFirst, acc, s => do
    match ← nextMember isFirst s with
    | .done s => .ok (acc, s)
    | .item s =>
      let (name, s) ← stringAfterQuote s
      let (acc, s) ← member acc name s
      foldMembers member rounds false acc s

/-! ### Values -/

def pushMember (value : Reader Json) (acc : List (String × Json)) (name : String) :
    Reader (List (String × Json)) := fun s => do
  let s ← colon s
  let (v, s) ← value s
  .ok (acc ++ [(name, v)], s)

/-- A value that is neither a list nor an object, from its first character on. -/
def scalar : Reader Json
  | [] => .error (.atNext .endInValue [])
  | c :: s =>
    if c = 'n' then (word ['u', 'l', 'l'] s).map (.null, ·)
    else if c = 't' then (word ['r', 'u', 'e'] s).map (.boolean true, ·)
    else if c = 'f' then (word ['a', 'l', 's', 'e'] s).map (.boolean false, ·)
    else if c = '"' then (stringAfterQuote s).map fun (t, s) => (.string t, s)
    else if c = '-' then number true s
    else if c.isDigit then number false (c :: s)
    else .error (.atNext .expectedValue (c :: s))

/-- A value in which lists and objects are at most `depth` deep. -/
def value : Nat → Reader Json
  | 0, s =>
    match skipSpace s with
    | '[' :: s => .error (.atNext .tooDeep ('[' :: s))
    | '{' :: s => .error (.atNext .tooDeep ('{' :: s))
    | s => scalar s
  | depth + 1, s =>
    match skipSpace s with
    | '[' :: s => (items (value depth) (s.length + 1) true s).map fun (vs, s) => (.array vs, s)
    | '{' :: s =>
      (foldMembers (pushMember (value depth)) (s.length + 1) true [] s).map
        fun (ms, s) => (.object ms, s)
    | s => scalar s

def depthLimit : Nat := 127

/-- Reads a whole text, which can have space at its end. -/
def whole (reader : Reader α) (text : String) : Except Fault α := do
  let (v, s) ← reader text.toList
  match skipSpace s with
  | [] => .ok v
  | s => .error (.atNext .trailingCharacters s)

/-- The value of a text, with the members of its objects as they stand there. -/
def readRaw (text : String) : Except Fault Json := whole (value depthLimit) text

def read (text : String) : Except Fault Json := (readRaw text).map canonical

end ListfileSettings.Json
