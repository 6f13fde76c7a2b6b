import ListfileSettings.Assignment
import ListfileSettings.Text.Blank

/-!
# Reading assignments

The reader goes through the text one character at a time. Its state is the current line, the
assignments read so far and a `Mode`, which says what the next character belongs to. A word or an
integer ends at the first character that is no part of it; that character is then read again.
-/
namespace ListfileSettings.Assignment

/-- A blank separates the parts of an assignment within a line. -/
def isBlank (c : Char) : Bool := c = ' ' || c = '\t' || c = '\r' || c = '\x0c'

def isKeyStart (c : Char) : Bool := c.isAlpha || c = '_'

def isKeyPart (c : Char) : Bool := c.isAlphanum || c = '_'

/-- A sequence that is still open: the line of its bracket and its items so far. -/
structure OpenSequence where
  line : Nat
  items : List Literal
  deriving Repr

/-- Where a value goes: the key that is being assigned, its line and the sequences that are open,
the innermost first. -/
structure Slot where
  key : String
  line : Nat
  sequences : List OpenSequence
  deriving Repr

inductive Mode where
  /-- Between assignments. -/
  | idle
  | comment
  | key (line : Nat) (text : String)
  | afterKey (line : Nat) (key : String)
  /-- Before a value or, in a sequence, also before its end. -/
  | before (slot : Slot)
  | word (slot : Slot) (text : String)
  | integer (slot : Slot) (sign : String) (digits : String)
  | string (slot : Slot) (quote : Char) (line : Nat) (text : String)
  /-- In a string, after a backslash. -/
  | escape (slot : Slot) (quote : Char) (line : Nat) (text : String)
  /-- After a value. -/
  | after (slot : Slot)
  /-- In a comment within a sequence, before or after a value. -/
  | innerComment (slot : Slot) (isAfter : Bool)
  deriving Repr

structure State where
  line : Nat
  done : List Assignment
  mode : Mode
  deriving Repr

namespace State

def start : State := ⟨1, [], .idle⟩

def fail (st : State) (cause : Cause) : Except Malformed State := .error ⟨st.line, cause⟩

def nextLine (st : State) : State := { st with line := st.line + 1 }

def put (st : State) (slot : Slot) (v : Literal) : State :=
  match slot.sequences with
  | [] => { st with done := st.done ++ [⟨slot.key, v, slot.line⟩], mode := .after slot }
  | l :: ls =>
    { st with mode := .after { slot with sequences := { l with items := l.items ++ [v] } :: ls } }

def close (st : State) (slot : Slot) (l : OpenSequence) (ls : List OpenSequence) : State :=
  st.put { slot with sequences := ls } (.sequence l.items)

/-- The text of a character after a backslash; one without a meaning keeps its backslash. -/
def escapeText (c : Char) : List Char :=
  match c with
  | 'n' => ['\n']
  | 't' => ['\t']
  | '\\' => ['\\']
  | '\'' => ['\'']
  | '"' => ['"']
  | c => ['\\', c]

/-- Whether each underscore stands between two digits. -/
def isGrouped (digits : String) : Bool :=
  (Text.pieces '_' digits.toList).all fun group => !group.isEmpty

def integerValue (sign digits : String) : Decimal.Wide :=
  let n : Int := Decimal.value (digits.toList.filter (· ≠ '_'))
  Decimal.Wide.clamp (if sign = "-" then -n else n)

/-- Ends a word, which must be one of the two truth values. -/
def endWord (st : State) (slot : Slot) (text : String) : Except Malformed State :=
  if text = "True" || text = "true" then .ok (st.put slot (.boolean true))
  else if text = "False" || text = "false" then .ok (st.put slot (.boolean false))
  else st.fail (.unexpectedWord text)

/-- Ends an integer before the next character, if there is one. -/
def endInteger (st : State) (slot : Slot) (sign digits : String) (next : Option Char) :
    Except Malformed State :=
  if !isGrouped digits then st.fail .invalidInteger
  else match next with
    | some c =>
      if c = '.' || isKeyPart c then st.fail (.integerRunsOn ((sign ++ digits).push c))
      else .ok (st.put slot (.integer (integerValue sign digits)))
    | none => .ok (st.put slot (.integer (integerValue sign digits)))

def startValue (st : State) (slot : Slot) (c : Char) : Except Malformed State :=
  if c = '\'' || c = '"' then .ok { st with mode := .string slot c st.line "" }
  else if c = '[' then
    .ok { st with mode := .before { slot with sequences := ⟨st.line, []⟩ :: slot.sequences } }
  else if c.isDigit then .ok { st with mode := .integer slot "" (String.singleton c) }
  else if c = '-' || c = '+' then .ok { st with mode := .integer slot (String.singleton c) "" }
  else if isKeyStart c then .ok { st with mode := .word slot (String.singleton c) }
  else if c = '\n' || c = '#' then st.fail .expectedValue
  else st.fail (.unexpectedCharacter c)

def stepIdle (st : State) (c : Char) : Except Malformed State :=
  if isBlank c then .ok st
  else if c = '\n' then .ok st.nextLine
  else if c = '#' then .ok { st with mode := .comment }
  else if isKeyStart c then .ok { st with mode := .key st.line (String.singleton c) }
  else st.fail (.expectedKey c)

def stepAfterKey (st : State) (line : Nat) (key : String) (c : Char) : Except Malformed State :=
  if isBlank c then .ok { st with mode := .afterKey line key }
  else if c = '=' then .ok { st with mode := .before ⟨key, line, []⟩ }
  else .error ⟨line, .expectedEquals key⟩

def stepBefore (st : State) (slot : Slot) (c : Char) : Except Malformed State :=
  if isBlank c then .ok st
  else match slot.sequences with
    | [] => st.startValue slot c
    | l :: ls =>
      if c = '\n' then .ok st.nextLine
      else if c = '#' then .ok { st with mode := .innerComment slot false }
      else if c = ']' then .ok (st.close slot l ls)
      else st.startValue slot c

def stepAfter (st : State) (slot : Slot) (c : Char) : Except Malformed State :=
  if isBlank c then .ok st
  else match slot.sequences with
    | [] =>
      if c = '\n' then .ok { st.nextLine with mode := .idle }
      else if c = '#' then .ok { st with mode := .comment }
      else st.fail (.unexpectedAfterValue c slot.key)
    | l :: ls =>
      if c = '\n' then .ok st.nextLine
      else if c = '#' then .ok { st with mode := .innerComment slot true }
      else if c = ',' then .ok { st with mode := .before slot }
      else if c = ']' then .ok (st.close slot l ls)
      else st.fail (.expectedSeparator c)

/-- Reads a character again after a value has ended before it. -/
def stepEnded (st : State) (c : Char) : Except Malformed State :=
  match st.mode with
  | .after slot => st.stepAfter slot c
  | _ => .ok st

def step (st : State) (c : Char) : Except Malformed State :=
  match st.mode with
  | .idle => st.stepIdle c
  | .comment => .ok (if c = '\n' then { st.nextLine with mode := .idle } else st)
  | .key line text =>
    if isKeyPart c then .ok { st with mode := .key line (text.push c) }
    else st.stepAfterKey line text c
  | .afterKey line key => st.stepAfterKey line key c
  | .before slot => st.stepBefore slot c
  | .word slot text =>
    if isKeyPart c then .ok { st with mode := .word slot (text.push c) }
    else do (← st.endWord slot text).stepEnded c
  | .integer slot sign digits =>
    if c.isDigit || c = '_' then .ok { st with mode := .integer slot sign (digits.push c) }
    else do (← st.endInteger slot sign digits (some c)).stepEnded c
  | .string slot quote line text =>
    if c = '\n' then .error ⟨line, .unterminatedString⟩
    else if c = quote then .ok (st.put slot (.string text))
    else if c = '\\' then .ok { st with mode := .escape slot quote line text }
    else .ok { st with mode := .string slot quote line (text.push c) }
  | .escape slot quote line text =>
    if c = '\n' then .error ⟨line, .unterminatedString⟩
    else .ok { st with mode := .string slot quote line (text ++ String.ofList (escapeText c)) }
  | .after slot => st.stepAfter slot c
  | .innerComment slot isAfter =>
    .ok (if c = '\n' then
      { st.nextLine with mode := if isAfter then .after slot else .before slot } else st)

/-- The end of the text inside a slot, with what is missing where no sequence is open. -/
def finishSlot (slot : Slot) (outside : Except Malformed (List Assignment)) :
    Except Malformed (List Assignment) :=
  match slot.sequences with
  | [] => outside
  | l :: _ => .error ⟨l.line, .unclosedSequence⟩

/-- The end of the text after a value has ended before it. -/
def finishEnded (st : State) : Except Malformed (List Assignment) :=
  match st.mode with
  | .after slot => finishSlot slot (.ok st.done)
  | _ => .ok st.done

def finish (st : State) : Except Malformed (List Assignment) :=
  match st.mode with
  | .idle | .comment => .ok st.done
  | .key line key | .afterKey line key => .error ⟨line, .expectedEquals key⟩
  | .before slot => finishSlot slot (.error ⟨st.line, .expectedValue⟩)
  | .word slot text => do (← st.endWord slot text).finishEnded
  | .integer slot sign digits => do (← st.endInteger slot sign digits none).finishEnded
  | .string _ _ line _ | .escape _ _ line _ => .error ⟨line, .unterminatedString⟩
  | .after slot | .innerComment slot _ => finishSlot slot (.ok st.done)

def run (st : State) (cs : List Char) : Except Malformed State := cs.foldlM step st

theorem run_append (st : State) (cs ds : List Char) :
    st.run (cs ++ ds) = st.run cs >>= fun st => st.run ds := by
  simp [run]

end State

/-- A byte order mark before a text is no part of it. -/
def dropMark : List Char → List Char
  | '\uFEFF' :: cs => cs
  | cs => cs

def readChars (cs : List Char) : Except Malformed (List Assignment) := do
  (← State.start.run cs).finish

/-- The assignments of a settings text, in the order of the text. -/
def read (text : String) : Except Malformed (List Assignment) := readChars (dropMark text.toList)

end ListfileSettings.Assignment
