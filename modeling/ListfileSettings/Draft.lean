import ListfileSettings.Assignment.Reader
import ListfileSettings.Json.Reader
import ListfileSettings.Override
import ListfileSettings.Settings.Update
import ListfileSettings.World

/-!
# Drafts

A draft is a record that sources are put on top of, one after the other: texts, files, and at the
end the overrides of the environment. What fails leaves no record behind.
-/
namespace ListfileSettings

/-- A record in the making and how it is made. -/
structure Draft where
  settings : Settings := {}
  /-- Applies to the sources that are added from now on and to overrides. -/
  policy : UnknownKeys := .reject
  /-- The stem of the overrides, if they are to be used. -/
  stem : Option String := none
  /-- The settings file that was read last. -/
  source : Option String := none
  deriving Repr

namespace Draft

def reset (d : Draft) : Draft := { d with settings := {} }

def withPolicy (d : Draft) (policy : UnknownKeys) : Draft := { d with policy }

/-- Uses the overrides under a stem, which is taken in upper case. -/
def withStem (d : Draft) (stem : String) : Draft := { d with stem := some (Text.upper stem) }

/-- Leaves out an unknown key, if that is the policy. -/
def ignore (d : Draft) (key : String) (line : Option Nat) : Logged Failure Draft :=
  match d.policy with
  | .reject => .fail (.unknownKey key line)
  | .warn => do
    Logged.emit (.ignored key line)
    pure d

def addAssignment (d : Draft) (a : Assignment) : Logged Failure Draft :=
  match d.settings.assign a.key a.value (some a.line) with
  | .ok settings => pure { d with settings }
  | .error (.unknownKey key line) => d.ignore key line
  | .error f => .fail f

/-- Adds assignments after others that assigned the keys `earlier`. -/
def addAssignments (d : Draft) (earlier : List String) : List Assignment → Logged Failure Draft
  | [] => pure d
  | a :: as => do
    if earlier.contains a.key then Logged.emit (.rebound a.key a.line)
    let d ← d.addAssignment a
    d.addAssignments (a.key :: earlier) as

def addMember (d : Draft) (name : String) (v : Json) : Logged Failure Draft :=
  match Key.ofText? name with
  | none => d.ignore name none
  | some k =>
    match d.settings.assignJson k v with
    | .ok settings => pure { d with settings }
    | .error f => .fail f

def addMembers (d : Draft) : List (String × Json) → Logged Failure Draft
  | [] => pure d
  | (name, v) :: ms => do
    let d ← d.addMember name v
    d.addMembers ms

def addText (d : Draft) (text : String) : Encoding → Logged Failure Draft
  | .assignments =>
    match Assignment.read text with
    | .ok as => d.addAssignments [] as
    | .error m => .fail (.malformed m.line m.cause.message)
  | .json =>
    match Json.read text with
    | .ok (.object ms) => d.addMembers ms
    | .ok _ => .fail (.malformed 1 "expected a JSON object")
    | .error f => .fail (.malformed (f.position text).line (f.message text))

def flawMessage (flaw : Text.Utf8.Flaw) : String :=
  "invalid UTF-8: " ++
    match flaw.length with
    | some n =>
      "invalid utf-8 sequence of " ++ Decimal.naturalText n ++ " bytes from index " ++
        Decimal.naturalText flaw.valid
    | none => "incomplete utf-8 byte sequence from index " ++ Decimal.naturalText flaw.valid

/-- The text of a file. A flaw is a fault of the line on which it stands. -/
def decode (bytes : List UInt8) : Except Failure String :=
  match Text.Utf8.decode bytes with
  | .ok cs => .ok (String.ofList cs)
  | .error flaw =>
    .error (.malformed ((bytes.take flaw.valid).count 10 + 1) (flawMessage flaw))

/-- Adds the settings of a file, in the encoding that its name stands for. -/
def addFile (d : Draft) (w : World) (path : String) : Logged Failure Draft :=
  match w.entry? path with
  | none => .fail (.fileNotFound path)
  | some .directory => .fail (.unreadable path "Is a directory (os error 21)")
  | some (.file bytes) => do
    Logged.emit (.read path bytes.length)
    let text ← Logged.ofExcept (decode bytes)
    let d ← d.addText text (Encoding.ofPath path)
    pure { d with source := some path }

def addOptionalFile (d : Draft) (w : World) (path : String) : Logged Failure Draft :=
  if w.exists? path then d.addFile w path else pure d

def addNearest (d : Draft) (w : World) (start : String) : Logged Failure Draft := do
  match ← Search.upwards w start with
  | some path => d.addFile w path
  | none => .fail (.notDiscovered start)

/-- A value that cannot be used is a failure of the variable that it comes from. -/
def blame (name : String) : Failure → Failure
  | .invalidValue _ reason => .environment name reason
  | f => f

def addOverride (d : Draft) (stem : String) (name value : String) : Logged Failure Draft :=
  match Override.key? stem name with
  | none => .fail (.environment name "invalid key format")
  | some key =>
    match Key.ofText? key with
    | none => d.ignore key none
    | some k =>
      match Override.literal? k.kind value with
      | none => .fail (.environment name (Override.expectation k.kind))
      | some v => do
        Logged.emit (.overriding name key)
        let settings ← Logged.ofExcept ((d.settings.assign key v none).mapError (blame name))
        pure { d with settings }

def addOverrides (d : Draft) (stem : String) :
    List (String × String) → Logged Failure Draft
  | [] => pure d
  | (name, value) :: vs => do
    let d ← d.addOverride stem name value
    d.addOverrides stem vs

/-- Uses the overrides of the environment, if there is a stem for them. All variables are decoded
before any is picked out: one that is not text breaks the operation off, whatever its name is. -/
def override (d : Draft) (w : World) : Logged (Halt Failure) Draft :=
  match d.stem with
  | none => pure d
  | some stem =>
    match w.texts? with
    | some texts => (d.addOverrides stem (Override.under stem texts)).lift
    | none => .fail .crash

def finish (d : Draft) : Logged Failure Settings := do
  let () ← Logged.ofExcept d.settings.validate
  Logged.emit (.loaded d.source)
  pure d.settings

/-- The record with the overrides, if it is valid. -/
def load (d : Draft) (w : World) : Logged (Halt Failure) Settings := do
  let d ← d.override w
  d.finish.lift

end Draft

namespace Settings

/-- The record of a settings text, with no key that is not known. -/
def ofText (text : String) : Logged Failure Settings := do
  let d ← ({} : Draft).addText text .assignments
  d.finish

def ofFile (w : World) (path : String) : Logged Failure Settings := do
  let d ← ({} : Draft).addFile w path
  d.finish

end Settings

end ListfileSettings
