import ListfileSettings.Json.Typed
import ListfileSettings.Settings

/-!
# Reading a record

A record is read from a JSON text in one pass. It is an object of keys, none of them twice, or a
list of values in canonical order. What is not there keeps its default.
-/
namespace ListfileSettings.Settings

open Json (Reader Fault Mismatch)

def readKind : (k : Kind) → Reader k.Value
  | .positive | .count => Json.typedWord
  | .flag => Json.typedFlag
  | .caseStyle => Json.typedChoice CaseStyle
  | .lineEnding => Json.typedChoice LineEnding
  | .names => Json.typedTexts

/-- A record that is being read and the keys that it has been given. -/
structure Partial where
  settings : Settings
  seen : List Key

/-- A fault of a member's name: it stands after the space behind the name and a bracket there. -/
def nameFault (m : Mismatch) (s : List Char) : Except Fault α :=
  match Json.skipSpace s with
  | '}' :: s => Json.mismatched m s
  | s => Json.mismatched m s

/-- Reads the member of a name, from its colon on. -/
def readMember (p : Partial) (name : String) : Reader Partial := fun s =>
  match Key.ofText? name with
  | none => nameFault (.field name (Named.names Key)) s
  | some k =>
    if k ∈ p.seen then nameFault (.repeated name) s
    else do
      let s ← Json.colon s
      let (v, s) ← readKind k.kind s
      .ok (⟨p.settings.set k v, k :: p.seen⟩, s)

def readListEnd (r : Settings) : Reader Settings := fun s =>
  match Json.skipSpace s with
  | [] => .error (.atNext .endInList [])
  | ']' :: s => .ok (r, s)
  | ',' :: s =>
    match Json.skipSpace s with
    | ']' :: s => .error (.atNext .trailingComma (']' :: s))
    | s => .error (.atNext .trailingCharacters s)
  | s => .error (.atNext .trailingCharacters s)

/-- Reads values for the keys in turn, as many as there are. -/
def readList : List Key → Bool → Settings → Reader Settings
  | [], _, r, s => readListEnd r s
  | k :: ks, isFirst, r, s => do
    match ← Json.nextItem isFirst s with
    | .done s => .ok (r, s)
    | .item s =>
      let (v, s) ← readKind k.kind s
      readList ks false (r.set k v) s

def readRecord : Reader Settings := fun s =>
  match Json.skipSpace s with
  | '[' :: s => readList Key.all true {} s
  | '{' :: s =>
    (Json.foldMembers readMember (s.length + 1) true ⟨{}, []⟩ s).map
      fun (p, s) => (p.settings, s)
  | s => Json.typedScalar .record (fun v => .error (.type v.shape .record)) s

/-- The record of a JSON text, which may be one that is not valid. -/
def ofJsonText (text : String) : Except Fault Settings := Json.whole readRecord text

end ListfileSettings.Settings
