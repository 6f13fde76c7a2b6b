import ListfileSettings.Settings.Update

/-!
# Updates in place

A record that is changed where it is. It is written as an object, one member of the object is
replaced and a record is read back; only if that goes well does the new record take its place. One
member of the object is also what is shown of a key.
-/
namespace ListfileSettings

/-- The JSON value of a literal for the kind: the integer of an integer key must be in its bounds. -/
def Kind.jsonOf : Kind → Literal → Except Unfit Json
  | .positive, .integer n => (bounded 1 .belowOne n.val).map fun w => .integer w.toNat
  | .count, .integer n => (bounded 0 .negative n.val).map fun w => .integer w.toNat
  | _, v => v.toJson

namespace Settings

/-- One member more of a record that is read from an object. -/
def takeMember (r : Settings) (m : String × Json) : Except Json.Mismatch Settings :=
  match Key.ofText? m.1 with
  | none => .error (.field m.1 (Named.names Key))
  | some k => (k.kind.ofJson m.2).map (r.set k)

/-- The record of the members of an object, over the defaults. -/
def ofMembers (ms : List (String × Json)) : Except Json.Mismatch Settings := ms.foldlM takeMember {}

/-- The members of the object that the record is written as, in the order of their names. -/
def members (r : Settings) : List (String × Json) :=
  Json.sortMembers (Key.all.map fun k => (k.text, k.kind.toJson (r.get k)))

/-- The value of the key with this name as a literal, if there is one. -/
def literal? (r : Settings) (key : String) : Option Literal :=
  r.members.lookup key >>= Literal.ofJson?

/-- The record that is read back when one member is replaced. -/
def replaceMember (r : Settings) (name : String) (v : Json) : Except Json.Mismatch Settings :=
  ofMembers (Json.insertMember name v r.members)

/-- Puts what is made of the record in its place, unless that fails. -/
def replaceWith (make : Settings → Except Failure Settings) :
    ExceptT Failure (StateM Settings) Unit := do
  let r ← MonadExcept.ofExcept (make (← getThe Settings))
  MonadStateOf.set r

def setMember (name : String) (v : Json) (line : Option Nat) :
    ExceptT Failure (StateM Settings) Unit :=
  replaceWith fun r =>
    (r.replaceMember name v).mapError fun m => .invalidValue name (reasonAt m.message line)

/-- Sets a key of the record in place to a literal that comes from this line. -/
def apply (key : String) (v : Literal) (line : Option Nat) :
    ExceptT Failure (StateM Settings) Unit :=
  match Key.ofText? key with
  | none => throw (.unknownKey key line)
  | some k =>
    match k.kind.jsonOf v with
    | .error unfit => throw (.invalidValue key (reasonAt unfit.message line))
    | .ok j => setMember key j line

end Settings

end ListfileSettings
