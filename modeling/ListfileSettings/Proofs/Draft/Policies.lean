import ListfileSettings.Proofs.Draft.Items
import ListfileSettings.Proofs.Json.Canonical

/-!
# The two policies

Leaving unknown keys out reports each of them. Rejecting them is the same run, stopped at the first
key that would be reported; leaving them out comes to the same as deleting them beforehand and then
rejecting.
-/
namespace ListfileSettings

/-! ### Stopping at the first ignored key -/

namespace Logged

variable {α β : Type} {x : Logged Failure α} {es es' : List Event}

end Logged

/-! ### Items under the two policies -/

namespace Draft

open Logged

variable {i : Item} {is : List Item} {r r' : Settings}

end Draft

/-! ### Deleting unknown names -/

/-- The contents without the assignments or members of unknown names. Assignments keep their lines. -/
def Contents.known : Contents → Contents
  | assignments as => assignments (as.filter fun a => (Key.ofText? a.key).isSome)
  | members ms => members (ms.filter fun m => (Key.ofText? m.1).isSome)

/-- The variable is no text, or it sets no unknown name under the stem. -/
def Variable.isKnown (v : Variable) (stem : Option String) : Bool :=
  v.texts?.all fun t => stem.all fun stem => (Item.override stem t.1 t.2).unknown?.isNone

/-- The world without the variables under the stem that set unknown names. -/
def World.known (w : World) (stem : Option String) : World :=
  { w with environment := w.environment.filter fun v => v.isKnown stem }

namespace Item

end Item

namespace Draft

open Logged

variable {d : Draft} {w : World} {c : Contents} {text : String} {encoding : Encoding}
  {policy : UnknownKeys} {r : Settings} {texts : List (String × String)}

def loadContents (d : Draft) (w : World) (c : Contents) (policy : UnknownKeys) :
    Logged (Halt Failure) Settings :=
  ((d.withPolicy policy).addContents c).lift >>= fun d => d.load w

def loadText (d : Draft) (w : World) (text : String) (encoding : Encoding) (policy : UnknownKeys) :
    Logged (Halt Failure) Settings :=
  ((d.withPolicy policy).addText text encoding).lift >>= fun d => d.load w

theorem loadText_eq : d.loadText w text encoding policy =
    (Logged.ofExcept (Contents.read text encoding)).lift >>= fun c => d.loadContents w c policy := by
  rw [loadText, addText_eq, Logged.lift_bind, bind_assoc]
  rfl

theorem loadContents_eq : d.loadContents w c policy =
    (takeAll policy d.settings c.items).lift >>= fun settings =>
      (withPolicy { d with settings } policy).load w := by
  rw [loadContents, addContents_eq, useAll_eq, Logged.lift_map, bind_map_left]
  rfl

/-- A draft with a text, loaded under a policy with the overrides among variables. Contents and overrides
are used as one list of items. -/
def loadTextFrom (d : Draft) (texts : List (String × String)) (text : String) (encoding : Encoding)
    (policy : UnknownKeys) : Logged Failure Settings := do
  let c ← Logged.ofExcept (Contents.read text encoding)
  let settings ← takeAll policy d.settings (c.items ++ Item.ofEnvironment texts d.stem)
  finish { d with settings }

theorem loadText_of_findsText (h : d.FindsText w) :
    d.loadText w text encoding policy = (d.loadTextFrom w.texts text encoding policy).lift := by
  rw [loadText_eq, loadTextFrom, Logged.lift_bind]
  refine congrArg _ (funext fun c => ?_)
  rw [loadContents_eq, takeAll_append, bind_assoc, Logged.lift_bind]
  refine congrArg _ (funext fun r => ?_)
  have hr : FindsText (withPolicy { d with settings := r } policy) w := h
  rw [load_of_findsText hr, loadFrom, overrideFrom_eq, useAll_eq, bind_map_left]
  rfl

example : (({} : Draft).loadText ⟨.empty, [], []⟩ "x = 1\ntab_size = 4\n" .assignments .warn).ignored =
    [("x", some 1)] := rfl

end Draft

end ListfileSettings
