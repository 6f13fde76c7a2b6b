import ListfileSettings.Draft

/-!
# The stem while sources are added

A source is added in the same way whatever the stem of a draft is: the same is reported, and it
ends in the same draft up to the stem.
-/
namespace ListfileSettings.Draft

variable {d : Draft} {w : World} {stem : Option String}

def relabel (stem : Option String) (d : Draft) : Draft := { d with stem }

@[simp] theorem relabel_settings : (d.relabel stem).settings = d.settings := rfl

/-- What does not look at the stem keeps it. -/
def KeepsStem (add : Draft → Logged Failure Draft) : Prop :=
  ∀ (stem : Option String) (d : Draft), add (d.relabel stem) = relabel stem <$> add d

theorem keepsStem_pure : KeepsStem pure := by
  intro stem d
  rw [map_pure]

theorem keepsStem_fail (f : Failure) : KeepsStem fun _ => .fail f := fun _ _ => rfl

theorem keepsStem_bind {add add' : Draft → Logged Failure Draft} (h : KeepsStem add)
    (h' : KeepsStem add') : KeepsStem fun d => add d >>= add' := by
  intro stem d
  dsimp only
  rw [h, bind_map_left, map_bind]
  exact congrArg _ (funext fun d => h' stem d)

theorem keepsStem_after {α : Type} {x : Logged Failure α} {add : α → Draft → Logged Failure Draft}
    (h : ∀ a, KeepsStem (add a)) : KeepsStem fun d => x >>= fun a => add a d := by
  intro stem d
  dsimp only
  rw [map_bind]
  exact congrArg _ (funext fun a => h a stem d)

theorem keepsStem_ignore (key : String) (line : Option Nat) : KeepsStem fun d => d.ignore key line := by
  intro stem d
  obtain ⟨settings, policy, stem', source⟩ := d
  cases policy <;> rfl

theorem keepsStem_addAssignment (a : Assignment) : KeepsStem fun d => d.addAssignment a := by
  intro stem d
  simp only [addAssignment, relabel_settings]
  cases d.settings.assign a.key a.value (some a.line) with
  | ok settings => rfl
  | error f =>
    cases f with
    | unknownKey key line => exact keepsStem_ignore key line stem d
    | _ => rfl

theorem keepsStem_addAssignments (earlier : List String) (as : List Assignment) :
    KeepsStem fun d => d.addAssignments earlier as := by
  induction as generalizing earlier with
  | nil => exact keepsStem_pure
  | cons a as ih =>
    have h := keepsStem_bind (keepsStem_addAssignment a) (ih (a.key :: earlier))
    unfold addAssignments
    split
    · exact keepsStem_after fun _ => h
    · exact h

theorem keepsStem_addMember (name : String) (v : Json) : KeepsStem fun d => d.addMember name v := by
  intro stem d
  simp only [addMember, relabel_settings]
  cases Key.ofText? name with
  | none => exact keepsStem_ignore name none stem d
  | some k =>
    dsimp only
    cases d.settings.assignJson k v <;> rfl

theorem keepsStem_addMembers (ms : List (String × Json)) : KeepsStem fun d => d.addMembers ms := by
  induction ms with
  | nil => exact keepsStem_pure
  | cons m ms ih => exact keepsStem_bind (keepsStem_addMember m.1 m.2) ih

theorem keepsStem_addText (content : String) (encoding : Encoding) :
    KeepsStem fun d => d.addText content encoding := by
  cases encoding with
  | assignments =>
    unfold addText
    cases Assignment.read content with
    | error m => exact keepsStem_fail _
    | ok as => exact keepsStem_addAssignments [] as
  | json =>
    unfold addText
    cases Json.read content with
    | error f => exact keepsStem_fail _
    | ok v =>
      cases v with
      | object ms => exact keepsStem_addMembers ms
      | _ => exact keepsStem_fail _

theorem keepsStem_addFile (w : World) (path : String) : KeepsStem fun d => d.addFile w path := by
  unfold addFile
  cases w.entry? path with
  | none => exact keepsStem_fail _
  | some entry =>
    cases entry with
    | directory => exact keepsStem_fail _
    | file bytes =>
      have hs : KeepsStem fun d => pure { d with source := some path } := fun _ _ => rfl
      refine keepsStem_after fun _ => keepsStem_after fun content => ?_
      exact keepsStem_bind (keepsStem_addText content (Encoding.ofPath path)) hs

theorem keepsStem_addOptionalFile (w : World) (path : String) :
    KeepsStem fun d => d.addOptionalFile w path := by
  unfold addOptionalFile
  split
  · exact keepsStem_addFile w path
  · exact keepsStem_pure

theorem keepsStem_addNearest (w : World) (start : String) :
    KeepsStem fun d => d.addNearest w start := by
  refine keepsStem_after fun found => ?_
  cases found with
  | none => exact keepsStem_fail _
  | some path => exact keepsStem_addFile w path

end ListfileSettings.Draft
