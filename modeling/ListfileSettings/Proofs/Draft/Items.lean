import ListfileSettings.Proofs.Draft.Sources

/-!
# What sources are made of

A text and the environment are lists of items: assignments, members and overrides, which a draft uses
one after the other. An item either names no key, then the policy alone decides, or it is put into
the record, whatever the policy is.
-/
namespace ListfileSettings

/-! ### Ignored keys -/

/-- The key that the event reports as ignored, with its line. -/
def Event.ignored? : Event → Option (String × Option Nat)
  | ignored key line => some (key, line)
  | _ => none

namespace Logged

variable {ε α β : Type} {x : Logged ε α} {f : α → Logged ε β}

/-- The keys that are reported as ignored, in order. -/
def ignored (x : Logged ε α) : List (String × Option Nat) := x.events.filterMap Event.ignored?

theorem map_eq (g : α → β) (x : Logged ε α) : g <$> x = ⟨x.events, x.result.map g⟩ := by
  obtain ⟨es, r⟩ := x
  cases r with
  | error e => rfl
  | ok a =>
    change (⟨es ++ [], .ok (g a)⟩ : Logged ε β) = _
    rw [List.append_nil]
    rfl

end Logged

/-! ### Items -/

/-- One thing that a source gives. Of an assignment it is known whether its key was assigned before;
an override comes with the stem that it was looked for under. -/
inductive Item where
  | assignment (isRebound : Bool) (a : Assignment)
  | member (name : String) (v : Json)
  | override (stem name value : String)

namespace Item

def key? : Item → Option String
  | assignment _ a => some a.key
  | member name _ => some name
  | override stem name _ => Override.key? stem name

def line? : Item → Option Nat
  | assignment _ a => some a.line
  | member .. | override .. => none

def notices : Item → List Event
  | assignment true a => [.rebound a.key a.line]
  | _ => []

/-- The name and the line of an item whose name is no key. -/
def unknown? (i : Item) : Option (String × Option Nat) :=
  match i.key? with
  | some key => if (Key.ofText? key).isNone then some (key, i.line?) else none
  | none => none

/-- The assignments of a text after others that assigned the keys `earlier`. -/
def ofAssignments (earlier : List String) : List Assignment → List Item
  | [] => []
  | a :: as => assignment (earlier.contains a.key) a :: ofAssignments (a.key :: earlier) as

def ofMembers (ms : List (String × Json)) : List Item := ms.map fun m => member m.1 m.2

/-- The overrides among variables, if there is a stem for them. -/
def ofEnvironment (texts : List (String × String)) : Option String → List Item
  | some stem => (Override.under stem texts).map fun v => override stem v.1 v.2
  | none => []

variable {i : Item} {key : String} {line : Option Nat}

theorem unknown?_eq_some_iff : i.unknown? = some (key, line) ↔
    i.key? = some key ∧ Key.ofText? key = none ∧ i.line? = line := by
  unfold unknown?
  cases i.key? with
  | none => simp
  | some s =>
    simp only [Option.isNone_iff_eq_none, Option.ite_none_right_eq_some, Option.some.injEq,
      Prod.mk.injEq]
    constructor
    · intro h
      obtain ⟨hs, rfl, hl⟩ := h
      exact ⟨rfl, hs, hl⟩
    · intro h
      obtain ⟨rfl, hs, hl⟩ := h
      exact ⟨hs, rfl, hl⟩

theorem unknown?_of_key {k : Key} (h : i.key? = some k.text) : i.unknown? = none := by
  rw [unknown?, h]
  dsimp only
  rw [Key.ofText?_text]
  rfl

theorem exists_key_of_known (h : i.unknown? = none) (hk : i.key? = some key) :
    ∃ k, Key.ofText? key = some k := by
  cases ho : Key.ofText? key with
  | some k => exact ⟨k, rfl⟩
  | none =>
    rw [unknown?_eq_some_iff.mpr ⟨hk, ho, rfl⟩] at h
    cases h

theorem ignored?_of_mem_notices {e : Event} (h : e ∈ i.notices) : e.ignored? = none := by
  unfold notices at h
  split at h
  · obtain rfl := List.mem_singleton.mp h
    rfl
  · cases h

end Item

namespace Draft

def use (d : Draft) : Item → Logged Failure Draft
  | i@(.assignment _ a) => (⟨i.notices, .ok ()⟩ : Logged Failure Unit) >>= fun () => d.addAssignment a
  | .member name v => d.addMember name v
  | .override stem name value => d.addOverride stem name value

def useAll (d : Draft) (is : List Item) : Logged Failure Draft := is.foldlM use d

variable {d : Draft} {i : Item} {is : List Item} {f : Failure}

/-! ### Using one item -/

theorem use_of_unknown {key : String} {line : Option Nat} (h : i.unknown? = some (key, line)) :
    d.use i = (⟨i.notices, .ok ()⟩ : Logged Failure Unit) >>= fun () => d.ignore key line := by
  obtain ⟨hk, ho, rfl⟩ := Item.unknown?_eq_some_iff.mp h
  cases i with
  | assignment isRebound a =>
    obtain rfl := Option.some.inj hk
    simp only [use, addAssignment, Settings.assign, ho]
    rfl
  | member name v =>
    obtain rfl := Option.some.inj hk
    simp only [use, addMember, ho]
    rfl
  | override stem name value =>
    simp only [Item.key?] at hk
    simp only [use, addOverride, hk, ho]
    rfl

/-- What is used is put into the record: the policy plays no part in it, nothing is ignored, and only
a value can be at fault. -/
def IsPut (use : Draft → Logged Failure Draft) : Prop :=
  ∃ (es : List Event) (put : Settings → Except Failure Settings),
    (∀ e ∈ es, e.ignored? = none) ∧ (∀ r f, put r = .error f → f.kind = .invalidValue) ∧
      ∀ d, use d = ⟨es, (put d.settings).map fun settings => { d with settings }⟩

theorem exists_reason_of_assign {r : Settings} {key : String} {v : Literal} {line : Option Nat}
    {k : Key} (hk : Key.ofText? key = some k) (h : r.assign key v line = .error f) :
    ∃ reason, f = .invalidValue key reason := by
  unfold Settings.assign at h
  rw [hk] at h
  cases ho : k.kind.ofLiteral v with
  | ok x => simp [ho] at h
  | error u =>
    simp only [ho] at h
    exact ⟨_, (Except.error.inj h).symm⟩

theorem isPut_assignment {isRebound : Bool} {a : Assignment} {k : Key}
    (hk : Key.ofText? a.key = some k) : IsPut fun d => d.use (.assignment isRebound a) := by
  refine ⟨(Item.assignment isRebound a).notices, fun r => r.assign a.key a.value (some a.line),
    fun e => Item.ignored?_of_mem_notices, fun r f h => ?_, fun d => ?_⟩
  · obtain ⟨reason, rfl⟩ := exists_reason_of_assign hk h
    rfl
  · change (⟨_, .ok ()⟩ : Logged Failure Unit) >>= (fun () => d.addAssignment a) = _
    rw [Logged.bind_ok, addAssignment]
    cases ha : d.settings.assign a.key a.value (some a.line) with
    | ok r => simp [Logged.pure_eq, Except.map, ha]
    | error f =>
      obtain ⟨reason, rfl⟩ := exists_reason_of_assign hk ha
      simp [Logged.fail, Except.map, ha]

theorem isPut_member {name : String} {v : Json} {k : Key} (hk : Key.ofText? name = some k) :
    IsPut fun d => d.use (.member name v) := by
  refine ⟨[], fun r => r.assignJson k v, nofun, fun r f h => ?_, fun d => ?_⟩
  · unfold Settings.assignJson at h
    split at h
    · cases h
    · obtain rfl := Except.error.inj h
      rfl
  · simp only [use, addMember, hk]
    cases d.settings.assignJson k v <;> rfl

theorem isPut_fail (h : f.kind = .invalidValue) : IsPut fun _ => .fail f := by
  refine ⟨[], fun _ => .error f, nofun, fun r f' he => ?_, fun _ => rfl⟩
  obtain rfl := Except.error.inj he
  exact h

theorem isPut_override {stem name value key : String} {k : Key}
    (hn : Override.key? stem name = some key) (hk : Key.ofText? key = some k) :
    IsPut fun d => d.use (.override stem name value) := by
  simp only [use, addOverride, hn, hk]
  cases Override.literal? k.kind value with
  | none => exact isPut_fail rfl
  | some v =>
    refine ⟨[.overriding name key], fun r => (r.assign key v none).mapError (blame name), ?_,
      fun r f h => ?_, fun d => ?_⟩
    · intro e he
      obtain rfl := List.mem_singleton.mp he
      rfl
    · dsimp only at h
      cases ha : r.assign key v none with
      | ok r' =>
        rw [ha] at h
        cases h
      | error f' =>
        obtain ⟨reason, rfl⟩ := exists_reason_of_assign hk ha
        rw [ha] at h
        obtain rfl := Except.error.inj h
        rfl
    · cases ha : d.settings.assign key v none <;> simp only [ha] <;> rfl

theorem isPut_of_known (h : i.unknown? = none) : IsPut fun d => d.use i := by
  cases i with
  | assignment isRebound a =>
    obtain ⟨k, hk⟩ := Item.exists_key_of_known h rfl
    exact isPut_assignment hk
  | member name v =>
    obtain ⟨k, hk⟩ := Item.exists_key_of_known h rfl
    exact isPut_member hk
  | override stem name value =>
    cases hn : Override.key? stem name with
    | none =>
      simp only [use, addOverride, hn]
      exact isPut_fail rfl
    | some key =>
      obtain ⟨k, hk⟩ := Item.exists_key_of_known h hn
      exact isPut_override hn hk

theorem kind_of_use (h : (d.use i).result = .error f) :
    f.kind = if i.unknown?.isSome then .unknownKey else .invalidValue := by
  cases hu : i.unknown? with
  | none =>
    obtain ⟨es, put, -, hk, hp⟩ := isPut_of_known hu
    have hp : d.use i = _ := hp d
    rw [hp] at h
    cases hr : put d.settings with
    | ok r => simp [hr, Except.map] at h
    | error f' =>
      simp only [hr, Except.map] at h
      obtain rfl := Except.error.inj h
      exact hk _ _ hr
  | some u =>
    obtain ⟨key, line⟩ := u
    rw [use_of_unknown hu, Logged.bind_ok] at h
    cases hp : d.policy with
    | reject =>
      simp only [ignore, hp] at h
      obtain rfl := Except.error.inj h
      rfl
    | warn =>
      simp only [ignore, hp] at h
      cases h

/-! ### The record alone -/

/-- What using an item does to a record. -/
def take (policy : UnknownKeys) (r : Settings) (i : Item) : Logged Failure Settings :=
  settings <$> use { settings := r, policy } i

/-- What using items in their order does to a record. -/
def takeAll (policy : UnknownKeys) (r : Settings) (is : List Item) : Logged Failure Settings :=
  is.foldlM (take policy) r

/-- An item changes nothing of a draft but the record. -/
theorem use_eq (d : Draft) (i : Item) :
    d.use i = (fun settings => { d with settings }) <$> take d.policy d.settings i := by
  rw [take, Functor.map_map]
  cases hu : i.unknown? with
  | none =>
    obtain ⟨es, put, -, -, hp⟩ := isPut_of_known hu
    have hd : d.use i = _ := hp d
    have hr : use { settings := d.settings, policy := d.policy } i = _ := hp _
    rw [hd, hr, Logged.map_eq]
    dsimp only
    cases put d.settings <;> rfl
  | some u =>
    obtain ⟨key, line⟩ := u
    obtain ⟨settings, policy, stem, source⟩ := d
    rw [use_of_unknown hu, use_of_unknown hu, map_bind]
    cases policy <;> rfl

theorem takeAll_cons {policy : UnknownKeys} {r : Settings} :
    takeAll policy r (i :: is) = take policy r i >>= fun r => takeAll policy r is := List.foldlM_cons

theorem takeAll_append {policy : UnknownKeys} {r : Settings} {is' : List Item} :
    takeAll policy r (is ++ is') = takeAll policy r is >>= fun r => takeAll policy r is' :=
  List.foldlM_append

/-! ### Using all items -/

theorem useAll_cons : d.useAll (i :: is) = d.use i >>= fun d => d.useAll is := List.foldlM_cons

theorem useAll_eq (d : Draft) (is : List Item) :
    d.useAll is = (fun settings => { d with settings }) <$> takeAll d.policy d.settings is := by
  induction is generalizing d with
  | nil => rfl
  | cons i is ih =>
    rw [useAll_cons, takeAll_cons, use_eq, bind_map_left, map_bind]
    exact congrArg _ (funext fun r => ih { d with settings := r })

theorem exists_use_of_error (h : (d.useAll is).result = .error f) :
    ∃ d', ∃ i ∈ is, (use d' i).result = .error f := by
  induction is generalizing d with
  | nil => cases h
  | cons i is ih =>
    rw [useAll_cons, Logged.result_bind_eq_error_iff] at h
    rcases h with h | ⟨d₁, -, h⟩
    · exact ⟨d, i, List.mem_cons_self, h⟩
    · obtain ⟨d', j, hj, he⟩ := ih h
      exact ⟨d', j, List.mem_cons_of_mem i hj, he⟩

/-! ### Sources as items -/

theorem addAssignments_eq (earlier : List String) (as : List Assignment) :
    d.addAssignments earlier as = d.useAll (Item.ofAssignments earlier as) := by
  induction as generalizing d earlier with
  | nil => rfl
  | cons a as ih =>
    rw [addAssignments_cons, Item.ofAssignments, useAll_cons, use, bind_assoc]
    have hn : (Item.assignment (earlier.contains a.key) a).notices =
        if earlier.contains a.key then [.rebound a.key a.line] else [] := by
      cases earlier.contains a.key <;> rfl
    rw [hn]
    simp only [ih]

theorem addMembers_eq (ms : List (String × Json)) : d.addMembers ms = d.useAll (Item.ofMembers ms) := by
  induction ms generalizing d with
  | nil => rfl
  | cons m ms ih =>
    rw [addMembers, Item.ofMembers, List.map_cons, useAll_cons]
    simp only [ih]
    rfl

theorem addOverrides_eq (stem : String) (vs : List (String × String)) :
    d.addOverrides stem vs = d.useAll (vs.map fun v => .override stem v.1 v.2) := by
  induction vs generalizing d with
  | nil => rfl
  | cons v vs ih =>
    rw [addOverrides, List.map_cons, useAll_cons]
    simp only [ih]
    rfl

theorem overrideFrom_eq (texts : List (String × String)) :
    d.overrideFrom texts = d.useAll (Item.ofEnvironment texts d.stem) := by
  unfold overrideFrom Item.ofEnvironment
  cases d.stem with
  | none => rfl
  | some stem => exact addOverrides_eq stem _

end Draft

/-! ### Texts -/

/-- What a settings text is read as. -/
inductive Contents where
  | assignments (as : List Assignment)
  | members (ms : List (String × Json))

namespace Contents

def read (text : String) : Encoding → Except Failure Contents
  | .assignments =>
    match Assignment.read text with
    | .ok as => .ok (.assignments as)
    | .error m => .error (.malformed m.line m.cause.message)
  | .json =>
    match Json.read text with
    | .ok (.object ms) => .ok (.members ms)
    | .ok _ => .error (.malformed 1 "expected a JSON object")
    | .error f => .error (.malformed (f.position text).line (f.message text))

def items : Contents → List Item
  | assignments as => Item.ofAssignments [] as
  | members ms => Item.ofMembers ms

theorem kind_of_read {text : String} {encoding : Encoding} {f : Failure}
    (h : read text encoding = .error f) : f.kind = .malformed := by
  unfold read at h
  cases encoding with
  | assignments =>
    dsimp only at h
    split at h
    · cases h
    · obtain rfl := Except.error.inj h
      rfl
  | json =>
    dsimp only at h
    split at h
    · cases h
    · obtain rfl := Except.error.inj h
      rfl
    · obtain rfl := Except.error.inj h
      rfl

end Contents

namespace Draft

variable {d : Draft} {text : String} {encoding : Encoding} {f : Failure}

def addContents (d : Draft) : Contents → Logged Failure Draft
  | .assignments as => d.addAssignments [] as
  | .members ms => d.addMembers ms

theorem addContents_eq (d : Draft) (c : Contents) : d.addContents c = d.useAll c.items := by
  cases c with
  | assignments as => exact addAssignments_eq [] as
  | members ms => exact addMembers_eq ms

/-- A text is added by reading it and using what it is read as. -/
theorem addText_eq : d.addText text encoding =
    Logged.ofExcept (Contents.read text encoding) >>= d.addContents := by
  unfold addText Contents.read
  cases encoding with
  | assignments =>
    dsimp only
    cases Assignment.read text <;> rfl
  | json =>
    dsimp only
    cases Json.read text with
    | error m => rfl
    | ok v => cases v <;> rfl

theorem kind_of_addText (h : (d.addText text encoding).result = .error f) :
    f.kind ≠ .inputOutput := by
  rw [addText_eq, Logged.result_bind_eq_error_iff] at h
  rcases h with h | ⟨c, -, h⟩
  · rw [Contents.kind_of_read h]
    decide
  · rw [addContents_eq] at h
    obtain ⟨d', i, -, hu⟩ := exists_use_of_error h
    rw [kind_of_use hu]
    split <;> decide

/-! ### Loading -/

/-- What is loaded depends on the record, the policy and the overrides, not on the file read last. -/
theorem result_loadFrom (d : Draft) (texts : List (String × String)) : (d.loadFrom texts).result =
    (takeAll d.policy d.settings (Item.ofEnvironment texts d.stem)).result >>= fun r =>
      r.validate.map fun _ => r := by
  rw [loadFrom, Logged.result_bind, overrideFrom_eq, useAll_eq, Logged.map_eq]
  cases (takeAll d.policy d.settings (Item.ofEnvironment texts d.stem)).result with
  | error f => rfl
  | ok r => exact result_finish _

theorem kind_of_finish (h : d.finish.result = .error f) : f.kind = .invalidValue := by
  rw [finish, Logged.result_bind_eq_error_iff] at h
  rcases h with h | ⟨u, -, h⟩
  · obtain ⟨k, reason, rfl⟩ := Settings.exists_key_of_validate h
    rfl
  · cases h

/-- Loading a draft reads no file, so it fails for what settings say. -/
theorem kind_of_load_ne {w : World} (h : (d.load w).result = .error (.failure f)) :
    f.kind ≠ .inputOutput := by
  obtain ⟨-, h⟩ := result_load_failure_iff.mp h
  rw [loadFrom, Logged.result_bind_eq_error_iff, overrideFrom_eq] at h
  rcases h with h | ⟨d', -, h⟩
  · obtain ⟨d', i, -, hu⟩ := exists_use_of_error h
    rw [kind_of_use hu]
    split <;> decide
  · rw [kind_of_finish h]
    decide

end Draft

end ListfileSettings
