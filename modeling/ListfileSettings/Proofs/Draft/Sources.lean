import ListfileSettings.Proofs.Draft.Assignments
import ListfileSettings.Proofs.Override.Variables

/-!
# Adding sources

What each kind of source does to a draft, under either policy: the settings that it gives are put
into the record one after the other, and nothing else of the draft changes but the source itself.
-/
namespace ListfileSettings

/-! ### The settings of a source -/

namespace Given

/-- The settings that a text gives, if it can be read. -/
def settings? (content : String) : Encoding → Option (List Setting)
  | .assignments =>
    match Assignment.read content with
    | .ok as => some (as.map fun a => (a.key, .literal a.value))
    | .error _ => none
  | .json =>
    match Json.read content with
    | .ok (.object ms) => some (ms.map fun m => (m.1, .json m.2))
    | _ => none

/-- A JSON text gives the members of an object in the order of their names. -/
theorem settings?_json_eq_some_iff {content : String} {es : List Setting} :
    settings? content .json = some es ↔ ∃ ms, Json.readRaw content = .ok (.object ms) ∧
      es = (Json.sortMembers (Json.canonicalMembers ms)).map fun m => (m.1, .json m.2) := by
  unfold settings? Json.read
  dsimp only
  cases Json.readRaw content with
  | error f => simp [Except.map]
  | ok v => cases v <;> simp [Except.map, Json.canonical, eq_comm]

def fileSettings? (w : World) (path : String) : Option (List Setting) :=
  match w.entry? path with
  | some (.file bytes) =>
    match Draft.decode bytes with
    | .ok content => settings? content (Encoding.ofPath path)
    | .error _ => none
  | _ => none

end Given

namespace Draft

open Settings

variable {d d' : Draft} {w : World} {texts : List (String × String)}

/-! ### One setting -/

theorem result_ignore_iff {key : String} {line : Option Nat} :
    (d.ignore key line).result = .ok d' ↔ d.policy = .warn ∧ d' = d := by
  cases h : d.policy with
  | reject => simp [ignore, h, Logged.fail]
  | warn =>
    simp only [ignore, h, Logged.result_bind]
    change Except.ok d = .ok d' ↔ _
    simp [eq_comm]

theorem result_ignore_error_iff {name : String} {line : Option Nat} {f : Failure} :
    (d.ignore name line).result = .error f ↔ d.policy = .reject ∧ f = .unknownKey name line := by
  cases h : d.policy with
  | reject => simp [ignore, h, Logged.fail, eq_comm]
  | warn =>
    simp only [ignore, h, Logged.result_bind]
    change Except.ok d = .error f ↔ _
    simp

theorem step_unknown_iff {e : Setting} (hn : ∀ k : Key, e.1 ≠ k.text) :
    (∃ r, Step d.policy d.settings e r ∧ d' = { d with settings := r }) ↔
      d.policy = .warn ∧ d' = d := by
  constructor
  · intro h
    obtain ⟨r, h, rfl⟩ := h
    cases h with
    | known => exact absurd rfl (hn _)
    | unknown hp => exact ⟨hp, rfl⟩
  · intro h
    obtain ⟨hp, rfl⟩ := h
    exact ⟨d'.settings, .unknown hp hn, rfl⟩

theorem step_known_iff {k : Key} {g : Given} :
    (∃ r, Step d.policy d.settings (k.text, g) r ∧ d' = { d with settings := r }) ↔
      ∃ x, g.Denotes k.kind x ∧ d' = { d with settings := d.settings.set k x } := by
  simp only [step_key_iff]
  constructor
  · intro h
    obtain ⟨r, ⟨x, hx, rfl⟩, rfl⟩ := h
    exact ⟨x, hx, rfl⟩
  · intro h
    obtain ⟨x, hx, rfl⟩ := h
    exact ⟨_, ⟨x, hx, rfl⟩, rfl⟩

theorem result_addAssignment_iff {a : Assignment} : (d.addAssignment a).result = .ok d' ↔
    ∃ r, Step d.policy d.settings (a.key, .literal a.value) r ∧
      d' = { d with settings := r } := by
  obtain ⟨key, v, line⟩ := a
  cases hk : Key.ofText? key with
  | none =>
    rw [step_unknown_iff (Key.ofText?_eq_none_iff.mp hk)]
    simp only [addAssignment, assign, hk]
    exact result_ignore_iff
  | some k =>
    obtain rfl := Key.ofText?_eq_some_iff.mp hk
    rw [step_known_iff]
    simp only [addAssignment, assign, hk, Given.Denotes, ← Kind.ofLiteral_eq_ok_iff]
    cases k.kind.ofLiteral v with
    | error u => simp [Logged.fail]
    | ok x => simp [Logged.pure_eq, eq_comm]

theorem result_addMember_iff {name : String} {v : Json} : (d.addMember name v).result = .ok d' ↔
    ∃ r, Step d.policy d.settings (name, .json v) r ∧ d' = { d with settings := r } := by
  cases hk : Key.ofText? name with
  | none =>
    rw [step_unknown_iff (Key.ofText?_eq_none_iff.mp hk)]
    simp only [addMember, hk]
    exact result_ignore_iff
  | some k =>
    obtain rfl := Key.ofText?_eq_some_iff.mp hk
    rw [step_known_iff]
    simp only [addMember, assignJson, hk, Given.Denotes, ← Kind.ofJson_eq_ok_iff]
    cases k.kind.ofJson v with
    | error m => simp [Logged.fail]
    | ok x => simp [Logged.pure_eq, eq_comm]

theorem result_addOverride_iff {stem name value : String} (h : Override.isUnder stem name) :
    (d.addOverride stem name value).result = .ok d' ↔
      ∃ r, Step d.policy d.settings (Override.keyText stem name, .text value) r ∧
        d' = { d with settings := r } := by
  rw [addOverride, Override.key?_of_isUnder h]
  generalize Override.keyText stem name = key
  dsimp only
  cases hk : Key.ofText? key with
  | none =>
    rw [step_unknown_iff (Key.ofText?_eq_none_iff.mp hk)]
    exact result_ignore_iff
  | some k =>
    obtain rfl := Key.ofText?_eq_some_iff.mp hk
    rw [step_known_iff]
    dsimp only [Given.Denotes]
    cases Override.literal? k.kind value with
    | none => simp [Logged.fail]
    | some v =>
      simp only [Logged.result_bind, Logged.emit, Logged.ofExcept, assign, hk,
        Option.some.injEq, exists_eq_left', ← Kind.ofLiteral_eq_ok_iff]
      cases k.kind.ofLiteral v with
      | error u => simp [bind_eq_ok, mapError_eq_ok]
      | ok x =>
        change Except.ok { d with settings := d.settings.set k x } = .ok d' ↔ _
        simp [eq_comm]

/-! ### All settings -/

/-- A source that goes through its items puts what they give into the record one after the other. -/
theorem steps_of_items {α : Type} {setting : α → Setting}
    (add : Draft → List α → Logged Failure Draft)
    (hn : ∀ d, (add d []).result = .ok d) {items : List α}
    (hc : ∀ a ∈ items, ∀ d as d', (add d (a :: as)).result = .ok d' ↔ ∃ d₁,
      (∃ r, Step d.policy d.settings (setting a) r ∧ d₁ = { d with settings := r }) ∧
        (add d₁ as).result = .ok d') :
    (add d items).result = .ok d' ↔
      ∃ r, Steps d.policy d.settings (items.map setting) r ∧ d' = { d with settings := r } := by
  induction items generalizing d with
  | nil => simp [hn, steps_nil_iff, eq_comm]
  | cons a as ih =>
    obtain ⟨ha, hs⟩ := List.forall_mem_cons.mp hc
    rw [ha, List.map_cons]
    constructor
    · intro h
      obtain ⟨_, ⟨r₁, h, rfl⟩, ho⟩ := h
      obtain ⟨r, hr, rfl⟩ := (ih hs).mp ho
      exact ⟨r, .cons h hr, rfl⟩
    · intro h
      obtain ⟨r, hr, rfl⟩ := h
      obtain ⟨r₁, h, hr⟩ := steps_cons_iff.mp hr
      exact ⟨{ d with settings := r₁ }, ⟨r₁, h, rfl⟩, (ih hs).mpr ⟨r, hr, rfl⟩⟩

/-- Earlier keys only decide what is reported. -/
theorem result_addAssignments_earlier (earlier : List String) {as : List Assignment} :
    (d.addAssignments earlier as).result = (d.addAssignments [] as).result := by
  induction as generalizing d earlier with
  | nil => rfl
  | cons a as ih =>
    rw [addAssignments_cons, addAssignments_cons]
    simp only [Logged.result_bind]
    refine congrArg _ (funext fun _ => congrArg _ (funext fun d₁ => ?_))
    rw [ih, ih [a.key]]

theorem result_addAssignments_iff {earlier : List String} {as : List Assignment} :
    (d.addAssignments earlier as).result = .ok d' ↔
      ∃ r, Steps d.policy d.settings (as.map fun a => (a.key, .literal a.value)) r ∧
        d' = { d with settings := r } := by
  rw [result_addAssignments_earlier]
  refine steps_of_items (fun d as => d.addAssignments [] as) (fun _ => rfl) fun a _ d as d' => ?_
  simp only [addAssignments_cons, Logged.result_bind, ← result_addAssignment_iff, ← bind_eq_ok]
  simp only [result_addAssignments_earlier [a.key]]
  rfl

theorem result_addMembers_iff {ms : List (String × Json)} : (d.addMembers ms).result = .ok d' ↔
    ∃ r, Steps d.policy d.settings (ms.map fun m => (m.1, .json m.2)) r ∧
      d' = { d with settings := r } := by
  refine steps_of_items addMembers (fun _ => rfl) fun m _ d ms d' => ?_
  rw [addMembers, Logged.result_bind, bind_eq_ok]
  simp only [result_addMember_iff]

theorem result_addOverrides_iff {stem : String} {vs : List (String × String)}
    (h : ∀ v ∈ vs, Override.isUnder stem v.1) :
    (d.addOverrides stem vs).result = .ok d' ↔
      ∃ r, Steps d.policy d.settings
          (vs.map fun v => (Override.keyText stem v.1, .text v.2)) r ∧
        d' = { d with settings := r } := by
  refine steps_of_items (fun d vs => d.addOverrides stem vs) (fun _ => rfl) fun v hv d vs d' => ?_
  rw [addOverrides, Logged.result_bind, bind_eq_ok]
  simp only [result_addOverride_iff (h v hv)]

/-! ### Texts, files and overrides -/

theorem result_addText_iff {content : String} {encoding : Encoding} :
    (d.addText content encoding).result = .ok d' ↔
      ∃ es r, Given.settings? content encoding = some es ∧ Steps d.policy d.settings es r ∧
        d' = { d with settings := r } := by
  cases encoding with
  | assignments =>
    unfold addText Given.settings?
    dsimp only
    cases Assignment.read content with
    | error m => simp [Logged.fail]
    | ok as => simp [result_addAssignments_iff]
  | json =>
    unfold addText Given.settings?
    dsimp only
    cases Json.read content with
    | error f => simp [Logged.fail]
    | ok v =>
      cases v with
      | object ms => simp [result_addMembers_iff]
      | _ => simp [Logged.fail]

theorem result_addFile_iff {path : String} : (d.addFile w path).result = .ok d' ↔
    ∃ es r, Given.fileSettings? w path = some es ∧ Steps d.policy d.settings es r ∧
      d' = { d with settings := r, source := some path } := by
  unfold addFile Given.fileSettings?
  cases w.entry? path with
  | none => simp [Logged.fail]
  | some entry =>
    cases entry with
    | directory => simp [Logged.fail]
    | file bytes =>
      simp only [Logged.result_bind, Logged.emit, Logged.ofExcept]
      cases decode bytes with
      | error f => simp [bind, Except.bind]
      | ok content =>
        change ((d.addText content (Encoding.ofPath path)).result >>=
          fun d => Except.ok { d with source := some path }) = _ ↔ _
        simp only [bind_eq_ok, result_addText_iff]
        constructor
        · intro h
          obtain ⟨_, ⟨es, r, he, hs, rfl⟩, h⟩ := h
          exact ⟨es, r, he, hs, (Except.ok.inj h).symm⟩
        · intro h
          obtain ⟨es, r, he, hs, rfl⟩ := h
          exact ⟨_, ⟨es, r, he, hs, rfl⟩, rfl⟩

theorem result_addNearest {start : String} : (d.addNearest w start).result =
    match Search.nearest w (Path.fold w.cwd start) with
    | some path => (d.addFile w path).result
    | none => .error (.notDiscovered start) := by
  rw [addNearest, Logged.result_bind, Search.upwards]
  cases Search.nearest w (Path.fold w.cwd start) <;> rfl

/-- The settings that the overrides among variables give, if there is a stem for them. -/
def overrides (texts : List (String × String)) : Option String → List Setting
  | some stem => Override.settings stem texts
  | none => []

def overrideFrom (d : Draft) (texts : List (String × String)) : Logged Failure Draft :=
  match d.stem with
  | some stem => d.addOverrides stem (Override.under stem texts)
  | none => pure d

theorem result_overrideFrom_iff : (d.overrideFrom texts).result = .ok d' ↔
    ∃ r, Steps d.policy d.settings (overrides texts d.stem) r ∧
      d' = { d with settings := r } := by
  obtain ⟨settings, policy, stem, source⟩ := d
  cases stem with
  | none =>
    simp only [overrideFrom, overrides, steps_nil_iff, exists_eq_left]
    change Except.ok _ = .ok d' ↔ _
    simp [eq_comm]
  | some stem => exact result_addOverrides_iff fun v => Override.isUnder_of_mem_under

theorem result_finish_iff {r : Settings} :
    d.finish.result = .ok r ↔ d.settings.validate = .ok () ∧ r = d.settings := by
  rw [result_finish, map_eq_ok]
  constructor
  · intro h
    obtain ⟨⟨⟩, hv, rfl⟩ := h
    exact ⟨hv, rfl⟩
  · intro h
    obtain ⟨hv, rfl⟩ := h
    exact ⟨(), hv, rfl⟩

def loadFrom (d : Draft) (texts : List (String × String)) : Logged Failure Settings :=
  d.overrideFrom texts >>= finish

theorem result_loadFrom_iff {r : Settings} : (d.loadFrom texts).result = .ok r ↔
    Steps d.policy d.settings (overrides texts d.stem) r ∧ r.validate = .ok () := by
  rw [loadFrom, Logged.result_bind, bind_eq_ok]
  simp only [result_overrideFrom_iff, result_finish_iff]
  constructor
  · intro h
    obtain ⟨_, ⟨r, hs, rfl⟩, hv, rfl⟩ := h
    exact ⟨hs, hv⟩
  · intro h
    obtain ⟨hs, hv⟩ := h
    exact ⟨_, ⟨r, hs, rfl⟩, hv, rfl⟩

/-! ### Variables that are no texts -/

/-- What is looked at of the environment is text: all of it, if there is a stem. -/
def FindsText (d : Draft) (w : World) : Prop := d.stem = none ∨ w.IsText

theorem load_of_findsText (h : d.FindsText w) : d.load w = (d.loadFrom w.texts).lift := by
  rw [load, loadFrom, Logged.lift_bind]
  refine congrArg (· >>= _) ?_
  unfold override overrideFrom
  cases hs : d.stem with
  | none => rfl
  | some stem =>
    rw [FindsText, hs] at h
    dsimp only
    rw [World.texts?_of_isText (h.resolve_left nofun)]

/-- Where a variable is no text, loading is broken off before anything is done, whatever its name is. -/
theorem load_of_not_findsText (h : ¬ d.FindsText w) : d.load w = .fail .crash := by
  rw [FindsText, not_or] at h
  obtain ⟨hs, hw⟩ := h
  obtain ⟨stem, hs⟩ := Option.ne_none_iff_exists'.mp hs
  rw [load, override, hs]
  dsimp only
  rw [World.texts?_of_not_isText hw]
  rfl

theorem result_load_crash_iff : (d.load w).result = .error .crash ↔ ¬ d.FindsText w := by
  by_cases h : d.FindsText w
  · rw [load_of_findsText h]
    exact iff_of_false Logged.result_lift_ne_crash (not_not_intro h)
  · rw [load_of_not_findsText h]
    exact iff_of_true rfl h

theorem result_load_failure_iff {f : Failure} : (d.load w).result = .error (.failure f) ↔
    d.FindsText w ∧ (d.loadFrom w.texts).result = .error f := by
  by_cases h : d.FindsText w
  · rw [load_of_findsText h, and_iff_right h]
    exact Logged.result_lift_error_iff
  · rw [load_of_not_findsText h]
    exact iff_of_false nofun fun hf => h hf.1

theorem result_load_iff {r : Settings} : (d.load w).result = .ok r ↔ d.FindsText w ∧
    Steps d.policy d.settings (overrides w.texts d.stem) r ∧ r.validate = .ok () := by
  by_cases h : d.FindsText w
  · rw [load_of_findsText h, and_iff_right h, ← result_loadFrom_iff]
    exact Logged.result_lift_iff
  · rw [load_of_not_findsText h]
    exact iff_of_false nofun fun hr => h hr.1

theorem result_load_addText_iff (h : d.stem = none) {content : String} {encoding : Encoding}
    {r : Settings} : ((d.addText content encoding).lift >>= fun d => d.load w).result = .ok r ↔
      ∃ es, Given.settings? content encoding = some es ∧ Steps d.policy d.settings es r ∧
        r.validate = .ok () := by
  rw [Logged.result_bind, bind_eq_ok]
  simp only [Logged.result_lift_iff, result_addText_iff, result_load_iff]
  constructor
  · intro h
    obtain ⟨_, ⟨es, r', he, hs, rfl⟩, -, hl, hv⟩ := h
    rw [h, overrides, steps_nil_iff] at hl
    subst hl
    exact ⟨es, he, hs, hv⟩
  · intro h
    obtain ⟨es, he, hs, hv⟩ := h
    refine ⟨_, ⟨es, r, he, hs, rfl⟩, .inl h, ?_, hv⟩
    rw [h, overrides, steps_nil_iff]

end Draft

end ListfileSettings
