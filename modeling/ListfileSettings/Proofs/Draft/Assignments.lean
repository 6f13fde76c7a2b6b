import ListfileSettings.Draft
import ListfileSettings.Proofs.Settings.Assigned

/-!
# Loading a settings text

What a settings text is loaded as, said by its assignments alone: which records and which failures
it stands for.
-/
namespace ListfileSettings

namespace Draft

variable {d : Draft} {earlier : List String} {as : List Assignment}

theorem addAssignment_of_reject (h : d.policy = .reject) (a : Assignment) :
    d.addAssignment a = ⟨[], (d.settings.assign a.key a.value (some a.line)).map
      fun settings => { d with settings }⟩ := by
  unfold addAssignment
  cases ha : d.settings.assign a.key a.value (some a.line) with
  | ok settings => rfl
  | error f =>
    cases f with
    | unknownKey key line => simp [ignore, h, Logged.fail, Except.map]
    | _ => rfl

theorem addAssignments_cons {a : Assignment} : d.addAssignments earlier (a :: as) =
    (⟨if earlier.contains a.key then [.rebound a.key a.line] else [], .ok ()⟩ :
      Logged Failure Unit) >>= fun () =>
        d.addAssignment a >>= fun d => d.addAssignments (a.key :: earlier) as := by
  rw [addAssignments]
  split <;> rfl

theorem result_addAssignments (h : d.policy = .reject) :
    (d.addAssignments earlier as).result =
      (d.settings.assignAll as).map fun settings => { d with settings } := by
  induction as generalizing d earlier with
  | nil => rfl
  | cons a as ih =>
    rw [addAssignments_cons, Settings.assignAll_cons, addAssignment_of_reject h]
    cases d.settings.assign a.key a.value (some a.line) with
    | error f => rfl
    | ok settings => exact ih h

theorem result_finish (d : Draft) : d.finish.result = d.settings.validate.map fun _ => d.settings := by
  rw [finish, Logged.result_bind]
  change d.settings.validate >>= _ = _
  cases d.settings.validate <;> rfl

end Draft

namespace Settings

/-- The records that a settings text stands for. -/
def Denotes (text : String) (r : Settings) : Prop :=
  ∃ as, Assignment.read text = .ok as ∧ (∀ a ∈ as, a.Fits) ∧ Merges {} as r ∧
    r.minPrefixChars ≤ r.maxPrefixChars

/-- The failures that a settings text stands for: it is malformed, or its first assignment that
does not fit fails, or all fit and the prefix bounds are not in order. -/
inductive Refuses (text : String) : Failure → Prop
  | malformed {m : Assignment.Malformed} (h : Assignment.read text = .error m) :
      Refuses text (.malformed m.line m.cause.message)
  | unfit {as₁ as₂ : List Assignment} {a : Assignment} {f : Failure}
      (h : Assignment.read text = .ok (as₁ ++ a :: as₂)) (hf : ∀ b ∈ as₁, b.Fits)
      (ha : a.FailsAs f) : Refuses text f
  | prefixBounds {as : List Assignment} {r : Settings} {reason : String}
      (h : Assignment.read text = .ok as) (hf : ∀ a ∈ as, a.Fits) (hm : Merges {} as r)
      (hp : r.maxPrefixChars < r.minPrefixChars) :
      Refuses text (.invalidValue "max_prefix_chars" reason)

variable {text : String} {r : Settings} {as : List Assignment}

/-- A text is loaded by reading it, making all assignments and checking the record. -/
theorem result_ofText : (ofText text).result = match Assignment.read text with
    | .ok as => ({} : Settings).assignAll as >>= fun r => r.validate.map fun _ => r
    | .error m => .error (.malformed m.line m.cause.message) := by
  rw [ofText, Logged.result_bind]
  cases h : Assignment.read text with
  | error m => simp [Draft.addText, h, Logged.fail, bind, Except.bind]
  | ok as =>
    simp only [Draft.addText, h]
    rw [Draft.result_addAssignments rfl]
    cases ({} : Settings).assignAll as with
    | error f => rfl
    | ok r =>
      exact Draft.result_finish _

theorem result_ofText_eq_ok_iff : (ofText text).result = .ok r ↔ Denotes text r := by
  rw [result_ofText]
  cases h : Assignment.read text with
  | error m => simp [Denotes, h]
  | ok as =>
    simp only [Denotes, h, bind_eq_ok, map_eq_ok, assignAll_eq_ok_iff, Except.ok.injEq]
    constructor
    · intro h
      obtain ⟨r, ⟨hf, hm⟩, ⟨⟩, hv, rfl⟩ := h
      exact ⟨as, rfl, hf, hm, (validate_eq_ok_iff.mp hv).2.2⟩
    · intro h
      obtain ⟨as, rfl, hf, hm, hp⟩ := h
      obtain ⟨hw, ht⟩ := admits_iff.mp (admits_of_merges admits_default hm)
      exact ⟨r, ⟨hf, hm⟩, (), validate_eq_ok_iff.mpr ⟨hw, ht, hp⟩, rfl⟩

theorem refuses_of_result_ofText {f : Failure} (hf : (ofText text).result = .error f) :
    Refuses text f := by
  rw [result_ofText] at hf
  cases h : Assignment.read text with
  | error m =>
    rw [h] at hf
    obtain rfl := Except.error.inj hf
    exact .malformed h
  | ok as =>
    rw [h] at hf
    change (({} : Settings).assignAll as >>= fun r => r.validate.map fun _ => r) = _ at hf
    cases ha : ({} : Settings).assignAll as with
    | error f' =>
      obtain ⟨as₁, a, as₂, rfl, hb, hfa⟩ := failsAs_of_assignAll ha
      rw [ha] at hf
      obtain rfl := Except.error.inj hf
      exact .unfit h hb hfa
    | ok r =>
      rw [ha] at hf
      change r.validate.map (fun _ => r) = .error f at hf
      obtain ⟨hb, hm⟩ := assignAll_eq_ok_iff.mp ha
      obtain ⟨hw, ht⟩ := admits_iff.mp (admits_of_merges admits_default hm)
      cases hv : r.validate with
      | ok u => simp [hv, Except.map] at hf
      | error f' =>
        rw [hv] at hf
        obtain rfl := Except.error.inj hf
        obtain ⟨hp, reason, rfl⟩ := prefix_of_validate hw ht hv
        exact .prefixBounds h hb hm hp

/-- A settings text is loaded as the record that it denotes or else refused for the reason that
comes first. -/
theorem ofText_reference (text : String) :
    (∀ r, (ofText text).result = .ok r ↔ Denotes text r) ∧
      ∀ f, (ofText text).result = .error f → Refuses text f :=
  ⟨fun _ => result_ofText_eq_ok_iff, fun _ => refuses_of_result_ofText⟩

end Settings

end ListfileSettings
