import ListfileSettings.Proofs.Draft.Assignments
import ListfileSettings.Proofs.Settings.Listing

/-!
# Loading a listing

A listing of a valid record is loaded as the record, without a warning. A listing of a record that
is not valid is refused for one of its values.
-/
namespace ListfileSettings

/-! ### Warnings -/

section Warnings

variable {d : Draft} {earlier : List String} {as : List Assignment} {text : String}

theorem Draft.events_addAssignments (h : d.policy = .reject) (hd : (as.map (·.key)).Nodup)
    (he : ∀ a ∈ as, a.key ∉ earlier) : (d.addAssignments earlier as).events = [] := by
  induction as generalizing d earlier with
  | nil => rfl
  | cons a as ih =>
    obtain ⟨hn, hd⟩ := List.nodup_cons.mp hd
    obtain ⟨ha, he⟩ := List.forall_mem_cons.mp he
    have hc : earlier.contains a.key = false := by simpa using ha
    rw [Draft.addAssignments_cons, Draft.addAssignment_of_reject h, hc]
    cases d.settings.assign a.key a.value (some a.line) with
    | error f => rfl
    | ok settings =>
      have hi : ∀ b ∈ as, b.key ∉ a.key :: earlier := by
        intro b hb hm
        rcases List.mem_cons.mp hm with hk | hm
        · exact hn (List.mem_map.mpr ⟨b, hb, hk⟩)
        · exact he b hb hm
      exact ih h hd hi

theorem Draft.level_of_finish {e : Event} (h : e ∈ d.finish.events) : e.level ≠ .warn := by
  rw [Draft.finish, Logged.mem_events_bind] at h
  rcases h with h | ⟨u, -, h⟩
  · cases h
  · obtain rfl := List.mem_singleton.mp h
    simp [Event.level]

/-- A text that assigns each key at most once is loaded or refused without a warning. -/
theorem Settings.level_of_ofText (h : Assignment.read text = .ok as)
    (hd : (as.map (·.key)).Nodup) {e : Event} (he : e ∈ (ofText text).events) :
    e.level ≠ .warn := by
  rw [ofText, Logged.mem_events_bind] at he
  rcases he with he | ⟨d, -, he⟩
  · simp only [Draft.addText, h] at he
    rw [Draft.events_addAssignments rfl hd (by simp)] at he
    cases he
  · exact Draft.level_of_finish he

end Warnings

namespace Settings

variable {r r' : Settings}

theorem mem_listed_iff {a : Assignment} :
    a ∈ r.listed ↔ ∃ k, a = r.assignment k (listedLine k) := by
  have hk : ∀ k : Key, k ∈ Key.all := Named.mem_all
  simp [listed, hk, eq_comm]

theorem nodup_keys_listed : (r.listed.map (·.key)).Nodup := by
  have h : (Key.all.map Key.text).Nodup := by decide
  simpa [listed, assignment, Function.comp_def] using h

theorem last?_listed (k : Key) : Assignment.last? r.listed k.text = some (r.literal k) := by
  refine Assignment.last?_eq_some (mem_listed_iff.mpr ⟨k, rfl⟩) fun b hb he => ?_
  obtain ⟨k', rfl⟩ := mem_listed_iff.mp hb
  obtain rfl := Key.text_injective he
  rfl

theorem fits_listed_iff : (∀ a ∈ r.listed, a.Fits) ↔ ∀ k : Key, k.kind.Admits (r.get k) := by
  constructor
  · intro h k
    obtain ⟨k', x, hk, hx⟩ := h (r.assignment k (listedLine k)) (mem_listed_iff.mpr ⟨k, rfl⟩)
    obtain rfl := Key.text_injective hk
    exact (k.kind.takes_toLiteral_iff.mp hx).1
  · intro h a ha
    obtain ⟨k, rfl⟩ := mem_listed_iff.mp ha
    exact ⟨k, r.get k, rfl, k.kind.takes_toLiteral_iff.mpr ⟨h k, rfl⟩⟩

theorem merges_listed (h : ∀ k : Key, k.kind.Admits (r.get k)) : Merges {} r.listed r := by
  intro k
  rw [last?_listed]
  exact k.kind.takes_toLiteral_iff.mpr ⟨h k, rfl⟩

theorem denotes_text_iff : Denotes r.text r' ↔ r.validate = .ok () ∧ r' = r := by
  rw [validate_eq_ok_iff, ← and_assoc, ← admits_iff, ← fits_listed_iff]
  constructor
  · intro h
    obtain ⟨as, h, hf, hm, hp⟩ := h
    obtain rfl := Except.ok.inj (r.read_text.symm.trans h)
    obtain rfl := merges_unique hm (merges_listed (fits_listed_iff.mp hf))
    exact ⟨⟨hf, hp⟩, rfl⟩
  · intro h
    obtain ⟨⟨hf, hp⟩, rfl⟩ := h
    exact ⟨_, read_text _, hf, merges_listed (fits_listed_iff.mp hf), hp⟩

theorem kind_of_refuses_text {f : Failure} (h : Refuses r.text f) : f.kind = .invalidValue := by
  cases h with
  | malformed h => cases r.read_text.symm.trans h
  | prefixBounds => rfl
  | @unfit as₁ as₂ a _ h _ ha =>
    cases ha with
    | invalidValue => rfl
    | unknownKey hk =>
      have hm : a ∈ r.listed := by simp [Except.ok.inj (r.read_text.symm.trans h)]
      obtain ⟨k, rfl⟩ := mem_listed_iff.mp hm
      exact absurd rfl (hk k)

/-- A record that is listed is loaded again if it is valid, and else one of its values is refused.
-/
theorem ofText_text (r : Settings) :
    match r.validate with
    | .ok () => (ofText r.text).result = .ok r ∧ ∀ e ∈ (ofText r.text).events, e.level ≠ .warn
    | .error _ => ∃ f, (ofText r.text).result = .error f ∧ f.kind = .invalidValue := by
  cases hv : r.validate with
  | ok u =>
    have hr : (ofText r.text).result = .ok r :=
      result_ofText_eq_ok_iff.mpr (denotes_text_iff.mpr ⟨hv, rfl⟩)
    exact ⟨hr, fun e he => level_of_ofText r.read_text nodup_keys_listed he⟩
  | error f =>
    cases h : (ofText r.text).result with
    | ok r' =>
      obtain ⟨hr, -⟩ := denotes_text_iff.mp (result_ofText_eq_ok_iff.mp h)
      rw [hv] at hr
      cases hr
    | error f' => exact ⟨f', rfl, kind_of_refuses_text (refuses_of_result_ofText h)⟩

end Settings

end ListfileSettings
