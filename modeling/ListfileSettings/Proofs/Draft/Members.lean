import ListfileSettings.Proofs.Draft.Sources
import ListfileSettings.Proofs.Settings.Record

/-!
# Loading a JSON text

A draft takes the members of an object in the order of their names. It comes to the same record as
reading the record from the text in one pass.
-/
namespace ListfileSettings

open Json Settings

namespace Draft

variable {d d' : Draft} {r : Settings}

/-- Where no member is left out, all are put into the record. -/
theorem steps_members_iff {ms : List (String × Json)} {r r' : Settings} :
    Steps .reject r (ms.map fun m => (m.1, .json m.2)) r' ↔ Puts r ms r' := by
  induction ms generalizing r with
  | nil =>
    constructor
    · rintro ⟨⟩
      exact .nil
    · rintro ⟨⟩
      exact .nil
  | cons m ms ih =>
    obtain ⟨name, v⟩ := m
    rw [List.map_cons, steps_cons_iff]
    constructor
    · rintro ⟨r₁, h, hs⟩
      cases h with
      | known hx => exact .cons ((Kind.ofJson_eq_ok_iff _).mpr hx) (ih.mp hs)
      | unknown hp => cases hp
    · intro h
      cases h with
      | cons hx h => exact ⟨_, .known ((Kind.ofJson_eq_ok_iff _).mp hx), ih.mpr h⟩

theorem load_of_stem {w : World} (h : d.stem = none) : d.load w = d.finish.lift := by
  rw [load, override, h]
  rfl

/-- Only an object can be added, and its members are taken in the order of their names. -/
theorem result_addText_json_iff {text : String} (h : d.policy = .reject) :
    (d.addText text .json).result = .ok d' ↔ ∃ ms r, readRaw text = .ok (.object ms) ∧
      Puts d.settings (sortMembers (canonicalMembers ms)) r ∧ d' = { d with settings := r } := by
  rw [result_addText_iff, h]
  constructor
  · rintro ⟨es, r, he, hs, rfl⟩
    obtain ⟨ms, hr, rfl⟩ := Given.settings?_json_eq_some_iff.mp he
    exact ⟨ms, r, hr, steps_members_iff.mp hs, rfl⟩
  · rintro ⟨ms, r, hr, hp, rfl⟩
    exact ⟨_, r, Given.settings?_json_eq_some_iff.mpr ⟨ms, hr, rfl⟩, steps_members_iff.mpr hp, rfl⟩

/-- Where no object repeats a name, loading the members of a text comes to what reading the record
in one pass comes to, if the record is valid. -/
theorem result_load_json_iff (text : String) (w : World) (r : Settings)
    (ha : ∀ vs, readRaw text ≠ .ok (.array vs)) (hn : ∀ v, readRaw text = .ok v → v.NoRepeats) :
    ((({} : Draft).addText text .json).lift >>= fun d => d.load w).result = .ok r ↔
      ofJsonText text = .ok r ∧ r.validate = .ok () := by
  rw [Logged.result_bind, bind_eq_ok, ofJsonText_eq_ok_iff ha]
  constructor
  · intro h
    obtain ⟨d, hd, hl⟩ := h
    obtain ⟨ms, r', hr, hp, rfl⟩ := (result_addText_json_iff rfl).mp (Logged.result_lift_iff.mp hd)
    rw [load_of_stem rfl, Logged.result_lift_iff, result_finish_iff] at hl
    obtain ⟨hv, rfl⟩ := hl
    have ho := hn _ hr
    exact ⟨⟨ms, hr, ho.1, (puts_sortMembers_iff ho).mp hp⟩, hv⟩
  · intro h
    obtain ⟨⟨ms, hr, -, hp⟩, hv⟩ := h
    have hp := (puts_sortMembers_iff (hn _ hr)).mpr hp
    have hd : (({} : Draft).addText text .json).result = .ok { settings := r } :=
      (result_addText_json_iff rfl).mpr ⟨ms, r, hr, hp, rfl⟩
    refine ⟨{ settings := r }, Logged.result_lift_iff.mpr hd, ?_⟩
    rw [load_of_stem rfl, Logged.result_lift_iff, result_finish_iff]
    exact ⟨hv, rfl⟩

theorem result_load_json_choice :
    ((({} : Draft).addText
        "\x7b\"tab_size\": 4, \"keyword_case\": \x7b\"upper\": null\x7d\x7d" .json).lift >>=
      fun d => d.load ⟨.empty, [], []⟩).result = .ok { tabSize := 4, keywordCase := .upper } := by
  have hr : readRaw "\x7b\"tab_size\": 4, \"keyword_case\": \x7b\"upper\": null\x7d\x7d" =
      .ok (.object [("tab_size", .integer 4), ("keyword_case", .object [("upper", .null)])]) := rfl
  refine (result_load_json_iff _ _ _ (fun vs h => ?_) fun v h => ?_).mpr ⟨rfl, rfl⟩
  · rw [hr] at h
    cases h
  · obtain rfl := Except.ok.inj (hr.symm.trans h)
    simp [NoRepeats, NoRepeatsMembers]

end Draft

end ListfileSettings
