import ListfileSettings.Proofs.CommandLine.Reload
import ListfileSettings.Proofs.Draft.Members

/-!
# Records as JSON

Nothing of a record is lost when it is written as JSON, whether it is valid or not. In one pass the
text is read as the record. A draft takes the members in the order of their names, makes the same
record of them and checks it at the end.
-/
namespace ListfileSettings

open Json Settings

namespace Draft

variable {d : Draft} {w : World} {r : Settings} {text : String} {encoding : Encoding}
  {es : List Setting}

/-- Without a stem, loading settings that make a record comes to the check of the record. -/
theorem result_load_of_makes (hd : d.stem = none) (he : Given.settings? text encoding = some es)
    (hm : Makes es r) : ((d.addText text encoding).lift >>= fun d => d.load w).result =
      (r.validate.map fun _ => r).mapError .failure := by
  have ha : (d.addText text encoding).result = .ok { d with settings := r } :=
    result_addText_iff.mpr ⟨es, r, he, hm d.policy d.settings, rfl⟩
  rw [Logged.result_bind, Logged.result_lift_iff.mpr ha]
  change (Draft.load { d with settings := r } w).result = _
  rw [load_of_stem (d := { d with settings := r }) hd]
  exact congrArg (Except.mapError Halt.failure) (result_finish { d with settings := r })

end Draft

namespace Settings

variable {r : Settings} {text : String}

/-- The record is read from the text as it is. Loading the text under either policy gives the record
exactly if it is valid, and fails otherwise as its check does. -/
structure Preserves (text : String) (r : Settings) : Prop where
  read : ofJsonText text = .ok r
  load : ∀ (policy : UnknownKeys) (w : World),
    ((({ policy } : Draft).addText text .json).lift >>= fun d => d.load w).result =
      (r.validate.map fun _ => r).mapError .failure

theorem ofJsonText_of_denotes (h : Json.Grammar.Denotes text r.bindings) :
    ofJsonText text = .ok r := by
  have hr : readRaw text = .ok (.object (membersAsRead r.bindings)) :=
    readRaw_of_denotes h fun b => depth_of_mem_bindings
  have hd : ((membersAsRead r.bindings).map (·.1)).Nodup := by
    rw [membersAsRead, List.map_map]
    exact nodup_bindings
  have hp : Puts {} (membersAsRead r.bindings) r := by
    have hm := makes_asRead r .reject {}
    rw [← Draft.steps_members_iff, membersAsRead, List.map_map]
    exact hm
  refine (ofJsonText_eq_ok_iff fun vs hv => ?_).mpr ⟨_, hr, hd, hp⟩
  rw [hr] at hv
  cases hv

theorem preserves_of_denotes (h : Json.Grammar.Denotes text r.bindings) : Preserves text r := by
  obtain ⟨es, he, hm⟩ := makes_of_denotes h
  exact ⟨ofJsonText_of_denotes h, fun policy w => Draft.result_load_of_makes rfl he hm⟩

/-- A record is preserved as JSON without blanks, with a line for each member and as it is printed. -/
theorem preserves_toJson (r : Settings) :
    Preserves r.toJson.compact r ∧ Preserves r.toJson.pretty r ∧
      Preserves (CommandLine.printed r .json) r := by
  have hp := r.denotes_pretty Json.Grammar.space_nil
  rw [String.ofList_nil, String.append_empty] at hp
  exact ⟨preserves_of_denotes r.denotes_compact, preserves_of_denotes hp,
    preserves_of_denotes (CommandLine.denotes_printed r)⟩

end Settings

end ListfileSettings
