import ListfileSettings.Proofs.Assignment.Bindings
import ListfileSettings.Proofs.Draft.Sources
import ListfileSettings.Proofs.Json.Printing
import ListfileSettings.Proofs.Settings.Agreement

/-!
# Both encodings come to the same

Bindings of different names are loaded as the same record from a settings text and from a JSON
text, or refused in both. In JSON they can stand in any order and be written in any way.
-/
namespace ListfileSettings

open Json Settings Assignment.Grammar

variable {bs ms : List (String × Literal)} {text : String} {r : Settings}

theorem canonicalMembers_membersAsRead (ms : List (String × Literal)) :
    canonicalMembers (membersAsRead ms) = membersAsRead ms := by
  induction ms with
  | nil => rfl
  | cons m ms ih =>
    change (m.1, m.2.asRead.canonical) :: canonicalMembers (membersAsRead ms) = _
    rw [m.2.canonical_asRead, ih]
    rfl

namespace Given

theorem map_ofBindings (n : Nat) (bs : List (String × Literal)) :
    (Assignment.ofBindings n bs).map (fun a => (a.key, Given.literal a.value)) =
      bs.map fun b => (b.1, .literal b.2) := by
  induction bs generalizing n with
  | nil => rfl
  | cons b bs ih => rw [Assignment.ofBindings_cons, List.map_cons, List.map_cons, ih]

theorem settings?_bindingsText (h : ∀ b ∈ bs, Identifier b.1.toList) :
    settings? (Assignment.bindingsText bs) .assignments =
      some (bs.map fun b => (b.1, .literal b.2)) := by
  have hr := Assignment.read_of_lines (Assignment.wholeLines_bindings (n := 1) h).lines
  change Assignment.read (Assignment.bindingsText bs) = _ at hr
  rw [settings?, hr, ← map_ofBindings 1]

theorem exists_settings?_json (h : Json.Grammar.Denotes text ms)
    (hd : (ms.map (·.1)).Nodup) (hn : ∀ b ∈ ms, b.2.depth ≤ 126) :
    ∃ es, settings? text .json = some es ∧ es.Perm (ms.map fun b => (b.1, .json b.2.asRead)) := by
  refine ⟨_, settings?_json_eq_some_iff.mpr ⟨_, readRaw_of_denotes h hn, rfl⟩, ?_⟩
  rw [canonicalMembers_membersAsRead]
  have hm : ((membersAsRead ms).map (·.1)).Nodup := by
    rwa [membersAsRead, List.map_map]
  have hp := (sortMembers_perm hm).map fun m => (m.1, Given.json m.2)
  rwa [membersAsRead, List.map_map] at hp

end Given

namespace Draft

/-- Bindings that are printed one a line and the same bindings in a JSON object, in any order and
any spelling, are loaded as the same record or are both refused. -/
theorem load_bindings_iff (hk : ∀ b ∈ bs, Identifier b.1.toList) (hd : (bs.map (·.1)).Nodup)
    (hn : ∀ b ∈ bs, b.2.depth ≤ 126) (hp : ms.Perm bs) (ht : Json.Grammar.Denotes text ms)
    (policy : UnknownKeys) (w : World) (r : Settings) :
    ((({ policy } : Draft).addText (Assignment.bindingsText bs) .assignments).lift >>=
        fun d => d.load w).result = .ok r ↔
      ((({ policy } : Draft).addText text .json).lift >>= fun d => d.load w).result = .ok r := by
  have hd' := (hp.map (·.1)).nodup_iff.mpr hd
  have hn' : ∀ b ∈ ms, b.2.depth ≤ 126 := fun b hb => hn b (hp.mem_iff.mp hb)
  obtain ⟨es, he, hes⟩ := Given.exists_settings?_json ht hd' hn'
  rw [result_load_addText_iff rfl, result_load_addText_iff rfl, he,
    Given.settings?_bindingsText hk]
  simp only [Option.some.injEq, exists_eq_left']
  refine and_congr_left fun hv => ?_
  have hj := nodup_names hd fun v => .json v.asRead
  have hes' := hes.trans (hp.map fun b => (b.1, Given.json b.2.asRead))
  rw [steps_literal_iff hd (admits_of_validate hv)]
  exact steps_perm_iff hj hes'.symm

/-- An integer beyond 64 bits can be left out of both. -/
theorem load_bindings_left_out :
    ((({ policy := .warn } : Draft).addText
        "\x7b\"x\": [18446744073709551616], \"tab_size\": 4\x7d" .json).lift >>=
      fun d => d.load ⟨.empty, [], []⟩).result = .ok { tabSize := 4 } := by
  let four : Decimal.Wide := ⟨4, by decide, by decide⟩
  let wide : Decimal.Wide := ⟨18446744073709551616, by decide, by decide⟩
  have hk : ∀ b ∈ [("tab_size", Literal.integer four), ("x", .sequence [.integer wide])],
      Identifier b.1.toList := by
    intro b hb
    simp only [List.mem_cons, List.not_mem_nil, or_false] at hb
    rcases hb with rfl | rfl
    · exact identifier_ofList (c := 't') (s := ['a', 'b', '_', 's', 'i', 'z', 'e']) rfl rfl
    · exact identifier_ofList (c := 'x') (s := []) rfl rfl
  have ht : Json.Grammar.Denotes "\x7b\"x\": [18446744073709551616], \"tab_size\": 4\x7d"
      [("x", .sequence [.integer wide]), ("tab_size", .integer four)] := by
    have hd : Decimal.integerDigits wide.val = "18446744073709551616".toList := by cbv
    have hf : Decimal.integerDigits four.val = ['4'] := by cbv
    have hs : Json.Grammar.Space [' '] := by simp [Json.Grammar.Space]
    have hn := Json.Grammar.space_nil
    have hx := Json.Grammar.Member.mk hn (Json.Grammar.quoted_escaped ['x']) hn hs
      (.sequence (.some hn (.integer wide) hn .none)) hn
    have hq := Json.Grammar.quoted_escaped ['t', 'a', 'b', '_', 's', 'i', 'z', 'e']
    have ht := Json.Grammar.Member.mk hs hq hn hs (.integer four) hn
    rw [hd] at hx
    rw [hf] at ht
    exact ⟨[], _, [], hn, .some hx (.comma ht .none), hn, rfl⟩
  have hx : ∀ k : Key, "x" ≠ k.text := by
    intro k
    cases k <;> decide
  refine (load_bindings_iff hk (by decide) (by decide) (.swap ..) ht .warn _ _).mp ?_
  rw [result_load_addText_iff rfl, Given.settings?_bindingsText hk]
  exact ⟨_, rfl, .cons (.known (k := .tabSize) (.positive (by decide)))
    (.cons (.unknown rfl hx) .nil), rfl⟩

end Draft

end ListfileSettings
