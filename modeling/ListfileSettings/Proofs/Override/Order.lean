import ListfileSettings.Proofs.Settings.Given

/-!
# The last override of a key

Overrides are used in the order of their names. So the one that counts for a key is the greatest of
those that set it, wherever it stands in the environment.
-/
namespace ListfileSettings.Override

variable {stem name : String} {u v : String × String} {environment : List (String × String)}

/-! ### The order of names -/

theorem precedes_iff : precedes u v ↔ u.1 < v.1 ∨ u.1 = v.1 ∧ u.2 ≤ v.2 := by
  simp only [precedes, Bool.or_eq_true, Bool.and_eq_true, decide_eq_true_eq, Bool.not_eq_true',
    decide_eq_false_iff_not, String.not_lt]

theorem lt_or_eq_or_lt (s t : String) : s < t ∨ s = t ∨ t < s := by
  by_cases h : s < t
  · exact .inl h
  · by_cases h' : t < s
    · exact .inr (.inr h')
    · exact .inr (.inl (String.le_antisymm (String.not_lt.mp h') (String.not_lt.mp h)))

theorem precedes_refl (v : String × String) : precedes v v :=
  precedes_iff.mpr (.inr ⟨rfl, String.le_refl _⟩)

theorem precedes_trans {t : String × String} (h : precedes t u) (h' : precedes u v) :
    precedes t v := by
  rw [precedes_iff] at h h' ⊢
  rcases h with h | ⟨he, h⟩
  · rcases h' with h' | ⟨he', -⟩
    · exact .inl (String.lt_trans h h')
    · exact .inl (he' ▸ h)
  · rcases h' with h' | ⟨he', h'⟩
    · exact .inl (he ▸ h')
    · exact .inr ⟨he.trans he', String.le_trans h h'⟩

theorem precedes_total (u v : String × String) : precedes u v ∨ precedes v u := by
  rw [precedes_iff, precedes_iff]
  rcases lt_or_eq_or_lt u.1 v.1 with h | h | h
  · exact .inl (.inl h)
  · rcases String.le_total u.2 v.2 with h' | h'
    · exact .inl (.inr ⟨h, h'⟩)
    · exact .inr (.inr ⟨h.symm, h'⟩)
  · exact .inr (.inl h)

theorem eq_of_precedes (h : precedes u v) (h' : precedes v u) : u = v := by
  rw [precedes_iff] at h h'
  rcases h with h | ⟨he, h⟩
  · rcases h' with h' | ⟨he', -⟩
    · exact absurd (String.lt_trans h h') (String.lt_irrefl _)
    · exact absurd (he' ▸ h) (String.lt_irrefl _)
  · rcases h' with h' | ⟨-, h'⟩
    · exact absurd (he ▸ h') (String.lt_irrefl _)
    · exact Prod.ext he (String.le_antisymm h h')

/-! ### Variables under a stem -/

/-- The variable sets the key of this name: after the stem and two underscores comes the name, in
any case. -/
def Sets (stem : String) (v : String × String) (name : String) : Prop :=
  ∃ rest, v.1 = stem ++ "__" ++ rest ∧ Text.lower rest = name

theorem isUnder_iff : isUnder stem name ↔ ∃ rest, name = stem ++ "__" ++ rest := by
  rw [isUnder, List.isPrefixOf_iff_prefix]
  constructor
  · intro h
    obtain ⟨t, ht⟩ := h
    refine ⟨String.ofList t, ?_⟩
    rw [← String.toList_inj, String.toList_append, String.toList_ofList]
    exact ht.symm
  · intro h
    obtain ⟨rest, rfl⟩ := h
    exact ⟨rest.toList, String.toList_append.symm⟩

/-- The key that an override under this stem sets, in lower case. -/
def keyText (stem name : String) : String := (key? stem name).getD ""

theorem rest?_append (start rest : String) : rest? start (start ++ rest) = some rest := by
  have hp : start.toList.isPrefixOf (start ++ rest).toList = true := by
    rw [List.isPrefixOf_iff_prefix, String.toList_append]
    exact List.prefix_append _ _
  have hd : (start ++ rest).toList.drop start.length = rest.toList := by
    rw [String.toList_append, ← String.length_toList]
    exact List.drop_left
  rw [rest?, if_pos hp, hd, String.ofList_toList]

theorem key?_append (rest : String) : key? stem (stem ++ "__" ++ rest) = some (Text.lower rest) := by
  rw [key?, String.append_assoc, rest?_append, Option.bind_some, rest?_append]
  rfl

/-- Each name under a stem has a key, which is found by taking off the stem and the underscores one
after the other. -/
theorem key?_of_isUnder (h : isUnder stem name) : key? stem name = some (keyText stem name) := by
  obtain ⟨rest, rfl⟩ := isUnder_iff.mp h
  rw [keyText, key?_append]
  rfl

theorem keyText_append (rest : String) : keyText stem (stem ++ "__" ++ rest) = Text.lower rest := by
  rw [keyText, key?_append]
  rfl

theorem mem_under_iff :
    v ∈ under stem environment ↔ v ∈ environment ∧ Sets stem v (keyText stem v.1) := by
  rw [under, List.mem_mergeSort, List.mem_filter, isUnder_iff]
  constructor
  · intro h
    obtain ⟨hv, rest, hr⟩ := h
    refine ⟨hv, rest, hr, ?_⟩
    rw [hr, keyText_append]
  · intro h
    obtain ⟨hv, rest, hr, -⟩ := h
    exact ⟨hv, rest, hr⟩

theorem isUnder_of_mem_under (h : v ∈ under stem environment) : isUnder stem v.1 := by
  rw [under, List.mem_mergeSort] at h
  exact (List.mem_filter.mp h).2

theorem keyText_of_sets (h : Sets stem v name) : keyText stem v.1 = name := by
  obtain ⟨rest, hr, rfl⟩ := h
  rw [hr, keyText_append]

theorem pairwise_under (stem : String) (environment : List (String × String)) :
    (under stem environment).Pairwise fun u v => precedes u v := by
  have ht : ∀ u v, (precedes u v || precedes v u) = true := by
    intro u v
    rw [Bool.or_eq_true]
    exact precedes_total u v
  exact @List.pairwise_mergeSort _ precedes (fun _ _ _ => precedes_trans) ht _

/-- There is only one order in which the same overrides can be used. -/
theorem eq_under_of_perm {vs : List (String × String)} (hs : vs.Pairwise fun u v => precedes u v)
    (hp : vs.Perm (environment.filter fun v => isUnder stem v.1)) : vs = under stem environment :=
  (hp.trans (List.mergeSort_perm _ _).symm).eq_of_pairwise (fun _ _ _ _ => eq_of_precedes) hs
    (pairwise_under stem environment)

def settings (stem : String) (environment : List (String × String)) : List Setting :=
  (under stem environment).map fun v => (keyText stem v.1, .text v.2)

/-- The variable is the last that sets the key of this name. -/
def IsLast (stem : String) (environment : List (String × String)) (name : String)
    (v : String × String) : Prop :=
  v ∈ environment ∧ Sets stem v name ∧ ∀ u ∈ environment, Sets stem u name → precedes u v

theorem isLast_unique (hu : IsLast stem environment name u) (hv : IsLast stem environment name v) :
    u = v :=
  eq_of_precedes (hv.2.2 u hu.1 hu.2.1) (hu.2.2 v hv.1 hv.2.1)

theorem isLast_of_lookup {g : Given}
    (h : (settings stem environment).reverse.lookup name = some g) :
    ∃ v, IsLast stem environment name v ∧ g = .text v.2 := by
  obtain ⟨l₁, l₂, hl, hn⟩ := List.lookup_eq_some_iff.mp h
  rw [settings, ← List.map_reverse] at hl
  obtain ⟨us, vs, hr, rfl, hm⟩ := List.map_eq_append_iff.mp hl
  obtain ⟨v, ws, rfl, hv, -⟩ := List.map_eq_cons_iff.mp hm
  obtain ⟨hk, rfl⟩ := Prod.mk.inj hv
  have hu : under stem environment = ws.reverse ++ v :: us.reverse := by
    rw [← List.reverse_inj, hr]
    simp
  have hmem : v ∈ under stem environment := by simp [hu]
  obtain ⟨hve, hvs⟩ := mem_under_iff.mp hmem
  rw [hk] at hvs
  refine ⟨v, ⟨hve, hvs, fun u hue hus => ?_⟩, rfl⟩
  have hmu : u ∈ under stem environment := mem_under_iff.mpr ⟨hue, keyText_of_sets hus ▸ hus⟩
  have hp := pairwise_under stem environment
  rw [hu] at hmu hp
  obtain ⟨-, -, hp⟩ := List.pairwise_append.mp hp
  rcases List.mem_append.mp hmu with hw | hw
  · exact hp u hw v (by simp)
  · rcases List.mem_cons.mp hw with rfl | hw
    · exact precedes_refl u
    · -- What comes after the setting that is found sets other keys.
      have hne := hn _ (List.mem_map_of_mem (List.mem_reverse.mp hw))
      rw [keyText_of_sets hus] at hne
      simp at hne

theorem lookup_settings_eq_none_iff : (settings stem environment).reverse.lookup name = none ↔
    ∀ v ∈ environment, ¬ Sets stem v name := by
  simp only [List.lookup_eq_none_iff, settings, List.mem_reverse, List.forall_mem_map, bne_iff_ne]
  constructor
  · intro h v hv hs
    have hk := keyText_of_sets hs
    exact h v (mem_under_iff.mpr ⟨hv, hk ▸ hs⟩) hk.symm
  · intro h v hv hk
    obtain ⟨hve, hs⟩ := mem_under_iff.mp hv
    exact h v hve (hk ▸ hs)

theorem lookup_settings_eq_some_iff {g : Given} :
    (settings stem environment).reverse.lookup name = some g ↔
      ∃ v, IsLast stem environment name v ∧ g = .text v.2 := by
  constructor
  · exact isLast_of_lookup
  · intro h
    obtain ⟨v, hv, rfl⟩ := h
    cases h : (settings stem environment).reverse.lookup name with
    | none => exact absurd hv.2.1 (lookup_settings_eq_none_iff.mp h v hv.1)
    | some g =>
      obtain ⟨u, hu, rfl⟩ := isLast_of_lookup h
      rw [isLast_unique hu hv]

end ListfileSettings.Override
