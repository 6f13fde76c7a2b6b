import ListfileSettings.Proofs.Override.Order
import ListfileSettings.Proofs.Text.Utf8
import ListfileSettings.World
import Mathlib.Data.List.Dedup

/-!
# The variables of a world

The variables of a world can be used if all of them are texts. Which overrides there are under a stem,
and in which order they are used, depends then on nothing but the variables under it.
-/
namespace ListfileSettings

/-! ### Variables as texts -/

theorem Variable.texts?_ofTexts (name value : String) :
    (ofTexts name value).texts? = some (name, value) := by
  rw [texts?, ofTexts, Text.Utf8.decode_encode, Text.Utf8.decode_encode]
  simp only [String.ofList_toList]

namespace World

def IsText (w : World) : Prop := ∀ v ∈ w.environment, v.texts?.isSome

/-- The variables that are texts, in their order. -/
def texts (w : World) : List (String × String) := w.environment.filterMap Variable.texts?

variable {w : World}

theorem texts?_of_isText (h : w.IsText) : w.texts? = some w.texts := by
  unfold IsText at h
  unfold texts? texts
  generalize w.environment = vs at h
  induction vs with
  | nil => rfl
  | cons v vs ih =>
    obtain ⟨hv, hs⟩ := List.forall_mem_cons.mp h
    obtain ⟨t, ht⟩ := Option.isSome_iff_exists.mp hv
    rw [List.mapM_cons, ht, ih hs, List.filterMap_cons_some ht]
    rfl

theorem texts?_of_not_isText (h : ¬ w.IsText) : w.texts? = none := by
  unfold IsText at h
  unfold texts?
  generalize w.environment = vs at h
  induction vs with
  | nil => exact absurd (List.forall_mem_nil _) h
  | cons v vs ih =>
    rw [List.mapM_cons]
    cases ht : v.texts? with
    | none => rfl
    | some t =>
      rw [List.forall_mem_cons, ht] at h
      rw [ih fun hs => h ⟨rfl, hs⟩]
      rfl

theorem isText_of_texts (ts : List (String × String))
    (h : w.environment = ts.map fun t => .ofTexts t.1 t.2) : w.IsText := by
  rw [IsText, h, List.forall_mem_map]
  intro t _
  rw [Variable.texts?_ofTexts]
  rfl

theorem texts_of_texts (ts : List (String × String))
    (h : w.environment = ts.map fun t => .ofTexts t.1 t.2) : w.texts = ts := by
  have ht : ∀ t : String × String, (Variable.ofTexts t.1 t.2).texts? = some t :=
    fun t => Variable.texts?_ofTexts t.1 t.2
  rw [texts, h, List.filterMap_map]
  simp only [Function.comp_def, ht, List.filterMap_some]

/-- A world whose only variable, with the name X, has an octet for its value that no text has. -/
def notText : World := ⟨.empty, [], [⟨[0x58], [0xFF]⟩]⟩

theorem not_isText_notText : ¬ notText.IsText := by
  intro h
  cases h _ List.mem_cons_self

theorem texts_notText : notText.texts = [] := rfl

end World

/-! ### The same variables under a stem -/

namespace Override

variable {stem : String} {environment environment' : List (String × String)} {w w' : World}

theorem count_under (rest value : String) :
    (under stem environment).count (stem ++ "__" ++ rest, value) =
      environment.count (stem ++ "__" ++ rest, value) := by
  have hu : isUnder stem (stem ++ "__" ++ rest) = true := isUnder_iff.mpr ⟨rest, rfl⟩
  rw [under, (List.mergeSort_perm _ _).count_eq]
  exact List.count_filter (p := fun v : String × String => isUnder stem v.1) hu

theorem mem_under_append_iff {rest value : String} :
    (stem ++ "__" ++ rest, value) ∈ under stem environment ↔
      (stem ++ "__" ++ rest, value) ∈ environment := by
  rw [← List.count_pos_iff, count_under, List.count_pos_iff]

/-- Variables that all are overrides and stand in order are used as they stand. -/
theorem under_of_pairwise {vs : List (String × String)} (hu : ∀ v ∈ vs, isUnder stem v.1)
    (hs : vs.Pairwise fun u v => precedes u v) : under stem vs = vs := by
  refine (eq_under_of_perm hs ?_).symm
  rw [List.filter_eq_self.mpr hu]

/-- The overrides and the order of their use depend on nothing but how often each is there. -/
theorem under_congr (h : ∀ rest value, environment.count (stem ++ "__" ++ rest, value) =
      environment'.count (stem ++ "__" ++ rest, value)) :
    under stem environment = under stem environment' := by
  have hp : (under stem environment).Perm (under stem environment') := by
    rw [List.perm_iff_count]
    intro v
    obtain ⟨name, value⟩ := v
    by_cases hv : isUnder stem name
    · obtain ⟨rest, rfl⟩ := isUnder_iff.mp hv
      rw [count_under, count_under, h]
    · rw [List.count_eq_zero_of_not_mem fun hm => hv (isUnder_of_mem_under hm),
        List.count_eq_zero_of_not_mem fun hm => hv (isUnder_of_mem_under hm)]
  exact hp.eq_of_pairwise (fun _ _ _ _ => eq_of_precedes) (pairwise_under ..) (pairwise_under ..)

theorem mem_under_congr {v : String × String} (h : ∀ rest value,
      (stem ++ "__" ++ rest, value) ∈ environment ↔ (stem ++ "__" ++ rest, value) ∈ environment') :
    v ∈ under stem environment ↔ v ∈ under stem environment' := by
  obtain ⟨name, value⟩ := v
  by_cases hv : isUnder stem name
  · obtain ⟨rest, rfl⟩ := isUnder_iff.mp hv
    rw [mem_under_append_iff, mem_under_append_iff, h]
  · exact iff_of_false (fun h => hv (isUnder_of_mem_under h)) fun h => hv (isUnder_of_mem_under h)

/-- Which overrides there are, each once, depends on nothing but which variables there are. -/
theorem dedup_under_congr (h : ∀ rest value, (stem ++ "__" ++ rest, value) ∈ environment ↔
      (stem ++ "__" ++ rest, value) ∈ environment') :
    (under stem environment).dedup = (under stem environment').dedup := by
  have hs : ∀ e, (under stem e).dedup.Pairwise fun u v => precedes u v :=
    fun e => (pairwise_under stem e).sublist (List.dedup_sublist _)
  have hp : (under stem environment).dedup.Perm (under stem environment').dedup := by
    rw [List.perm_ext_iff_of_nodup (List.nodup_dedup _) (List.nodup_dedup _)]
    simp only [List.mem_dedup, mem_under_congr h, implies_true]
  exact hp.eq_of_pairwise (fun _ _ _ _ => eq_of_precedes) (hs _) (hs _)

/-- All variables of two worlds are texts, and each one under the stem is in both of them. -/
structure SameSetUnder (stem : String) (w w' : World) : Prop where
  isText : w.IsText
  isText' : w'.IsText
  mem_iff : ∀ rest value,
    (stem ++ "__" ++ rest, value) ∈ w.texts ↔ (stem ++ "__" ++ rest, value) ∈ w'.texts

/-- All variables of two worlds are texts, and each one under the stem is in both equally often. -/
structure SameUnder (stem : String) (w w' : World) : Prop where
  isText : w.IsText
  isText' : w'.IsText
  count_eq : ∀ rest value, w.texts.count (stem ++ "__" ++ rest, value) =
    w'.texts.count (stem ++ "__" ++ rest, value)

theorem sameUnder_of_perm (hw : w.IsText) (h : w.environment.Perm w'.environment) :
    SameUnder stem w w' :=
  ⟨hw, fun v hv => hw v (h.mem_iff.mpr hv), fun _ _ => (h.filterMap _).count_eq _⟩

/-- Where no variable under the stem is listed twice, it is enough that they are the same. -/
theorem SameSetUnder.sameUnder (h : SameSetUnder stem w w') (hd : (under stem w.texts).Nodup)
    (hd' : (under stem w'.texts).Nodup) : SameUnder stem w w' := by
  refine ⟨h.isText, h.isText', fun rest value => ?_⟩
  have hp : (under stem w.texts).Perm (under stem w'.texts) :=
    (List.perm_ext_iff_of_nodup hd hd').mpr fun _ => mem_under_congr h.mem_iff
  rw [← count_under, hp.count_eq, count_under]

/-- Other variables can be added, removed or changed. -/
theorem sameUnder_replace {before others others' after : List Variable} (hw : w.IsText)
    (hw' : w'.IsText) (h : w.environment = before ++ others ++ after)
    (h' : w'.environment = before ++ others' ++ after)
    (hn : ∀ v ∈ others ++ others', ∀ rest value, v.texts? ≠ some (stem ++ "__" ++ rest, value)) :
    SameUnder stem w w' := by
  refine ⟨hw, hw', fun rest value => ?_⟩
  have ho : ∀ vs : List Variable, vs ⊆ others ++ others' →
      (vs.filterMap Variable.texts?).count (stem ++ "__" ++ rest, value) = 0 := by
    intro vs hs
    refine List.count_eq_zero_of_not_mem fun hm => ?_
    obtain ⟨v, hv, ht⟩ := List.mem_filterMap.mp hm
    exact hn v (hs hv) rest value ht
  simp only [World.texts, h, h', List.filterMap_append, List.count_append,
    ho others (List.subset_append_left _ _), ho others' (List.subset_append_right _ _)]

end Override

end ListfileSettings
