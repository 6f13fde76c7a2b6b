import ListfileSettings.Proofs.Draft.Items

/-!
# What loading sees of the environment

Loading a draft looks at the variables under its stem alone, and in an order of its own. So neither
other variables nor the order of the environment make a difference, as long as all of them are texts. A
variable that is there again is reported again, but it makes the same record. The name of each variable
that is used has a key.
-/
namespace ListfileSettings

namespace Draft

open Override Settings

variable {d : Draft} {w w' : World} {f : Failure} {name reason stem : String} {policy : UnknownKeys}
  {r r' : Settings} {v : String × String} {vs : List (String × String)}

/-! ### The same variables -/

theorem load_congr (h : ∀ stem, d.stem = some stem → SameUnder stem w w') : d.load w = d.load w' := by
  unfold load override
  cases hs : d.stem with
  | none => rfl
  | some stem =>
    have h := h stem hs
    dsimp only
    rw [World.texts?_of_isText h.isText, World.texts?_of_isText h.isText']
    dsimp only
    rw [under_congr h.count_eq]

theorem load_of_pairwise (vs : List (String × String)) (hs : d.stem = some stem)
    (hw : w.environment = vs.map fun v => .ofTexts v.1 v.2) (hu : ∀ v ∈ vs, isUnder stem v.1)
    (hp : vs.Pairwise fun u v => precedes u v) :
    d.load w = (d.addOverrides stem vs >>= finish).lift := by
  rw [load_of_findsText (.inr (World.isText_of_texts vs hw)), World.texts_of_texts vs hw, loadFrom,
    overrideFrom, hs]
  dsimp only
  rw [under_of_pairwise hu hp]

/-- An override that has been used can be used again, and the record stays as it is. -/
theorem result_take_again (hu : isUnder stem v.1)
    (h : (take policy r (.override stem v.1 v.2)).result = .ok r') :
    (take policy r' (.override stem v.1 v.2)).result = .ok r' := by
  have ht : ∀ {r r' : Settings}, (take policy r (.override stem v.1 v.2)).result = .ok r' ↔
      Step policy r (keyText stem v.1, .text v.2) r' := by
    intro r r'
    rw [take, Logged.map_eq, map_eq_ok]
    simp only [use, result_addOverride_iff hu]
    constructor
    · intro h
      obtain ⟨_, ⟨r₁, hs, rfl⟩, rfl⟩ := h
      exact hs
    · intro h
      exact ⟨_, ⟨r', h, rfl⟩, rfl⟩
  rw [ht] at h ⊢
  exact h.again

/-- Repeated overrides come to the same record or to the same failure as each of them once. -/
theorem result_takeAll_dedup (hu : ∀ v ∈ vs, isUnder stem v.1)
    (hs : vs.Pairwise fun u v => precedes u v) :
    (takeAll policy r (vs.map fun v => .override stem v.1 v.2)).result =
      (takeAll policy r (vs.dedup.map fun v => .override stem v.1 v.2)).result := by
  induction vs generalizing r with
  | nil => rfl
  | cons v vs ih =>
    obtain ⟨hv, hu⟩ := List.forall_mem_cons.mp hu
    obtain ⟨hp, hs⟩ := List.pairwise_cons.mp hs
    by_cases hm : v ∈ vs
    · -- The variables are in order, so it stands again right behind itself.
      obtain ⟨us, rfl⟩ : ∃ us, vs = v :: us := by
        cases vs with
        | nil => cases hm
        | cons u us =>
          have hle := hp u List.mem_cons_self
          rcases List.mem_cons.mp hm with rfl | hm
          · exact ⟨us, rfl⟩
          · rw [eq_of_precedes hle ((List.pairwise_cons.mp hs).1 v hm)]
            exact ⟨us, rfl⟩
      rw [List.dedup_cons_of_mem hm, ← ih hu hs, List.map_cons, List.map_cons, takeAll_cons,
        Logged.result_bind, takeAll_cons, Logged.result_bind]
      refine bind_congr_of_ok fun r' hr => ?_
      rw [takeAll_cons, Logged.result_bind, result_take_again hv hr]
      rfl
    · rw [List.dedup_cons_of_notMem hm, List.map_cons, List.map_cons, takeAll_cons, takeAll_cons,
        Logged.result_bind, Logged.result_bind]
      exact congrArg _ (funext fun r' => ih hu hs)

/-- Which record is loaded, or how that fails, depends on nothing but which variables there are. -/
theorem result_load_congr (h : ∀ stem, d.stem = some stem → SameSetUnder stem w w') :
    (d.load w).result = (d.load w').result := by
  cases hs : d.stem with
  | none => exact congrArg _ (load_congr fun stem hn => nomatch hs.symm.trans hn)
  | some stem =>
    have h := h stem hs
    rw [load_of_findsText (.inr h.isText), load_of_findsText (.inr h.isText')]
    refine congrArg (Except.mapError _) ?_
    have hu : ∀ e, ∀ v ∈ under stem e, isUnder stem v.1 := fun e v => isUnder_of_mem_under
    rw [result_loadFrom, result_loadFrom, hs, Item.ofEnvironment, Item.ofEnvironment,
      result_takeAll_dedup (hu _) (pairwise_under ..), dedup_under_congr h.mem_iff,
      ← result_takeAll_dedup (hu _) (pairwise_under ..)]

/-! ### Names without a key -/

theorem append_ne_of_not_prefix {s t u : String} (h : ¬ s.toList <+: u.toList) : s ++ t ≠ u := by
  intro he
  rw [← he, String.toList_append] at h
  exact h (List.prefix_append _ _)

theorem append_ne_of_not_suffix {s t u : String} (h : ¬ t.toList <:+ u.toList) : s ++ t ≠ u := by
  intro he
  rw [← he, String.toList_append] at h
  exact h (List.suffix_append _ _)

theorem message_ne_of_mismatch (m : Json.Mismatch) : m.message ≠ "invalid key format" := by
  cases m with
  | type found expected =>
    change "invalid type: " ++ found.text ++ ", expected " ++ expected.text ≠ _
    rw [String.append_assoc, String.append_assoc]
    exact append_ne_of_not_prefix (by decide)
  | value found expected =>
    change "invalid value: " ++ found.text ++ ", expected " ++ expected.text ≠ _
    rw [String.append_assoc, String.append_assoc]
    exact append_ne_of_not_prefix (by decide)
  | choice name known =>
    change "unknown variant `" ++ name ++ "`, expected one of " ++ Json.quotedNames known ≠ _
    rw [String.append_assoc, String.append_assoc]
    exact append_ne_of_not_prefix (by decide)
  | field name known =>
    change "unknown field `" ++ name ++ "`, expected one of " ++ Json.quotedNames known ≠ _
    rw [String.append_assoc, String.append_assoc]
    exact append_ne_of_not_prefix (by decide)
  | repeated name =>
    change "duplicate field `" ++ name ++ "`" ≠ _
    rw [String.append_assoc]
    exact append_ne_of_not_prefix (by decide)

theorem message_ne (u : Unfit) : u.message ≠ "invalid key format" := by
  cases u with
  | belowOne n => exact append_ne_of_not_prefix (by decide)
  | negative n => exact append_ne_of_not_suffix (by decide)
  | tooLarge n => exact append_ne_of_not_suffix (by decide)
  | outOfRange n => exact append_ne_of_not_suffix (by decide)
  | mismatch m => exact message_ne_of_mismatch m

theorem reason_of_use {stem name' value key : String} (hn : key? stem name' = some key)
    (h : (d.use (.override stem name' value)).result = .error (.environment name reason)) :
    reason ≠ "invalid key format" := by
  rw [use, addOverride, hn] at h
  dsimp only at h
  cases hk : Key.ofText? key with
  | none =>
    rw [hk] at h
    cases hp : d.policy with
    | reject =>
      simp only [ignore, hp] at h
      cases h
    | warn =>
      simp only [ignore, hp] at h
      cases h
  | some k =>
    rw [hk] at h
    dsimp only at h
    cases hv : literal? k.kind value with
    | none =>
      rw [hv] at h
      obtain ⟨-, rfl⟩ := Failure.environment.inj (Except.error.inj h)
      cases k.kind <;> decide
    | some v =>
      rw [hv] at h
      simp only [Settings.assign, hk] at h
      cases hu : k.kind.ofLiteral v with
      | ok x =>
        rw [hu] at h
        cases h
      | error u =>
        rw [hu] at h
        obtain ⟨-, rfl⟩ := Failure.environment.inj (Except.error.inj h)
        exact message_ne u

/-- Whatever is in the environment, no name that is looked at is without a key. -/
theorem load_ne_invalid_key (d : Draft) (w : World) (name : String) :
    (d.load w).result ≠ .error (.failure (.environment name "invalid key format")) := by
  intro h
  obtain ⟨-, h⟩ := result_load_failure_iff.mp h
  rw [loadFrom, Logged.result_bind_eq_error_iff] at h
  rcases h with h | ⟨d', -, h⟩
  · rw [overrideFrom_eq] at h
    obtain ⟨d', i, hi, hu⟩ := exists_use_of_error h
    cases hs : d.stem with
    | none =>
      rw [hs] at hi
      cases hi
    | some stem =>
      rw [hs] at hi
      obtain ⟨v, hv, rfl⟩ := List.mem_map.mp hi
      exact reason_of_use (key?_of_isUnder (isUnder_of_mem_under hv)) hu rfl
  · rw [finish, Logged.result_bind_eq_error_iff] at h
    rcases h with h | ⟨u, -, h⟩
    · obtain ⟨k, reason, hf⟩ := Settings.exists_key_of_validate h
      cases hf
    · cases h

end Draft

end ListfileSettings
