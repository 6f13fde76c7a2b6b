import ListfileSettings.Proofs.Json.Suffix
import ListfileSettings.Proofs.Settings.Members

/-!
# Records read in one pass

A record that is read from a text in one pass is made of the members of the object that stands
there, or of the elements of a list.
-/
namespace ListfileSettings.Settings

open Json

variable {r r' : Settings} {s s' t : List Char} {d n : Nat} {isFirst : Bool}

/-! ### Lists -/

theorem readListEnd_eq_ok_iff :
    readListEnd r s = .ok (r', s') ↔ skipSpace s = ']' :: s' ∧ r' = r := by
  unfold readListEnd
  split
  · next h => simp [h]
  · next t h => simp [h, eq_comm, and_comm]
  · next t h =>
    split <;> simp [h]
  · next hn he hc =>
    refine iff_of_false (by simp) ?_
    intro h
    exact he s' h.1

theorem nextItem_eq_done (h : skipSpace s = ']' :: s') : nextItem isFirst s = .ok (.done s') := by
  simp [nextItem, h]

theorem items_of_readList {ks : List Key} (hn : s.length + (if isFirst then 1 else 0) ≤ n)
    (h : readList ks isFirst r s = .ok (r', s')) :
    ∃ vs, items (value (d + 1)) n isFirst s = .ok (vs, s') := by
  induction ks generalizing isFirst r s n with
  | nil =>
    obtain ⟨hs, -⟩ := readListEnd_eq_ok_iff.mp h
    have hd : nextItem isFirst s = .ok (.done s') := nextItem_eq_done hs
    have hl := length_of_nextItem hd
    have h₀ : n ≠ 0 := by omega
    obtain ⟨m, rfl⟩ := Nat.exists_eq_add_one_of_ne_zero h₀
    exact ⟨[], items_eq_ok_iff.mpr (.inl ⟨hd, rfl⟩)⟩
  | cons k ks ih =>
    rw [readList, bind_eq_ok] at h
    obtain ⟨next, hd, h⟩ := h
    have hl := length_of_nextItem hd
    have h₀ : n ≠ 0 := by omega
    obtain ⟨m, rfl⟩ := Nat.exists_eq_add_one_of_ne_zero h₀
    cases next with
    | done s₁ =>
      cases h
      exact ⟨[], items_eq_ok_iff.mpr (.inl ⟨hd, rfl⟩)⟩
    | item s₁ =>
      obtain ⟨⟨x, s₂⟩, hx, h₁⟩ := bind_eq_ok.mp h
      obtain ⟨v, hv, -⟩ := (Kind.decodes_readKind k.kind s₁ s₂ x).mp hx
      have hs : s₂.length ≤ s₁.length := (value_suffix hv).length_le
      have hm : s₂.length + (if false then 1 else 0) ≤ m := by
        have hr : s₁.length < m + 1 := Nat.lt_of_lt_of_le hl hn
        simp only [Bool.false_eq_true, if_false]
        omega
      obtain ⟨vs, hvs⟩ := ih hm h₁
      exact ⟨v :: vs, items_eq_ok_iff.mpr (.inr ⟨s₁, v, s₂, vs, hd, hv, hvs, rfl⟩)⟩

theorem array_of_readRecord (h : skipSpace s = '[' :: t) (hr : readRecord s = .ok (r, s')) :
    ∃ vs, value (d + 2) s = .ok (.array vs, s') := by
  rw [readRecord, h] at hr
  obtain ⟨vs, hvs⟩ := items_of_readList (d := d) (Nat.le_refl (t.length + 1)) hr
  exact ⟨vs, by rw [value_list h, hvs]; rfl⟩

/-! ### Objects -/

theorem readRecord_object_iff (h : skipSpace s = '{' :: t) : readRecord s = .ok (r, s') ↔
    ∃ ms, value (d + 2) s = .ok (.object ms, s') ∧ (ms.map (·.1)).Nodup ∧ Puts {} ms r := by
  have hf : ∀ ms, Fresh [] ms ↔ (ms.map (·.1)).Nodup := by simp [Fresh]
  rw [readRecord, h]
  change Except.map _ (foldMembers readMember (t.length + 1) true ⟨{}, []⟩ t) = _ ↔ _
  rw [map_eq_ok]
  constructor
  · intro hr
    obtain ⟨⟨⟨r₁, seen⟩, s₁⟩, hm, he⟩ := hr
    cases he
    obtain ⟨ms, hr, hd, hp⟩ := foldMembers_readMember_iff.mp ⟨seen, hm⟩
    have hv : value (d + 2) s = .ok (.object ms, s') := by
      rw [value_object h, hr]
      rfl
    exact ⟨ms, hv, (hf ms).mp hd, hp⟩
  · intro hv
    obtain ⟨ms, hv, hd, hp⟩ := hv
    rw [value_object h, map_eq_ok] at hv
    obtain ⟨⟨ms', s₁⟩, hr, he⟩ := hv
    cases he
    obtain ⟨seen, hm⟩ := foldMembers_readMember_iff.mpr ⟨ms, hr, (hf ms).mpr hd, hp⟩
    exact ⟨_, hm, rfl⟩

theorem readRecord_ne_ok (hl : ∀ t, skipSpace s ≠ '[' :: t) (ho : ∀ t, skipSpace s ≠ '{' :: t) :
    readRecord s ≠ .ok (r, s') := by
  unfold readRecord
  split
  · next t h => exact absurd h (hl t)
  · next t h => exact absurd h (ho t)
  · rw [← skipSpace_skipSpace s] at hl ho
    intro h
    obtain ⟨v, -, he⟩ := (typedScalar_eq_ok_iff hl ho).mp h
    cases he

theorem object_ne_value (hl : ∀ t, skipSpace s ≠ '[' :: t) (ho : ∀ t, skipSpace s ≠ '{' :: t)
    {ms : List (String × Json)} : value d s ≠ .ok (.object ms, s') := by
  rw [value_scalar hl ho]
  cases h : skipSpace s with
  | nil => simp [scalar]
  | cons c t =>
    by_cases hc : c = '"'
    · subst hc
      rw [scalar_quote, ne_eq, map_eq_ok]
      intro hs
      obtain ⟨a, -, he⟩ := hs
      cases he
    · exact isPlain_of_scalar hc

/-! ### Whole texts -/

theorem whole_eq_ok_iff {α : Type} {reader : Reader α} {text : String} {a : α} :
    whole reader text = .ok a ↔ ∃ s', reader text.toList = .ok (a, s') ∧ skipSpace s' = [] := by
  rw [whole, bind_eq_ok]
  constructor
  · intro h
    obtain ⟨⟨b, s'⟩, hr, h⟩ := h
    dsimp only at h
    split at h
    · next hs =>
      cases h
      exact ⟨s', hr, hs⟩
    · cases h
  · intro h
    obtain ⟨s', hr, hs⟩ := h
    exact ⟨(a, s'), hr, by simp [hs]⟩

/-- The record of a text that is no list of values is that of an object with different names. -/
theorem ofJsonText_eq_ok_iff {text : String} (ha : ∀ vs, readRaw text ≠ .ok (.array vs)) :
    ofJsonText text = .ok r ↔
      ∃ ms, readRaw text = .ok (.object ms) ∧ (ms.map (·.1)).Nodup ∧ Puts {} ms r := by
  have hr : ∀ v, readRaw text = .ok v ↔
      ∃ s', value (125 + 2) text.toList = .ok (v, s') ∧ skipSpace s' = [] :=
    fun v => whole_eq_ok_iff
  constructor
  · intro h
    obtain ⟨s', h, hs⟩ := whole_eq_ok_iff.mp h
    by_cases hl : ∃ t, skipSpace text.toList = '[' :: t
    · obtain ⟨t, ht⟩ := hl
      obtain ⟨vs, hv⟩ := array_of_readRecord (d := 125) ht h
      exact absurd ((hr _).mpr ⟨s', hv, hs⟩) (ha vs)
    · by_cases ho : ∃ t, skipSpace text.toList = '{' :: t
      · obtain ⟨t, ht⟩ := ho
        obtain ⟨ms, hv, hd, hp⟩ := (readRecord_object_iff ht).mp h
        exact ⟨ms, (hr _).mpr ⟨s', hv, hs⟩, hd, hp⟩
      · exact absurd h (readRecord_ne_ok (not_exists.mp hl) (not_exists.mp ho))
  · intro h
    obtain ⟨ms, h, hd, hp⟩ := h
    obtain ⟨s', hv, hs⟩ := (hr _).mp h
    by_cases hl : ∃ t, skipSpace text.toList = '[' :: t
    · obtain ⟨t, ht⟩ := hl
      obtain ⟨vs, he⟩ := array_of_value ht hv
      cases he
    · by_cases ho : ∃ t, skipSpace text.toList = '{' :: t
      · obtain ⟨t, ht⟩ := ho
        exact whole_eq_ok_iff.mpr ⟨s', (readRecord_object_iff ht).mpr ⟨ms, hv, hd, hp⟩, hs⟩
      · exact absurd hv (object_ne_value (not_exists.mp hl) (not_exists.mp ho))

end ListfileSettings.Settings
