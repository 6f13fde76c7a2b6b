import ListfileSettings.Json.Typed
import ListfileSettings.Proofs.Json.Decode
import ListfileSettings.Proofs.Json.Values
import Mathlib.Data.List.DropRight

/-!
# Typed readers

A reader of values of a type gives what decoding makes of the value that stands there, whatever
comes after it.
-/
namespace ListfileSettings.Json

variable {α : Type} {s s' t : List Char} {v : Json} {a : α} {d n : Nat} {isFirst : Bool}

/-- The typed reader gives what `decode` makes of the values that `raw` reads. -/
def Decodes (reader : Reader α) (raw : Reader Json) (decode : Json → Except Mismatch α) : Prop :=
  ∀ s s' a, reader s = .ok (a, s') ↔ ∃ v, raw s = .ok (v, s') ∧ decode v = .ok a

theorem skipSpace_skipSpace (s : List Char) : skipSpace (skipSpace s) = skipSpace s :=
  List.dropWhile_idempotent isSpace s

/-! ### Values that are neither lists nor objects -/

section Scalars

variable {expected : Expected} {decode : Json → Except Mismatch α}

theorem typedScalar_eq_ok_iff (hl : ∀ t, skipSpace s ≠ '[' :: t)
    (ho : ∀ t, skipSpace s ≠ '{' :: t) : typedScalar expected decode s = .ok (a, s') ↔
      ∃ v, scalar (skipSpace s) = .ok (v, s') ∧ decode v = .ok a := by
  unfold typedScalar
  split
  · next t h => exact absurd h (hl t)
  · next t h => exact absurd h (ho t)
  · rw [bind_eq_ok]
    constructor
    · intro h
      obtain ⟨⟨v, s₁⟩, hv, h⟩ := h
      cases hd : decode v with
      | error m => simp [hd, mismatched] at h
      | ok b =>
        simp only [hd, Except.ok.injEq, Prod.mk.injEq] at h
        obtain ⟨rfl, rfl⟩ := h
        exact ⟨v, hv, hd⟩
    · intro h
      obtain ⟨v, hv, hd⟩ := h
      exact ⟨(v, s'), hv, by simp only [hd]⟩

theorem typedScalar_list_ne_ok (h : skipSpace s = '[' :: t) :
    typedScalar expected decode s ≠ .ok (a, s') := by
  simp [typedScalar, h, mismatched]

theorem typedScalar_object_ne_ok (h : skipSpace s = '{' :: t) :
    typedScalar expected decode s ≠ .ok (a, s') := by
  simp [typedScalar, h, mismatched]

/-- What neither lists nor objects decode to is read as if the value was read first. -/
theorem decodes_typedScalar (hl : ∀ vs a, decode (.array vs) ≠ .ok a)
    (ho : ∀ ms a, decode (.object ms) ≠ .ok a) (d : Nat) :
    Decodes (typedScalar expected decode) (value d) decode := by
  intro s s' a
  by_cases h : ∃ t, skipSpace s = '[' :: t
  · obtain ⟨t, h⟩ := h
    refine iff_of_false (typedScalar_list_ne_ok h) fun hv => ?_
    obtain ⟨v, hv, hd⟩ := hv
    obtain ⟨vs, rfl⟩ := array_of_value h hv
    exact hl vs a hd
  · by_cases h' : ∃ t, skipSpace s = '{' :: t
    · obtain ⟨t, h'⟩ := h'
      refine iff_of_false (typedScalar_object_ne_ok h') fun hv => ?_
      obtain ⟨v, hv, hd⟩ := hv
      obtain ⟨ms, rfl⟩ := object_of_value h' hv
      exact ho ms a hd
    · have hl := not_exists.mp h
      have ho := not_exists.mp h'
      rw [typedScalar_eq_ok_iff hl ho, value_scalar hl ho]

theorem decodes_typedWord (d : Nat) : Decodes typedWord (value d) toWord :=
  decodes_typedScalar (by simp [toWord]) (by simp [toWord]) d

theorem decodes_typedFlag (d : Nat) : Decodes typedFlag (value d) toFlag :=
  decodes_typedScalar (by simp [toFlag]) (by simp [toFlag]) d

theorem decodes_typedText (d : Nat) : Decodes typedText (value d) toText :=
  decodes_typedScalar (by simp [toText]) (by simp [toText]) d

theorem decodes_typedUnit (d : Nat) : Decodes (typedScalar .unit toUnit) (value d) toUnit :=
  decodes_typedScalar (by simp [toUnit]) (by simp [toUnit]) d

end Scalars

/-! ### Lists -/

theorem mapM_cons_eq_ok_iff {β ε : Type} {f : β → Except ε α} {b : β} {bs : List β} {as : List α} :
    (b :: bs).mapM f = .ok as ↔ ∃ a as', f b = .ok a ∧ bs.mapM f = .ok as' ∧ as = a :: as' := by
  rw [List.mapM_cons, bind_eq_ok]
  refine exists_congr fun a => ?_
  rw [bind_eq_ok]
  constructor
  · intro h
    obtain ⟨ha, as', has, h⟩ := h
    cases h
    exact ⟨as', ha, has, rfl⟩
  · intro h
    obtain ⟨as', ha, has, rfl⟩ := h
    exact ⟨ha, as', has, rfl⟩

theorem items_typed_iff {reader : Reader α} {raw : Reader Json}
    {decode : Json → Except Mismatch α} (h : Decodes reader raw decode) {as : List α} :
    items reader n isFirst s = .ok (as, s') ↔
      ∃ vs, items raw n isFirst s = .ok (vs, s') ∧ vs.mapM decode = .ok as := by
  induction n generalizing isFirst s as with
  | zero => simp [items]
  | succ n ih =>
    simp only [items_eq_ok_iff]
    constructor
    · intro hi
      rcases hi with ⟨hn, rfl⟩ | ⟨s₁, a, s₂, as', hn, ha, has, rfl⟩
      · exact ⟨[], .inl ⟨hn, rfl⟩, rfl⟩
      · obtain ⟨v, hv, hd⟩ := (h s₁ s₂ a).mp ha
        obtain ⟨vs, hvs, hds⟩ := ih.mp has
        exact ⟨v :: vs, .inr ⟨s₁, v, s₂, vs, hn, hv, hvs, rfl⟩,
          mapM_cons_eq_ok_iff.mpr ⟨a, as', hd, hds, rfl⟩⟩
    · intro hi
      obtain ⟨vs, ⟨hn, rfl⟩ | ⟨s₁, v, s₂, vs', hn, hv, hvs, rfl⟩, hd⟩ := hi
      · cases hd
        exact .inl ⟨hn, rfl⟩
      · obtain ⟨a, as', ha, has, rfl⟩ := mapM_cons_eq_ok_iff.mp hd
        exact .inr ⟨s₁, a, s₂, as', hn, (h s₁ s₂ a).mpr ⟨v, hv, ha⟩, ih.mpr ⟨vs', hvs, has⟩, rfl⟩

theorem decodes_typedTexts (d : Nat) : Decodes typedTexts (value (d + 1)) toTexts := by
  intro s s' texts
  by_cases h : ∃ t, skipSpace s = '[' :: t
  · obtain ⟨t, h⟩ := h
    have ht : typedTexts s = items typedText (t.length + 1) true t := by
      rw [typedTexts, h]
      rfl
    rw [ht, value_list h, items_typed_iff (decodes_typedText d)]
    constructor
    · intro hi
      obtain ⟨vs, hvs, hd⟩ := hi
      exact ⟨.array vs, map_eq_ok.mpr ⟨(vs, s'), hvs, rfl⟩, hd⟩
    · intro hv
      obtain ⟨v, hv, hd⟩ := hv
      obtain ⟨⟨vs, s₁⟩, hvs, he⟩ := map_eq_ok.mp hv
      cases he
      exact ⟨vs, hvs, hd⟩
  · have hl := not_exists.mp h
    have ht : typedTexts s = typedScalar .sequence toTexts (skipSpace s) := by
      unfold typedTexts
      split
      · next t h' => exact absurd h' (hl t)
      · rfl
    rw [ht]
    by_cases h' : ∃ t, skipSpace s = '{' :: t
    · obtain ⟨t, h'⟩ := h'
      refine iff_of_false (typedScalar_object_ne_ok ((skipSpace_skipSpace s).trans h')) fun hv => ?_
      obtain ⟨v, hv, hd⟩ := hv
      obtain ⟨ms, rfl⟩ := object_of_value h' hv
      cases hd
    · have ho := not_exists.mp h'
      rw [value_scalar hl ho]
      rw [← skipSpace_skipSpace s] at hl ho
      rw [typedScalar_eq_ok_iff hl ho, skipSpace_skipSpace]

/-! ### Choices -/

section Choices

variable [Named α]

theorem typedName_eq_ok_iff {name : String} :
    typedName α name s = .ok (a, s') ↔ chosen α name = .ok a ∧ s' = s := by
  unfold typedName
  split
  · next b h => simp [h, eq_comm]
  · next m h => simp [h, mismatched]

theorem typedChoice_object_iff (h : skipSpace s = '{' :: t) :
    typedChoice α s = .ok (a, s') ↔ ∃ s₁ name s₂ s₃ s₄, nextMember true t = .ok (.item s₁) ∧
      stringAfterQuote s₁ = .ok (name, s₂) ∧ chosen α name = .ok a ∧ colon s₂ = .ok s₃ ∧
      typedScalar .unit toUnit s₃ = .ok ((), s₄) ∧ skipSpace s₄ = '}' :: s' := by
  rw [typedChoice, h]
  change (nextMember true t >>= _) = _ ↔ _
  rw [bind_eq_ok]
  constructor
  · intro h
    obtain ⟨next, hn, h⟩ := h
    cases next with
    | done s₁ => cases h
    | item s₁ =>
      obtain ⟨⟨name, s₂⟩, hs, h₁⟩ := bind_eq_ok.mp h
      obtain ⟨⟨b, s₂'⟩, ha, h₂⟩ := bind_eq_ok.mp h₁
      obtain ⟨s₃, hc, h₃⟩ := bind_eq_ok.mp h₂
      obtain ⟨⟨u, s₄⟩, hu, h₄⟩ := bind_eq_ok.mp h₃
      obtain ⟨hb, rfl⟩ := typedName_eq_ok_iff.mp ha
      dsimp only at h₄
      split at h₄
      · cases h₄
      · next r hr =>
        cases h₄
        exact ⟨s₁, name, s₂', s₃, s₄, hn, hs, hb, hc, hu, hr⟩
      · cases h₄
  · intro h
    obtain ⟨s₁, name, s₂, s₃, s₄, hn, hs, ha, hc, hu, hr⟩ := h
    have hb : typedName α name s₂ = .ok (a, s₂) := typedName_eq_ok_iff.mpr ⟨ha, rfl⟩
    refine ⟨_, hn, bind_eq_ok.mpr ⟨(name, s₂), hs, bind_eq_ok.mpr ⟨(a, s₂), hb, ?_⟩⟩⟩
    refine bind_eq_ok.mpr ⟨s₃, hc, bind_eq_ok.mpr ⟨((), s₄), hu, ?_⟩⟩
    simp [hr]

theorem length_of_nextMember {s₁ : List Char} (h : nextMember isFirst t = .ok (.item s₁)) :
    ∃ m, t.length = m + 1 := by
  cases t with
  | nil => cases h
  | cons c t => exact ⟨t.length, rfl⟩

theorem members_single_iff {raw : Reader Json} {name : String} :
    foldMembers (pushMember raw) (t.length + 1) true [] t = .ok ([(name, v)], s') ↔
      ∃ s₁ s₂ s₃ s₄, nextMember true t = .ok (.item s₁) ∧
        stringAfterQuote s₁ = .ok (name, s₂) ∧ colon s₂ = .ok s₃ ∧ raw s₃ = .ok (v, s₄) ∧
        skipSpace s₄ = '}' :: s' := by
  rw [members_eq_ok_iff]
  constructor
  · intro h
    rcases h with ⟨-, he⟩ | ⟨s₁, name, s₂, s₃, v, s₄, ms, hn, hs, hc, hv, hm, he⟩
    · cases he
    · cases he
      obtain ⟨m, hl⟩ := length_of_nextMember hn
      rw [hl, members_eq_ok_iff, nextMember_eq_done_iff] at hm
      rcases hm with ⟨hr, -⟩ | ⟨s₁, name, s₂, s₃, v, s₄, ms, -, -, -, -, -, he⟩
      · exact ⟨s₁, s₂, s₃, s₄, hn, hs, hc, hv, hr⟩
      · cases he
  · intro h
    obtain ⟨s₁, s₂, s₃, s₄, hn, hs, hc, hv, hr⟩ := h
    obtain ⟨m, hl⟩ := length_of_nextMember hn
    refine .inr ⟨s₁, name, s₂, s₃, v, s₄, [], hn, hs, hc, hv, ?_, rfl⟩
    rw [hl, members_eq_ok_iff, nextMember_eq_done_iff]
    exact .inl ⟨hr, rfl⟩

theorem typedChoice_quote_iff (h : skipSpace s = '"' :: t) : typedChoice α s = .ok (a, s') ↔
    stringAfterQuote t = .ok (Named.name a, s') := by
  rw [typedChoice, h]
  change (stringAfterQuote t >>= _) = _ ↔ _
  rw [bind_eq_ok]
  constructor
  · intro h
    obtain ⟨⟨name, s₁⟩, hs, hn⟩ := h
    obtain ⟨ha, he⟩ := typedName_eq_ok_iff.mp hn
    rw [← chosen_eq_ok_iff.mp ha, he]
    exact hs
  · intro hs
    exact ⟨(Named.name a, s'), hs, typedName_eq_ok_iff.mpr ⟨chosen_eq_ok_iff.mpr rfl, rfl⟩⟩

theorem typedChoice_ne_ok (hq : ∀ t, skipSpace s ≠ '"' :: t) (ho : ∀ t, skipSpace s ≠ '{' :: t) :
    typedChoice α s ≠ .ok (a, s') := by
  unfold typedChoice
  split
  · simp
  · next t h => exact absurd h (hq t)
  · next t h => exact absurd h (ho t)
  · simp

theorem toChoice_ne_ok (h : v.IsPlain) : v.toChoice α ≠ .ok a := by
  rw [ne_eq, toChoice_eq_ok_iff]
  intro hv
  rcases hv with rfl | rfl
  · exact h
  · exact h

theorem decodes_of_quote (h : skipSpace s = '"' :: t) (d : Nat) :
    typedChoice α s = .ok (a, s') ↔ ∃ v, value (d + 1) s = .ok (v, s') ∧ v.toChoice α = .ok a := by
  rw [typedChoice_quote_iff h, value_scalar (by simp [h]) (by simp [h]), h, scalar_quote]
  constructor
  · intro hs
    exact ⟨_, map_eq_ok.mpr ⟨_, hs, rfl⟩, toChoice_eq_ok_iff.mpr (.inl rfl)⟩
  · intro hv
    obtain ⟨v, hv, ha⟩ := hv
    obtain ⟨⟨name, s₁⟩, hs, he⟩ := map_eq_ok.mp hv
    cases he
    rcases toChoice_eq_ok_iff.mp ha with hn | hn
    · cases hn
      exact hs
    · cases hn

theorem decodes_of_object (h : skipSpace s = '{' :: t) (d : Nat) :
    typedChoice α s = .ok (a, s') ↔ ∃ v, value (d + 1) s = .ok (v, s') ∧ v.toChoice α = .ok a := by
  rw [typedChoice_object_iff h, value_object h]
  constructor
  · intro hc
    obtain ⟨s₁, name, s₂, s₃, s₄, hn, hs, ha, hc, hu, hr⟩ := hc
    obtain ⟨v, hv, hd⟩ := (decodes_typedUnit d s₃ s₄ ()).mp hu
    obtain rfl := toUnit_eq_ok_iff.mp hd
    obtain rfl := chosen_eq_ok_iff.mp ha
    have hm := members_single_iff.mpr ⟨s₁, s₂, s₃, s₄, hn, hs, hc, hv, hr⟩
    exact ⟨_, map_eq_ok.mpr ⟨_, hm, rfl⟩, toChoice_eq_ok_iff.mpr (.inr rfl)⟩
  · intro hv
    obtain ⟨v, hv, ha⟩ := hv
    obtain ⟨⟨ms, s₅⟩, hm, he⟩ := map_eq_ok.mp hv
    cases he
    rcases toChoice_eq_ok_iff.mp ha with hn | hn
    · cases hn
    · cases hn
      obtain ⟨s₁, s₂, s₃, s₄, hn, hs, hc, hv, hr⟩ := members_single_iff.mp hm
      have hu := (decodes_typedUnit d s₃ s₄ ()).mpr ⟨.null, hv, rfl⟩
      exact ⟨s₁, _, s₂, s₃, s₄, hn, hs, chosen_eq_ok_iff.mpr rfl, hc, hu, hr⟩

theorem toChoice_value_ne_ok {d : Nat} (hq : ∀ t, skipSpace s ≠ '"' :: t)
    (ho : ∀ t, skipSpace s ≠ '{' :: t) (hv : value (d + 1) s = .ok (v, s')) :
    v.toChoice α ≠ .ok a := by
  by_cases hl : ∃ t, skipSpace s = '[' :: t
  · obtain ⟨t, h⟩ := hl
    obtain ⟨vs, rfl⟩ := array_of_value h hv
    simp [toChoice_eq_ok_iff]
  · rw [value_scalar (not_exists.mp hl) ho] at hv
    have hp : v.IsPlain := by
      cases h : skipSpace s with
      | nil =>
        rw [h] at hv
        cases hv
      | cons c t =>
        rw [h] at hv
        have hc : c ≠ '"' := fun hc => hq t (by rw [h, hc])
        exact isPlain_of_scalar hc hv
    exact toChoice_ne_ok hp

theorem decodes_typedChoice (d : Nat) :
    Decodes (typedChoice α) (value (d + 1)) (toChoice α) := by
  intro s s' a
  by_cases hq : ∃ t, skipSpace s = '"' :: t
  · obtain ⟨t, h⟩ := hq
    exact decodes_of_quote h d
  · by_cases ho : ∃ t, skipSpace s = '{' :: t
    · obtain ⟨t, h⟩ := ho
      exact decodes_of_object h d
    · have hq' := not_exists.mp hq
      have ho' := not_exists.mp ho
      refine iff_of_false (typedChoice_ne_ok hq' ho') ?_
      intro hv
      obtain ⟨v, hv, ha⟩ := hv
      exact toChoice_value_ne_ok hq' ho' hv ha

end Choices

end ListfileSettings.Json
