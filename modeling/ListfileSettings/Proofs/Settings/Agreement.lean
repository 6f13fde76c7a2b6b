import ListfileSettings.Proofs.Json.Acceptance
import ListfileSettings.Proofs.Json.Canonical
import ListfileSettings.Proofs.Settings.Given
import Mathlib.Data.List.Nodup

/-!
# Literals in both encodings

A literal denotes the same value whether it is given as a literal or as JSON. The one difference is
a width of zero: JSON gives it and the check of the record refuses it. And where no name is given
twice, the order in which settings are given does not matter.
-/
namespace ListfileSettings

open Json

/-! ### Values of a kind -/

namespace Literal

variable {v : Literal} {vs : List Literal}

theorem isNumber_ofDecimal (n : Decimal.Wide) : (ofDecimal n.val).IsNumber := by
  by_cases h : Fits n.val
  · rw [ofDecimal_of_fits h]
    trivial
  · obtain ⟨x, hx⟩ := ofDecimal_of_not_fits n h
    rw [hx]
    trivial

theorem ofDecimal_ne (n : Decimal.Wide) {j : Json} (hj : ¬ j.IsNumber) : ofDecimal n.val ≠ j := by
  intro h
  subst h
  exact hj (isNumber_ofDecimal n)

theorem integer_eq_iff {n : Decimal.Wide} {w : UInt32} :
    integer n = .integer (.ofUInt32 w) ↔ n.val = w.toNat := by
  rw [integer.injEq]
  constructor
  · intro h
    subst h
    rfl
  · intro h
    obtain ⟨n, hl, hg⟩ := n
    dsimp only at h
    subst h
    rfl

theorem asRead_eq_word_iff {w : UInt32} :
    v.asRead = .integer w.toNat ↔ v = .integer (.ofUInt32 w) := by
  have hw := w.toNat_lt
  have hf : Fits w.toNat := ⟨by omega, by omega⟩
  cases v with
  | integer n =>
    rw [asRead, integer_eq_iff]
    by_cases h : Fits n.val
    · rw [ofDecimal_of_fits h, Json.integer.injEq]
    · obtain ⟨x, hx⟩ := ofDecimal_of_not_fits n h
      rw [hx]
      refine iff_of_false (by simp) ?_
      intro he
      exact h (he ▸ hf)
  | _ => simp [asRead]

theorem asRead_eq_boolean_iff {b : Bool} : v.asRead = .boolean b ↔ v = .boolean b := by
  cases v with
  | integer n => simp [asRead, ofDecimal_ne n (j := .boolean b) id]
  | _ => simp [asRead]

theorem asRead_eq_string_iff {s : String} : v.asRead = .string s ↔ v = .string s := by
  cases v with
  | integer n => simp [asRead, ofDecimal_ne n (j := .string s) id]
  | _ => simp [asRead]

theorem asRead_ne_object {ms : List (String × Json)} : v.asRead ≠ .object ms := by
  cases v with
  | integer n => exact ofDecimal_ne n id
  | _ => simp [asRead]

theorem itemsAsRead_eq_texts_iff {texts : List String} :
    itemsAsRead vs = texts.map .string ↔ vs = texts.map .string := by
  induction vs generalizing texts with
  | nil => cases texts <;> simp [itemsAsRead]
  | cons v vs ih =>
    cases texts with
    | nil => simp [itemsAsRead]
    | cons s texts => simp [itemsAsRead, asRead_eq_string_iff, ih]

theorem asRead_eq_texts_iff {texts : List String} :
    v.asRead = .array (texts.map .string) ↔ v = .sequence (texts.map .string) := by
  cases v with
  | integer n => simp [asRead, ofDecimal_ne n (j := .array (texts.map .string)) id]
  | sequence vs => simp [asRead, itemsAsRead_eq_texts_iff]
  | _ => simp [asRead]

mutual

/-- A literal holds no object, so its value is canonical. -/
theorem canonical_asRead : (v : Literal) → v.asRead.canonical = v.asRead
  | .integer n => by
    have h := isNumber_ofDecimal n
    rw [asRead]
    cases hv : ofDecimal n.val <;> simp_all [IsNumber, canonical]
  | .boolean _ => rfl
  | .string _ => rfl
  | .sequence vs => by rw [asRead, canonical, canonicalItems_itemsAsRead vs]

theorem canonicalItems_itemsAsRead :
    (vs : List Literal) → canonicalItems (itemsAsRead vs) = itemsAsRead vs
  | [] => rfl
  | v :: vs => by
    rw [itemsAsRead, canonicalItems, canonical_asRead v, canonicalItems_itemsAsRead vs]

end

end Literal

namespace Kind

variable {v : Literal}

theorem word_of_bounds {n : Decimal.Wide} (h : 0 ≤ n.val ∧ n.val ≤ 4294967295) :
    Literal.integer n = .integer (.ofUInt32 (UInt32.ofNat n.val.toNat)) := by
  have hs : n.val.toNat < UInt32.size := by
    simp only [UInt32.size]
    omega
  rw [Literal.integer_eq_iff, UInt32.toNat_ofNat_of_lt' hs]
  omega

theorem takes_iff (k : Kind) {x : k.Value} : k.Takes v x ↔ v = k.toLiteral x ∧ k.Admits x := by
  constructor
  · intro h
    refine ⟨?_, admits_of_takes h⟩
    cases h with
    | positive h => exact word_of_bounds ⟨by omega, h.2⟩
    | count h => exact word_of_bounds h
    | _ => rfl
  · intro h
    obtain ⟨rfl, h⟩ := h
    exact k.takes_toLiteral h

/-- The JSON value of a literal is taken as if it was the literal, but for a width of zero. -/
theorem takesJson_asRead_iff (k : Kind) {x : k.Value} :
    k.TakesJson v.asRead x ↔ v = k.toLiteral x := by
  rw [← ofJson_eq_ok_iff]
  cases k with
  | positive => exact toWord_eq_ok_iff.trans Literal.asRead_eq_word_iff
  | count => exact toWord_eq_ok_iff.trans Literal.asRead_eq_word_iff
  | flag => exact toFlag_eq_ok_iff.trans Literal.asRead_eq_boolean_iff
  | caseStyle =>
    refine toChoice_eq_ok_iff.trans ?_
    simp [Literal.asRead_eq_string_iff, Literal.asRead_ne_object, toLiteral]
  | lineEnding =>
    refine toChoice_eq_ok_iff.trans ?_
    simp [Literal.asRead_eq_string_iff, Literal.asRead_ne_object, toLiteral]
  | names => exact toTexts_eq_ok_iff.trans Literal.asRead_eq_texts_iff

end Kind

/-! ### Settings of different names -/

namespace Settings

variable {policy : UnknownKeys} {r r' : Settings} {es : List Setting}

/-- The record has the value that the setting denotes, or the setting may be left out. -/
def Agrees (policy : UnknownKeys) (r : Settings) (e : Setting) : Prop :=
  (∃ k : Key, e.1 = k.text ∧ e.2.Denotes k.kind (r.get k)) ∨
    policy = .warn ∧ ∀ k : Key, e.1 ≠ k.text

theorem lookup_reverse_of_nodup (hd : (es.map (·.1)).Nodup) {name : String} {g : Given}
    (h : (name, g) ∈ es) : es.reverse.lookup name = some g := by
  cases hl : es.reverse.lookup name with
  | none => exact absurd rfl (lookup_reverse_eq_none_iff.mp hl _ h)
  | some g' =>
    obtain ⟨es₁, es₂, he, -⟩ := lookup_reverse_eq_some_iff.mp hl
    have hm : (name, g') ∈ es := by simp [he]
    rw [(Prod.mk.inj (List.inj_on_of_nodup_map hd hm h rfl)).2]

/-- Settings of different names can be given in any order: the record agrees with each of them. -/
theorem steps_iff_of_nodup (hd : (es.map (·.1)).Nodup) : Steps policy r es r' ↔
    (∀ e ∈ es, Agrees policy r' e) ∧ ∀ k : Key, (∀ e ∈ es, e.1 ≠ k.text) → r'.get k = r.get k := by
  rw [steps_iff]
  constructor
  · intro h
    obtain ⟨ha, hu⟩ := h
    constructor
    · intro e he
      obtain ⟨name, g⟩ := e
      obtain ⟨k, x, rfl, -⟩ | hn := ha _ he
      · have hk := hu k
        rw [lookup_reverse_of_nodup hd he] at hk
        exact .inl ⟨k, rfl, hk⟩
      · exact .inr hn
    · intro k hn
      have hk := hu k
      rwa [lookup_reverse_eq_none_iff.mpr hn] at hk
  · intro h
    obtain ⟨ha, hn⟩ := h
    constructor
    · intro e he
      obtain ⟨k, hk, hx⟩ | hn := ha e he
      · exact .inl ⟨k, _, hk, hx⟩
      · exact .inr hn
    · intro k
      cases hl : es.reverse.lookup k.text with
      | none => exact hn k (lookup_reverse_eq_none_iff.mp hl)
      | some g =>
        obtain ⟨es₁, es₂, rfl, -⟩ := lookup_reverse_eq_some_iff.mp hl
        obtain ⟨k', hk, hx⟩ | ⟨-, hn⟩ := ha (k.text, g) (by simp)
        · obtain rfl := Key.text_injective hk
          exact hx
        · exact absurd rfl (hn k)

theorem steps_perm_iff {es' : List Setting} (hd : (es.map (·.1)).Nodup) (hp : es.Perm es') :
    Steps policy r es r' ↔ Steps policy r es' r' := by
  have hd' := (hp.map (·.1)).nodup_iff.mp hd
  rw [steps_iff_of_nodup hd, steps_iff_of_nodup hd']
  simp only [hp.mem_iff]

theorem nodup_names {bs : List (String × Literal)} (hd : (bs.map (·.1)).Nodup)
    (give : Literal → Given) : ((bs.map fun b => (b.1, give b.2)).map (·.1)).Nodup := by
  rwa [List.map_map]

theorem admits_of_validate (h : r.validate = .ok ()) (k : Key) : k.kind.Admits (r.get k) := by
  obtain ⟨hw, ht, -⟩ := validate_eq_ok_iff.mp h
  exact admits_iff.mpr ⟨hw, ht⟩ k

theorem agrees_literal_iff (hr : ∀ k : Key, k.kind.Admits (r.get k)) {name : String} {v : Literal} :
    Agrees policy r (name, .literal v) ↔ Agrees policy r (name, .json v.asRead) := by
  refine or_congr_left (exists_congr fun k => and_congr_right fun _ => ?_)
  have hl := k.kind.takes_iff (v := v) (x := r.get k)
  have hj := k.kind.takesJson_asRead_iff (v := v) (x := r.get k)
  constructor
  · intro h
    exact hj.mpr (hl.mp h).1
  · intro h
    exact hl.mpr ⟨hj.mp h, hr k⟩

/-- Bindings of different names make the same valid record as literals and as JSON. -/
theorem steps_literal_iff {bs : List (String × Literal)} (hd : (bs.map (·.1)).Nodup)
    (hr : ∀ k : Key, k.kind.Admits (r'.get k)) :
    Steps policy r (bs.map fun b => (b.1, .literal b.2)) r' ↔
      Steps policy r (bs.map fun b => (b.1, .json b.2.asRead)) r' := by
  have hl := nodup_names hd .literal
  have hj := nodup_names hd fun v => .json v.asRead
  rw [steps_iff_of_nodup hl, steps_iff_of_nodup hj]
  simp only [List.forall_mem_map, agrees_literal_iff hr]

end Settings

end ListfileSettings
