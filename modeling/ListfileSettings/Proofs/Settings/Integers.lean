import ListfileSettings.Proofs.Json.Decimals
import ListfileSettings.Proofs.Override.Integers
import ListfileSettings.Proofs.Settings.Agreement

/-!
# Integers for keys

Which integers a kind takes, out of all integers. A literal holds the nearest one of 128 bits, JSON
holds one of 64 bits or a floating-point number, and an override none beyond 128 bits. To a kind of
integers, which ends at 32 bits, they are all the same.
-/
namespace ListfileSettings

open Decimal (Wide)

/-- The integers that a kind takes, each with the value that is equal to it. -/
inductive Kind.TakesInteger : (k : Kind) → Int → k.Value → Prop
  | positive {n : Int} {x : UInt32} (h : 1 ≤ n ∧ n ≤ 4294967295) (hx : x.toNat = n) :
      TakesInteger .positive n x
  | count {n : Int} {x : UInt32} (h : 0 ≤ n ∧ n ≤ 4294967295) (hx : x.toNat = n) :
      TakesInteger .count n x

theorem Decimal.Wide.val_clamp (n : Int) :
    (clamp n).val = max leastWide (min n greatestWide) := by
  unfold clamp
  split
  · next hl =>
    dsimp only [leastWide, greatestWide] at hl ⊢
    omega
  · next hl =>
    split
    · next hg =>
      dsimp only [leastWide, greatestWide] at hg ⊢
      omega
    · next hg =>
      dsimp only [leastWide, greatestWide] at hl hg ⊢
      omega

namespace Kind

variable {n : Int} {k : Kind} {w : UInt32}

theorem takesInteger_positive_iff :
    TakesInteger .positive n w ↔ (1 ≤ n ∧ n ≤ 4294967295) ∧ w.toNat = n := by
  constructor
  · intro h
    cases h with
    | positive h hx => exact ⟨h, hx⟩
  · intro h
    exact .positive h.1 h.2

theorem takesInteger_count_iff :
    TakesInteger .count n w ↔ (0 ≤ n ∧ n ≤ 4294967295) ∧ w.toNat = n := by
  constructor
  · intro h
    cases h with
    | count h hx => exact ⟨h, hx⟩
  · intro h
    exact .count h.1 h.2

theorem bounds_of_takesInteger {x : k.Value} (h : k.TakesInteger n x) :
    0 ≤ n ∧ n ≤ 4294967295 := by
  cases h with
  | positive h => exact ⟨by omega, h.2⟩
  | count h => exact h

theorem admits_of_takesInteger {x : k.Value} (h : k.TakesInteger n x) : k.Admits x := by
  cases h with
  | positive h hx =>
    intro hz
    rw [hz] at hx
    change ((0 : Nat) : Int) = n at hx
    omega
  | count => trivial

/-! ### Literals -/

theorem eq_ofNat_iff (h : 0 ≤ n ∧ n ≤ 4294967295) : w = UInt32.ofNat n.toNat ↔ w.toNat = n := by
  have hn : (UInt32.ofNat n.toNat).toNat = n.toNat := UInt32.toNat_ofNat_of_lt' (by
    simp only [UInt32.size]
    omega)
  rw [← UInt32.toNat_inj, hn]
  omega

theorem takes_integer_iff (hk : k.IsInteger) {m : Wide} {x : k.Value} :
    k.Takes (.integer m) x ↔ k.TakesInteger m.val x := by
  rw [← ofLiteral_eq_ok_iff]
  cases hk with
  | positive =>
    rw [ofLiteral, bounded_eq_ok_iff, takesInteger_positive_iff]
    exact and_congr_right fun h => eq_ofNat_iff ⟨by omega, h.2⟩
  | count =>
    rw [ofLiteral, bounded_eq_ok_iff, takesInteger_count_iff]
    exact and_congr_right eq_ofNat_iff

/-- An integer that is too wide is too large for a key as well, or negative. -/
theorem takesInteger_clamp_iff (hk : k.IsInteger) {x : k.Value} :
    k.TakesInteger (Wide.clamp n).val x ↔ k.TakesInteger n x := by
  rw [Wide.val_clamp]
  cases hk with
  | positive =>
    rw [takesInteger_positive_iff, takesInteger_positive_iff]
    dsimp only [Decimal.leastWide, Decimal.greatestWide]
    omega
  | count =>
    rw [takesInteger_count_iff, takesInteger_count_iff]
    dsimp only [Decimal.leastWide, Decimal.greatestWide]
    omega

theorem takes_clamp_iff (hk : k.IsInteger) {x : k.Value} :
    k.Takes (.integer (Wide.clamp n)) x ↔ k.TakesInteger n x := by
  rw [takes_integer_iff hk, takesInteger_clamp_iff hk]

/-! ### JSON values -/

theorem takesJson_iff (hk : k.IsInteger) {v : Json} {x : k.Value} :
    k.TakesJson v x ∧ k.Admits x ↔ ∃ n, v = .integer n ∧ k.TakesInteger n x := by
  rw [← ofJson_eq_ok_iff]
  cases hk with
  | positive =>
    have hx := UInt32.toNat_lt x
    simp only [ofJson, Json.toWord_eq_ok_iff, takesInteger_positive_iff, Admits, ne_eq,
      ← UInt32.toNat_inj]
    constructor
    · intro h
      obtain ⟨rfl, h₀⟩ := h
      exact ⟨_, rfl, ⟨by change ¬ x.toNat = 0 at h₀; omega, by omega⟩, rfl⟩
    · intro h
      obtain ⟨n, rfl, hn, rfl⟩ := h
      exact ⟨rfl, by change ¬ x.toNat = 0; omega⟩
  | count =>
    have hx := UInt32.toNat_lt x
    simp only [ofJson, Json.toWord_eq_ok_iff, takesInteger_count_iff, Admits, and_true]
    constructor
    · intro h
      subst h
      exact ⟨_, rfl, ⟨by omega, by omega⟩, rfl⟩
    · intro h
      obtain ⟨n, rfl, -, rfl⟩ := h
      rfl

theorem fits_of_takesInteger {x : k.Value} (h : k.TakesInteger n x) : Json.Fits n := by
  obtain ⟨hl, hu⟩ := bounds_of_takesInteger h
  exact ⟨by omega, by omega⟩

theorem takesJson_decimal_iff (hk : k.IsInteger) {v : Json} (hv : Json.ReadsDecimal n v)
    {x : k.Value} : k.TakesJson v.canonical x ∧ k.Admits x ↔ k.TakesInteger n x := by
  rw [takesJson_iff hk]
  simp only [Json.canonical_eq_integer_iff]
  constructor
  · intro h
    obtain ⟨m, rfl, h⟩ := h
    obtain ⟨-, rfl⟩ := Json.readsDecimal_integer_iff.mp hv
    exact h
  · intro h
    have hn := Json.readsDecimal_integer_iff.mpr ⟨fits_of_takesInteger h, rfl⟩
    obtain ⟨rfl, -⟩ := Prod.mk.inj (Except.ok.inj (hv.symm.trans hn))
    exact ⟨n, rfl, h⟩

/-! ### Overrides -/

theorem denotes_text_iff (hk : k.IsInteger) {s : String} (hs : Override.Spells s.toList n)
    {x : k.Value} : (Given.text s).Denotes k x ↔ k.TakesInteger n x := by
  rw [Given.Denotes, Override.literal?_of_spells hk hs]
  by_cases hn : Decimal.leastWide ≤ n ∧ n ≤ Decimal.greatestWide
  · rw [Wide.ofInt?, dif_pos hn, ← takes_integer_iff hk (m := ⟨n, hn.1, hn.2⟩)]
    simp
  · rw [Wide.ofInt?, dif_neg hn]
    refine iff_of_false (by simp) ?_
    intro h
    have hb := bounds_of_takesInteger h
    dsimp only [Decimal.leastWide, Decimal.greatestWide] at hn
    omega

end Kind

/-! ### Records -/

namespace Settings

variable {policy : UnknownKeys} {k : Key} {n : Int} {r : Settings}

/-- The default record with this integer for one key, where the prefix bounds are still in order. -/
def HasInteger (k : Key) (n : Int) (r : Settings) : Prop :=
  ∃ x, k.kind.TakesInteger n x ∧ r = ({} : Settings).set k x ∧ r.minPrefixChars ≤ r.maxPrefixChars

/-- Of the default record with another value for one key, only the value can be zero where it must
not be. -/
theorem admits_set_default_iff {x : k.kind.Value} :
    (∀ j : Key, j.kind.Admits ((({} : Settings).set k x).get j)) ↔ k.kind.Admits x := by
  constructor
  · intro h
    have hk := h k
    rwa [get_set] at hk
  · intro h j
    by_cases hj : j = k
    · subst hj
      rwa [get_set]
    · rw [get_set_of_ne _ x hj]
      exact admits_default j

theorem validate_set_default_iff {x : k.kind.Value} (hr : r = ({} : Settings).set k x) :
    r.validate = .ok () ↔ k.kind.Admits x ∧ r.minPrefixChars ≤ r.maxPrefixChars := by
  subst hr
  rw [validate_eq_ok_iff, ← and_assoc, ← admits_iff, admits_set_default_iff]

theorem steps_integer_iff {g : Given}
    (hg : ∀ x, g.Denotes k.kind x ∧ k.kind.Admits x ↔ k.kind.TakesInteger n x) :
    Steps policy {} [(k.text, g)] r ∧ r.validate = .ok () ↔ HasInteger k n r := by
  simp only [steps_cons_iff, steps_nil_iff, step_key_iff]
  constructor
  · intro h
    obtain ⟨⟨r', ⟨x, hx, rfl⟩, rfl⟩, hv⟩ := h
    obtain ⟨ha, hp⟩ := (validate_set_default_iff rfl).mp hv
    exact ⟨x, (hg x).mp ⟨hx, ha⟩, rfl, hp⟩
  · intro h
    obtain ⟨x, hx, rfl, hp⟩ := h
    obtain ⟨hx, ha⟩ := (hg x).mpr hx
    exact ⟨⟨_, ⟨x, hx, rfl⟩, rfl⟩, (validate_set_default_iff rfl).mpr ⟨ha, hp⟩⟩

end Settings

end ListfileSettings
