import ListfileSettings.Json.Reader
import Mathlib

/-!
# Numbers that stay finite

A crude bound on mantissas and exponents of floating-point numbers, far below the greatest ones. It
is enough to know that an integer of 64 bits times a small power of ten does not become infinite.
-/
namespace ListfileSettings.Json

open Float.Model Float.Model.UnpackedFloat

variable {s : Sign} {m k : Nat} {e a b : Int} {x y : Float}

/-- The number is zero, or finite with a mantissa of at most `k` bits and an exponent of at most
`b`. -/
def Bounded (k : Nat) (b : Int) : Float.Model.UnpackedFloat → Prop
  | .zero _ => True
  | .finite _ m e _ => m < 2 ^ k ∧ e ≤ b
  | _ => False

instance (k : Nat) (b : Int) (f : Float.Model.UnpackedFloat) : Decidable (Bounded k b f) :=
  match f with
  | .zero _ => isTrue trivial
  | .finite _ m e _ => inferInstanceAs (Decidable (m < 2 ^ k ∧ e ≤ b))
  | .infinity _ => isFalse id
  | .notANumber => isFalse id

theorem Bounded.mono {f : Float.Model.UnpackedFloat} (h : Bounded k a f) (hab : a ≤ b) :
    Bounded k b f := by
  cases f with
  | finite s m e hm => exact ⟨h.1, Int.le_trans h.2 hab⟩
  | _ => exact h

/-! ### Rounding -/

theorem mantissa_shiftRight_le (em : ExtendedMantissa) (k : Nat) :
    (em >>> k).mantissa ≤ em.mantissa := by
  change (k.repeat ExtendedMantissa.shiftRightOne em).mantissa ≤ em.mantissa
  induction k with
  | zero => exact Nat.le_refl _
  | succ k ih => exact Nat.le_trans (Nat.div_le_self _ 2) ih

theorem roundedMantissa_le (em : ExtendedMantissa) : em.roundedMantissa ≤ em.mantissa + 1 := by
  obtain ⟨m, roundBit, stickyBit⟩ := em
  cases roundBit
  · cases stickyBit <;> exact Nat.le_succ m
  · cases stickyBit
    · have hm : m % 2 < 2 := Nat.mod_lt m (by decide)
      change m + m % 2 ≤ m + 1
      omega
    · exact Nat.le_refl (m + 1)

theorem mantissa_shiftToTargetExponent_le :
    (shiftToTargetExponent Format.binary64 m e .exact).1.mantissa ≤ m :=
  mantissa_shiftRight_le _ _

theorem log2_le_of_lt (h : m < 2 ^ k) : m.log2 ≤ k := by
  by_cases h₀ : m = 0
  · subst h₀
    exact Nat.zero_le k
  · exact Nat.le_of_lt ((Nat.log2_lt h₀).mpr h)

theorem targetExponent_eq : Format.binary64.targetExponent (totalExponent m e) =
    max (m.log2 + e - 52) (-1074) := by
  simp only [Format.targetExponent, totalExponent, Format.mantissaBits, Format.minExponent]
  omega

theorem exponent_shiftToTargetExponent_le (he : e ≤ b) (hb : -1074 ≤ b) (hm : m < 2 ^ k) :
    (shiftToTargetExponent Format.binary64 m e .exact).2 ≤ b + k := by
  have hl := log2_le_of_lt hm
  rw [shiftToTargetExponent, targetExponent_eq]
  dsimp only [shiftToExponent]
  omega

/-- Rounding shifts twice, the second time a mantissa that can have become one bit longer. -/
theorem bounded_roundWithAccuracy (he : e ≤ b) (hb : -1074 ≤ b) (hm : m < 2 ^ k) :
    Bounded (k + 1) (b + k + (k + 1)) (roundWithAccuracy Format.binary64 s m e .exact) := by
  have hr : (shiftToTargetExponent Format.binary64 m e .exact).1.roundedMantissa < 2 ^ (k + 1) := by
    have hr := roundedMantissa_le (shiftToTargetExponent Format.binary64 m e .exact).1
    have hs := mantissa_shiftToTargetExponent_le (m := m) (e := e)
    have hp := Nat.pow_succ (n := 2) (m := k)
    omega
  have h₁ := exponent_shiftToTargetExponent_le he hb hm
  have h₂ := exponent_shiftToTargetExponent_le h₁ (by omega) hr
  unfold roundWithAccuracy
  dsimp only
  split
  · trivial
  · exact ⟨Nat.lt_of_le_of_lt mantissa_shiftToTargetExponent_le hr, by simpa using h₂⟩

/-- An integer that has less than 53 bits is first shifted to as many. -/
theorem shiftLeft_lt (hm : m < 2 ^ k) (hk : 53 ≤ k) : m <<< (52 - m.log2) < 2 ^ k := by
  rw [Nat.shiftLeft_eq]
  by_cases hl : 52 ≤ m.log2
  · rw [Nat.sub_eq_zero_of_le hl, Nat.pow_zero, Nat.mul_one]
    exact hm
  · calc m * 2 ^ (52 - m.log2) < 2 ^ (m.log2 + 1) * 2 ^ (52 - m.log2) :=
          Nat.mul_lt_mul_of_pos_right Nat.lt_log2_self (Nat.two_pow_pos _)
      _ = 2 ^ 53 := by
          rw [← Nat.pow_add]
          congr 1
          omega
      _ ≤ 2 ^ k := Nat.pow_le_pow_right (by decide) hk

theorem bounded_round (hm : m < 2 ^ k) (hk : 53 ≤ k) :
    Bounded (k + 1) (0 + k + (k + 1)) (UnpackedFloat.round Format.binary64 s m 0) := by
  have ht : (0 - Format.binary64.targetExponent (totalExponent m 0)).toNat = 52 - m.log2 := by
    rw [targetExponent_eq]
    omega
  simp only [UnpackedFloat.round, decreaseExponent, ht]
  exact bounded_roundWithAccuracy (by omega) (by decide) (shiftLeft_lt hm hk)

/-! ### Packing -/

theorem bounded_unpack {f : BitVec 11} {n : BitVec 52} (hf : f.toNat < 2047) :
    Bounded 53 (f.toNat - 1074)
      (UnpackedFloat.unpack Format.binary64 (packComponents Format.binary64 s f n)) := by
  have h₁ : f ≠ -1#11 := by
    intro h
    rw [h] at hf
    exact absurd hf (by decide)
  simp only [UnpackedFloat.unpack, unpackExponent_packComponents, unpackMantissa_packComponents]
  rw [if_neg h₁]
  by_cases h₀ : f = 0#11
  · rw [if_pos h₀]
    split
    · trivial
    · refine ⟨Nat.lt_of_lt_of_le n.isLt (by decide), ?_⟩
      simp only [Format.exponentBias]
      omega
  · rw [if_neg h₀]
    refine ⟨(1#1 ++ n).isLt, ?_⟩
    simp only [Format.exponentBias]
    omega

theorem bounded_pack {f : Float.Model.UnpackedFloat} (h : Bounded k b f) (hb : -1074 ≤ b)
    (hl : b < 971) : Bounded 53 (b + 1) (Float.Model.pack f).unpack := by
  have hle : ∀ {g : BitVec 11} {s : Sign} {n : BitVec 52}, (g.toNat : Int) ≤ b + 1075 →
      Bounded 53 (b + 1)
        (UnpackedFloat.unpack Format.binary64 (packComponents Format.binary64 s g n)) := by
    intro g s n hg
    refine (bounded_unpack (by omega)).mono (by omega)
  cases f with
  | infinity s => exact absurd h id
  | notANumber => exact absurd h id
  | zero s => exact hle (g := 0#11) (by simp; omega)
  | finite s m e hm =>
    obtain ⟨-, he⟩ := h
    change Bounded 53 (b + 1) (UnpackedFloat.unpack Format.binary64
      (UnpackedFloat.pack Format.binary64 (.finite s m e hm)))
    have hs : e + Format.binary64.exponentBias + Format.binary64.mantissaBitsWithoutImplicit =
        e + 1075 := by
      change e + (1023 : Nat) + (52 : Nat) = _
      omega
    have hi : ¬ 2 ^ Format.binary64.exponentBits ≤ (e + 1075).toNat + 1 := by
      change ¬ 2 ^ 11 ≤ _
      omega
    simp only [UnpackedFloat.pack, hs]
    rw [if_neg hi]
    split
    · refine hle ?_
      rw [BitVec.toNat_ofNat]
      omega
    · exact hle (g := 0#11) (by simp; omega)

/-! ### Products -/

theorem isInf_eq_false (h : Bounded k b x.toModel.unpack) : x.isInf = false := by
  change x.toModel.unpack.isInf = false
  cases hx : x.toModel.unpack with
  | infinity s =>
    rw [hx] at h
    exact absurd h id
  | _ => rfl

theorem bounded_mul {f g : Float.Model.UnpackedFloat} (hf : Bounded 53 a f) (hg : Bounded 53 b g)
    (hab : -1074 ≤ a + b) : Bounded 107 (a + b + 106 + 107) (UnpackedFloat.mul Format.binary64 f g) := by
  cases f with
  | infinity s => exact absurd hf id
  | notANumber => exact absurd hf id
  | zero s =>
    cases g with
    | infinity s => exact absurd hg id
    | notANumber => exact absurd hg id
    | _ => trivial
  | finite s m e hm =>
    cases g with
    | infinity s => exact absurd hg id
    | notANumber => exact absurd hg id
    | zero s => trivial
    | finite s' m' e' hm' =>
      obtain ⟨hfm, hfe⟩ := hf
      obtain ⟨hgm, hge⟩ := hg
      have hp : m * m' < 2 ^ 53 * 2 ^ 53 := Nat.mul_lt_mul'' hfm hgm
      rw [← Nat.pow_add] at hp
      exact bounded_roundWithAccuracy (by omega) hab hp

theorem isInf_mul (hx : Bounded 53 a x.toModel.unpack) (hy : Bounded 53 b y.toModel.unpack)
    (hab : -1074 ≤ a + b) (hl : a + b < 750) : (x * y).isInf = false :=
  isInf_eq_false (bounded_pack (bounded_mul hx hy hab) (by omega) (by omega))

theorem bounded_toFloat (n : UInt64) : Bounded 53 130 n.toFloat.toModel.unpack := by
  have h : Bounded 65 (0 + 64 + 65) (UnpackedFloat.ofInt Format.binary64 n.toNat) := by
    unfold UnpackedFloat.ofInt UnpackedFloat.normalize
    split
    · next h => exact absurd (Int.compare_eq_lt.mp h) (by omega)
    · trivial
    · exact bounded_round n.toNat_lt (by decide)
  exact bounded_pack h (by decide) (by decide)

/-- The powers of ten that are needed for integers of 128 bits. -/
theorem bounded_power : ∀ e < 40, Bounded 53 100 (Float.ofScientific 1 false e).toModel.unpack := by
  decide +kernel

/-- An integer of up to 64 bits with a few zeros after it is a finite number. -/
theorem exists_makeFloat? (isNegative : Bool) (significand : Nat) {e : Nat} (he : e < 40) :
    ∃ x, makeFloat? isNegative significand e = some x := by
  have hi := isInf_mul (bounded_toFloat significand.toUInt64) (bounded_power e he) (by decide)
    (by decide)
  have hs : scaleFloat? ((e : Int).natAbs / 308 + 1) significand.toUInt64.toFloat e =
      some (significand.toUInt64.toFloat * Float.ofScientific 1 false e) := by
    have hn : (e : Int).natAbs ≤ 308 := by omega
    have hp : (e : Int) ≥ 0 := by omega
    rw [scaleFloat?, if_pos hn]
    dsimp only
    rw [if_pos hp, Int.natAbs_natCast, hi]
    rfl
  rw [makeFloat?, hs]
  exact ⟨_, rfl⟩

end ListfileSettings.Json
