import ListfileSettings.Decimal.Digits

/-!
# Wide integers

Integers of 128 bits, the largest that a settings text keeps apart.
-/
namespace ListfileSettings.Decimal

abbrev leastWide : Int := -0x80000000000000000000000000000000

abbrev greatestWide : Int := 0x7FFFFFFFFFFFFFFFFFFFFFFFFFFFFFFF

/-- An integer of 128 bits. -/
structure Wide where
  val : Int
  least_le : leastWide ≤ val
  le_greatest : val ≤ greatestWide
  deriving DecidableEq

namespace Wide

instance : Inhabited Wide := ⟨⟨0, by decide, by decide⟩⟩

instance : Repr Wide := ⟨fun n p => reprPrec n.val p⟩

def ofInt? (i : Int) : Option Wide :=
  if h : leastWide ≤ i ∧ i ≤ greatestWide then some ⟨i, h.1, h.2⟩ else none

def clamp (i : Int) : Wide :=
  if h : i < leastWide then ⟨leastWide, by decide, by decide⟩
  else if h' : greatestWide < i then ⟨greatestWide, by decide, by decide⟩
  else ⟨i, Int.not_lt.mp h, Int.not_lt.mp h'⟩

def ofUInt32 (n : UInt32) : Wide :=
  ⟨n.toNat, by simp only [leastWide]; omega, by
    have := n.toNat_lt
    simp only [greatestWide]
    omega⟩

def text (n : Wide) : String := integerText n.val

theorem clamp_val (n : Wide) : clamp n.val = n := by
  have h₁ : ¬ n.val < leastWide := Int.not_lt.mpr n.least_le
  have h₂ : ¬ greatestWide < n.val := Int.not_lt.mpr n.le_greatest
  simp only [clamp, h₁, h₂, dite_false]

theorem ofInt?_val (n : Wide) : ofInt? n.val = some n :=
  dif_pos ⟨n.least_le, n.le_greatest⟩

end Wide

end ListfileSettings.Decimal
