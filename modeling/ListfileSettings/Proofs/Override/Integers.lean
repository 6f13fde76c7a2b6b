import ListfileSettings.Override
import ListfileSettings.Proofs.Assignment.FirstCharacter
import ListfileSettings.Proofs.Text.Stripped

/-!
# Integers in overrides

The text of an override spells an integer as a settings text does, but without underscores and with
any blanks around it. Where the integer fits 128 bits it is the literal of the override.
-/
namespace ListfileSettings

open Assignment.Grammar (Digits Integer digits_iff)

/-- A kind whose values are integers. -/
inductive Kind.IsInteger : Kind → Prop
  | positive : IsInteger .positive
  | count : IsInteger .count

variable {b b' t : List Char} {c : Char} {m : Nat} {n : Int}

namespace Text

theorem isBlank_of_isDigit (h : c.isDigit = true) : isBlank c = false := by
  have hr : ∀ n, 48 ≤ n → n ≤ 57 → inRanges blankRanges n = false := by
    intro n hl hu
    simp [inRanges, blankRanges]
    omega
  simp only [Char.isDigit, Bool.and_eq_true, decide_eq_true_eq] at h
  exact hr c.toNat (UInt32.le_iff_toNat_le.mp h.1) (UInt32.le_iff_toNat_le.mp h.2)

end Text

/-! ### Digits without underscores -/

namespace Override

/-- The text of an override that spells an integer. -/
inductive Spells : List Char → Int → Prop
  | mk {b t b' : List Char} {n : Int} (hb : ∀ c ∈ b, Text.isBlank c = true) (h : Integer t n)
      (hu : '_' ∉ t) (hb' : ∀ c ∈ b', Text.isBlank c = true) : Spells (b ++ (t ++ b')) n

theorem digits_of_not_mem (h : Digits t m) (hu : '_' ∉ t) :
    t ≠ [] ∧ (∀ c ∈ t, c.isDigit = true) ∧ m = Decimal.value t := by
  obtain ⟨hd, hg, rfl⟩ := digits_iff.mp h
  have hf : t.filter (· ≠ '_') = t := by
    rw [List.filter_eq_self]
    intro c hc
    exact decide_eq_true fun he => hu (he ▸ hc)
  refine ⟨?_, fun c hc => ?_, by rw [hf]⟩
  · rintro rfl
    cases hg
  · have hc' := hd c hc
    have hne : c ≠ '_' := fun he => hu (he ▸ hc)
    simpa [Assignment.Grammar.isDigitPart, hne] using hc'

theorem natural?_of_digits (h : Digits t m) (hu : '_' ∉ t) : Decimal.natural? t = some m := by
  obtain ⟨hn, hd, rfl⟩ := digits_of_not_mem h hu
  have ha : t.all Char.isDigit = true := List.all_eq_true.mpr hd
  simp [Decimal.natural?, hn, ha]

theorem signed?_of_integer (h : Integer t n) (hu : '_' ∉ t) : Decimal.signed? t = some n := by
  cases h with
  | unsigned h =>
    obtain ⟨hn, hd, -⟩ := digits_of_not_mem h hu
    obtain ⟨c, u, rfl⟩ := List.exists_cons_of_ne_nil hn
    have hc := hd c List.mem_cons_self
    unfold Decimal.signed?
    split
    · next he =>
      cases he
      cases hc
    · next he =>
      cases he
      cases hc
    · rw [natural?_of_digits h hu]
      rfl
  | plus h =>
    rw [Decimal.signed?, natural?_of_digits h fun hm => hu (List.mem_cons_of_mem _ hm)]
    rfl
  | minus h =>
    rw [Decimal.signed?, natural?_of_digits h fun hm => hu (List.mem_cons_of_mem _ hm)]
    rfl

theorem not_blank_of_integer (h : Integer t n) (hu : '_' ∉ t) :
    ∀ c ∈ t, Text.isBlank c = false := by
  have hd : ∀ {u : List Char} {m : Nat}, Digits u m → '_' ∉ u →
      ∀ c ∈ u, Text.isBlank c = false := by
    intro u m hm hn c hc
    exact Text.isBlank_of_isDigit ((digits_of_not_mem hm hn).2.1 c hc)
  cases h with
  | unsigned h => exact hd h hu
  | plus h =>
    have hn := fun hm => hu (List.mem_cons_of_mem _ hm)
    exact List.forall_mem_cons.mpr ⟨by decide, hd h hn⟩
  | minus h =>
    have hn := fun hm => hu (List.mem_cons_of_mem _ hm)
    exact List.forall_mem_cons.mpr ⟨by decide, hd h hn⟩

theorem literal?_integer {k : Kind} (hk : k.IsInteger) {s : String} : literal? k s =
    ((Decimal.signed? (Text.trim s).toList).bind Decimal.Wide.ofInt?).map .integer := by
  cases hk with
  | positive => rfl
  | count => rfl

theorem literal?_of_spells {k : Kind} (hk : k.IsInteger) {value : String}
    (h : Spells value.toList n) : literal? k value = (Decimal.Wide.ofInt? n).map .integer := by
  generalize hs : value.toList = cs at h
  cases h with
  | @mk b t b' n hb h hu hb' =>
    have htrim : (Text.trim value).toList = t := by
      rw [← Text.stripped_toList, hs]
      exact Text.stripped_of_not_blank hb hb' (not_blank_of_integer h hu)
    rw [literal?_integer hk, htrim, signed?_of_integer h hu, Option.bind_some]

end Override

end ListfileSettings
