import ListfileSettings.Decimal.Wide
import ListfileSettings.Proofs.Json.Finite

/-!
# Integers are read as what they denote

The decimal of an integer is read as the integer itself, if it fits 64 bits, and as a
floating-point number otherwise. It is a finite one as far as 128 bits go. With a sign there is no
integer that is not negative: a zero is a floating-point number then.
-/
namespace ListfileSettings

variable {cs rest : List Char} {c : Char} {m k : Nat} {isNegative : Bool}

/-! ### Decimals -/

namespace Decimal

theorem length_digits_le (h : m < 10 ^ (k + 1)) : (digits m).length ≤ k + 1 := by
  induction k generalizing m with
  | zero =>
    have hm : m < 10 := h
    rw [digits, if_pos hm]
    exact Nat.le_refl 1
  | succ k ih =>
    rw [digits]
    split
    · exact Nat.le_add_left 1 (k + 1)
    · have hd : m / 10 < 10 ^ (k + 1) := by
        rw [Nat.pow_succ] at h
        omega
      have hl := ih hd
      rw [List.length_append, List.length_singleton]
      omega

theorem digits_ne_zero_cons : digits m ≠ '0' :: c :: cs := by
  induction m using Nat.strongRecOn generalizing c cs with
  | ind m ih =>
    intro h
    rw [digits] at h
    split at h
    · simp at h
    · next hm =>
      cases hd : digits (m / 10) with
      | nil => exact digits_ne_nil _ hd
      | cons d ds =>
        rw [hd] at h
        obtain ⟨rfl, -⟩ := List.cons.inj h
        cases ds with
        | cons e es => exact ih (m / 10) (by omega) hd
        | nil =>
          -- A single digit is that of a number below ten, and here the number is not zero.
          have hv := value_digits (m / 10)
          rw [hd] at hv
          change 0 = m / 10 at hv
          omega

theorem le_value_concat : value cs ≤ value (cs ++ [c]) := by
  rw [value_append, push]
  omega

end Decimal

namespace Json

open Decimal (digits integerDigits)

theorem wholeDigits_concat : wholeDigits (cs ++ [c]) = (wholeDigits cs).push c := by
  simp [wholeDigits]

theorem wholeDigits_of_lt (h : Decimal.value cs < UInt64.size) :
    wholeDigits cs = ⟨Decimal.value cs, 0⟩ := by
  induction cs using List.reverseRecOn with
  | nil => rfl
  | append_singleton cs c ih =>
    rw [wholeDigits_concat, ih (Nat.lt_of_le_of_lt Decimal.le_value_concat h), Digits.push]
    rw [Decimal.value_append] at h ⊢
    simp [h]

theorem dropped_pos (h : UInt64.size ≤ Decimal.value cs) : 0 < (wholeDigits cs).dropped := by
  induction cs using List.reverseRecOn with
  | nil => exact absurd h (by decide)
  | append_singleton cs c ih =>
    rw [wholeDigits_concat]
    by_cases hs : UInt64.size ≤ Decimal.value cs
    · have hd := ih hs
      simp [Digits.push, Nat.ne_of_gt hd]
    · rw [wholeDigits_of_lt (Nat.not_le.mp hs), Digits.push]
      rw [Decimal.value_append] at h
      simp [Nat.not_lt.mpr h]

theorem dropped_le : (wholeDigits cs).dropped ≤ cs.length := by
  induction cs using List.reverseRecOn with
  | nil => exact Nat.le_refl 0
  | append_singleton cs c ih =>
    rw [wholeDigits_concat, List.length_append, List.length_singleton]
    unfold Digits.push
    dsimp only
    split
    · exact Nat.le_succ_of_le ih
    · exact Nat.succ_le_succ ih

/-! ### Numbers -/

/-- What can follow an integer: nothing that a number goes on with. -/
def EndsNumber (rest : List Char) : Prop :=
  ∀ c s, rest = c :: s → c.isDigit = false ∧ c ≠ '.' ∧ c ≠ 'e' ∧ c ≠ 'E'

theorem number_digits (h : EndsNumber rest) :
    number isNegative (digits m ++ rest) = wholeNumber isNegative (wholeDigits (digits m)) rest := by
  have ha : ∀ c ∈ digits m, c.isDigit = true := fun c => Decimal.isDigit_of_mem_digits
  have hr : rest.takeWhile Char.isDigit = [] ∧ rest.dropWhile Char.isDigit = rest := by
    cases rest with
    | nil => exact ⟨rfl, rfl⟩
    | cons c s => simp [(h c s rfl).1]
  have ht : (digits m ++ rest).takeWhile Char.isDigit = digits m := by
    rw [List.takeWhile_append_of_pos ha, hr.1, List.append_nil]
  have hd : (digits m ++ rest).dropWhile Char.isDigit = rest := by
    rw [List.dropWhile_append_of_pos ha, hr.2]
  unfold number
  simp only [ht, hd]
  split
  · next hn => exact absurd hn (Decimal.digits_ne_nil m)
  · next hn => exact absurd hn Decimal.digits_ne_zero_cons
  · split
    · next s => exact absurd rfl (h '.' s rfl).2.1
    · next s => exact absurd rfl (h 'e' s rfl).2.2.1
    · next s => exact absurd rfl (h 'E' s rfl).2.2.2
    · rfl

theorem wholeDigits_digits (h : m < UInt64.size) : wholeDigits (digits m) = ⟨m, 0⟩ := by
  have hv := Decimal.value_digits m
  rw [wholeDigits_of_lt (by rwa [hv]), hv]

theorem wholeNumber_natural (h : m < UInt64.size) :
    wholeNumber false (wholeDigits (digits m)) rest = .ok (.integer m, rest) := by
  rw [wholeDigits_digits h]
  rfl

theorem wholeNumber_negative (h : 0 < m ∧ m ≤ 0x8000000000000000) :
    wholeNumber true (wholeDigits (digits m)) rest = .ok (.integer (-m), rest) := by
  rw [wholeDigits_digits (Nat.lt_of_le_of_lt h.2 (by decide))]
  simp [wholeNumber, h]

theorem wholeNumber_dropped (h : UInt64.size ≤ m) :
    wholeNumber isNegative (wholeDigits (digits m)) rest = finishFloat isNegative
      (wholeDigits (digits m)).significand (wholeDigits (digits m)).dropped rest := by
  have hv := Decimal.value_digits m
  have hp : 0 < (wholeDigits (digits m)).dropped := dropped_pos (by rwa [hv])
  rw [wholeNumber, if_pos hp]

theorem wholeNumber_negative_float (h : m < UInt64.size) (hg : 0x8000000000000000 < m) :
    wholeNumber true (wholeDigits (digits m)) rest = .ok (.float (-m.toUInt64.toFloat), rest) := by
  have hn : ¬ (0 < m ∧ m ≤ 0x8000000000000000) := by omega
  rw [wholeDigits_digits h]
  simp [wholeNumber, hn]

/-- A number that fits 64 bits neither with its sign nor, when not negative, without one. -/
def IsWide (isNegative : Bool) (m : Nat) : Prop :=
  UInt64.size ≤ m ∨ isNegative = true ∧ 0x8000000000000000 < m

/-- Up to 39 digits, a number that does not fit is a finite floating-point number. -/
theorem exists_wholeNumber (hm : m < 10 ^ 39) (h : IsWide isNegative m) :
    ∃ x, ∀ rest, wholeNumber isNegative (wholeDigits (digits m)) rest = .ok (.float x, rest) := by
  by_cases hs : UInt64.size ≤ m
  · have hl : (wholeDigits (digits m)).dropped ≤ 39 :=
      Nat.le_trans dropped_le (Decimal.length_digits_le hm)
    obtain ⟨x, hx⟩ := exists_makeFloat? isNegative (wholeDigits (digits m)).significand
      (Nat.lt_succ_of_le hl)
    refine ⟨x, fun rest => ?_⟩
    rw [wholeNumber_dropped hs, finishFloat, hx]
  · obtain ⟨rfl, hg⟩ := h.resolve_left hs
    exact ⟨_, fun rest => wholeNumber_negative_float (Nat.not_le.mp hs) hg⟩

theorem float_of_finishFloat {v : Json} {s s' : List Char} {e : Int}
    (h : finishFloat isNegative m e s = .ok (v, s')) : ∃ x, v = .float x := by
  unfold finishFloat at h
  split at h
  · cases h
    exact ⟨_, rfl⟩
  · cases h

theorem float_of_wholeNumber {v : Json} {s : List Char} (hm : IsWide isNegative m)
    (h : wholeNumber isNegative (wholeDigits (digits m)) rest = .ok (v, s)) :
    ∃ x, v = .float x := by
  by_cases hs : UInt64.size ≤ m
  · rw [wholeNumber_dropped hs] at h
    exact float_of_finishFloat h
  · obtain ⟨rfl, hg⟩ := hm.resolve_left hs
    rw [wholeNumber_negative_float (Nat.not_le.mp hs) hg] at h
    cases h
    exact ⟨_, rfl⟩

/-! ### Integers -/

theorem scalar_minus (s : List Char) : scalar ('-' :: s) = number true s := rfl

theorem scalar_digit {s : List Char} (h : c.isDigit = true) : scalar (c :: s) = number false (c :: s) := by
  have hc : ∀ d : Char, d.isDigit = false → c ≠ d := by
    rintro d hd rfl
    rw [h] at hd
    cases hd
  simp only [scalar]
  rw [if_neg (hc 'n' rfl), if_neg (hc 't' rfl), if_neg (hc 'f' rfl), if_neg (hc '"' rfl),
    if_neg (hc '-' rfl), if_pos h]

theorem scalar_digits (h : EndsNumber rest) :
    scalar (digits m ++ rest) = wholeNumber false (wholeDigits (digits m)) rest := by
  rw [← number_digits h]
  cases hd : digits m with
  | nil => exact absurd hd (Decimal.digits_ne_nil m)
  | cons c cs => exact scalar_digit (Decimal.isDigit_of_mem_digits (hd ▸ List.mem_cons_self))

/-- The decimal of an integer is read as its sign and its digits, up to where a number ends. -/
theorem scalar_eq_wholeNumber (n : Int) (h : EndsNumber rest) : scalar (integerDigits n ++ rest) =
    wholeNumber (decide (n < 0)) (wholeDigits (digits n.natAbs)) rest := by
  cases n with
  | ofNat m =>
    have hn : decide (Int.ofNat m < 0) = false := by simp
    rw [hn]
    exact scalar_digits h
  | negSucc m =>
    have hn : decide (Int.negSucc m < 0) = true := by simp
    rw [hn, integerDigits, List.cons_append, scalar_minus]
    exact number_digits h

/-- The integers that fit 64 bits with their sign or, when not negative, without one. -/
def Fits (n : Int) : Prop := -0x8000000000000000 ≤ n ∧ n < 0x10000000000000000

theorem isWide_of_not_fits {n : Int} (h : ¬ Fits n) : IsWide (decide (n < 0)) n.natAbs := by
  unfold Fits at h
  rw [IsWide, decide_eq_true_eq]
  simp only [UInt64.size]
  omega

theorem scalar_of_fits {n : Int} (hn : Fits n) (h : EndsNumber rest) :
    scalar (integerDigits n ++ rest) = .ok (.integer n, rest) := by
  obtain ⟨hl, hu⟩ := hn
  cases n with
  | ofNat m =>
    have hm : m < UInt64.size := by
      rw [Int.ofNat_eq_natCast] at hu
      simp only [UInt64.size]
      omega
    rw [integerDigits, scalar_digits h]
    exact wholeNumber_natural hm
  | negSucc m =>
    rw [integerDigits, List.cons_append, scalar_minus, number_digits h]
    exact wholeNumber_negative (by omega)

theorem exists_scalar (n : Decimal.Wide) (hn : ¬ Fits n.val) : ∃ x, ∀ rest, EndsNumber rest →
    scalar (integerDigits n.val ++ rest) = .ok (.float x, rest) := by
  have hm : n.val.natAbs < 10 ^ 39 := by
    have hl := n.least_le
    have hg := n.le_greatest
    dsimp only [Decimal.leastWide, Decimal.greatestWide] at hl hg
    omega
  obtain ⟨x, hx⟩ := exists_wholeNumber hm (isWide_of_not_fits hn)
  exact ⟨x, fun rest h => by rw [scalar_eq_wholeNumber _ h, hx]⟩

theorem float_of_not_fits {n : Int} {v : Json} {s : List Char} (hn : ¬ Fits n)
    (hr : EndsNumber rest) (h : scalar (integerDigits n ++ rest) = .ok (v, s)) :
    ∃ x, v = .float x := by
  rw [scalar_eq_wholeNumber n hr] at h
  exact float_of_wholeNumber (isWide_of_not_fits hn) h

/-! ### Numbers with a sign -/

section Sign

variable {s s' : List Char} {v : Json} {e : Int}

theorem float_of_exponentAfterSign {isMinus : Bool}
    (h : exponentAfterSign isNegative m e isMinus s = .ok (v, s')) : ∃ x, v = .float x := by
  unfold exponentAfterSign at h
  split at h
  · cases h
  · split at h
    · cases h
    · split at h
      · exact float_of_finishFloat h
      · split at h
        · cases h
        · cases h
          exact ⟨_, rfl⟩

theorem float_of_exponentPart (h : exponentPart isNegative m e s = .ok (v, s')) :
    ∃ x, v = .float x := by
  unfold exponentPart at h
  split at h <;> exact float_of_exponentAfterSign h

theorem float_of_fractionPart {ds : Digits} (h : fractionPart isNegative ds s = .ok (v, s')) :
    ∃ x, v = .float x := by
  unfold fractionPart at h
  dsimp only at h
  split at h
  · cases h
  · unfold floatEnd at h
    split at h
    · exact float_of_exponentPart h
    · exact float_of_exponentPart h
    · exact float_of_finishFloat h

/-- A number with a sign is negative or a floating-point number, also where its digits are zero. -/
theorem float_or_negative_of_minus (h : scalar ('-' :: s) = .ok (v, s')) :
    (∃ x, v = .float x) ∨ ∃ n < 0, v = .integer n := by
  rw [scalar_minus] at h
  unfold number at h
  simp only at h
  split at h
  · split at h <;> cases h
  · cases h
  · split at h
    · exact .inl (float_of_fractionPart h)
    · exact .inl (float_of_exponentPart h)
    · exact .inl (float_of_exponentPart h)
    · unfold wholeNumber at h
      split at h
      · exact .inl (float_of_finishFloat h)
      · split at h
        · next hn => cases hn
        · split at h
          · next hm =>
            cases h
            have hp := of_decide_eq_true (Bool.and_eq_true_iff.mp hm).1
            exact .inr ⟨_, by omega, rfl⟩
          · cases h
            exact .inl ⟨_, rfl⟩

end Sign

end Json

end ListfileSettings
