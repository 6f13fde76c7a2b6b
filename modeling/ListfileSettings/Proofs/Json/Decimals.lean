import ListfileSettings.Proofs.Json.Acceptance
import ListfileSettings.Proofs.Settings.Record

/-!
# Objects that hold an integer

The decimal of an integer of any size as the one member of an object. The text of the object is read
if the decimal is, and what the decimal is read as is the integer only where that fits 64 bits.
-/
namespace ListfileSettings.Json

/-- A JSON text of an object with one member, which is the decimal of an integer. -/
inductive Grammar.IntegerObject : List Char → String → Int → Prop
  | mk {l₀ l t s l₁ l₂ l' l₃ : List Char} {n : Int} (h₀ : Space l₀) (h : Space l) (ht : Quoted t s)
      (h₁ : Space l₁) (h₂ : Space l₂) (h' : Space l') (h₃ : Space l₃) :
      IntegerObject (l₀ ++ '{' :: (l ++ '"' :: (t ++ '"' :: (l₁ ++ ':' :: (l₂ ++
        (Decimal.integerDigits n ++ (l' ++ '}' :: l₃))))))) (String.ofList s) n

open Grammar

variable {rest s l₁ l₂ l' l₃ : List Char} {v : Json} {n : Int} {isNegative : Bool} {d rounds : Nat}
  {ms : List (String × Json)} {name : String}

/-! ### Decimals of any size -/

/-- The decimal of an integer is read as this value. -/
def ReadsDecimal (n : Int) (v : Json) : Prop := scalar (Decimal.integerDigits n) = .ok (v, [])

/-- What follows a number plays no part in its value. -/
theorem wholeNumber_eq_ok_iff {ds : Digits} : wholeNumber isNegative ds rest = .ok (v, s) ↔
    wholeNumber isNegative ds [] = .ok (v, []) ∧ s = rest := by
  unfold wholeNumber
  split
  · unfold finishFloat
    cases makeFloat? isNegative ds.significand ds.dropped <;> simp [eq_comm]
  · split
    · simp [eq_comm]
    · split <;> simp [eq_comm]

theorem scalar_eq_ok_iff (h : EndsNumber rest) :
    scalar (Decimal.integerDigits n ++ rest) = .ok (v, s) ↔ ReadsDecimal n v ∧ s = rest := by
  have hn := scalar_eq_wholeNumber n endsNumber_nil
  rw [List.append_nil] at hn
  rw [ReadsDecimal, hn, scalar_eq_wholeNumber n h, wholeNumber_eq_ok_iff]

theorem readsDecimal_integer_iff {m : Int} : ReadsDecimal n (.integer m) ↔ Fits n ∧ m = n := by
  by_cases hn : Fits n
  · have hr := scalar_of_fits hn endsNumber_nil
    rw [List.append_nil] at hr
    rw [ReadsDecimal, hr]
    simp [hn, eq_comm]
  · refine iff_of_false (fun h => ?_) fun h => hn h.1
    rw [ReadsDecimal, ← List.append_nil (Decimal.integerDigits n)] at h
    obtain ⟨x, hx⟩ := float_of_not_fits hn endsNumber_nil h
    cases hx

/-! ### Objects -/

theorem value_decimal_iff (h₂ : Space l₂) (hr : EndsNumber rest) :
    value d (l₂ ++ (Decimal.integerDigits n ++ rest)) = .ok (v, s) ↔
      ReadsDecimal n v ∧ s = rest := by
  rw [value_append h₂, value_decimal, scalar_eq_ok_iff hr]

theorem members_end_iff {isFirst : Bool} (h' : Space l') :
    foldMembers (pushMember (value d)) (rounds + 1) isFirst [] (l' ++ '}' :: l₃) = .ok (ms, s) ↔
      ms = [] ∧ s = l₃ := by
  have hd : nextMember isFirst (l' ++ '}' :: l₃) = .ok (.done l₃) := by
    rw [nextMember_append h']
    rfl
  rw [members_eq_ok_iff, hd]
  simp [eq_comm, and_comm]

theorem members_decimal_iff {l t u : List Char} (hn : 2 ≤ rounds) (h : Space l) (ht : Quoted t u)
    (h₁ : Space l₁) (h₂ : Space l₂) (h' : Space l') :
    foldMembers (pushMember (value d)) rounds true [] (l ++ '"' :: (t ++ '"' :: (l₁ ++ ':' ::
        (l₂ ++ (Decimal.integerDigits n ++ (l' ++ '}' :: l₃)))))) = .ok (ms, s) ↔
      ∃ v, ReadsDecimal n v ∧ ms = [(String.ofList u, v)] ∧ s = l₃ := by
  obtain ⟨m, rfl⟩ := Nat.exists_eq_add_of_le' hn
  have hr : EndsNumber (l' ++ '}' :: l₃) := endsNumber_append h' (endsNumber_cons (by simp))
  have hf := nextMember_quote (s := t ++ '"' :: (l₁ ++ ':' ::
    (l₂ ++ (Decimal.integerDigits n ++ (l' ++ '}' :: l₃))))) h
  rw [List.nil_append] at hf
  have hq := stringAfterQuote_of_quoted ht (l₁ ++ ':' ::
    (l₂ ++ (Decimal.integerDigits n ++ (l' ++ '}' :: l₃))))
  rw [members_eq_ok_iff, hf]
  constructor
  · intro hm
    rcases hm with ⟨hm, -⟩ | ⟨_, _, _, _, v, _, ms', hs, hu, hc, hv, he, rfl⟩
    · cases hm
    · cases hs
      rw [hq] at hu
      cases hu
      rw [colon_append h₁] at hc
      cases hc
      obtain ⟨hd, rfl⟩ := (value_decimal_iff h₂ hr).mp hv
      obtain ⟨rfl, rfl⟩ := (members_end_iff h').mp he
      exact ⟨v, hd, rfl, rfl⟩
  · intro hm
    obtain ⟨v, hv, rfl, rfl⟩ := hm
    have hd := (value_decimal_iff (d := d) h₂ hr).mpr ⟨hv, rfl⟩
    exact .inr ⟨_, _, _, _, v, _, [], rfl, hq, colon_append h₁, hd,
      (members_end_iff h').mpr ⟨rfl, rfl⟩, rfl⟩

theorem readRaw_integerObject_iff {text : String} (h : IntegerObject text.toList name n) :
    readRaw text = .ok v ↔ ∃ u, ReadsDecimal n u ∧ v = .object [(name, u)] := by
  generalize hs : text.toList = cs at h
  cases h with
  | @mk l₀ l t s l₁ l₂ l' l₃ n h₀ h ht h₁ h₂ h' h₃ =>
    have he : skipSpace l₃ = [] := by
      have he := skipSpace_append h₃ []
      rwa [List.append_nil] at he
    have hn : ∀ a b : List Char, 2 ≤ (a ++ '"' :: b).length + 1 := by
      intro a b
      rw [List.length_append, List.length_cons]
      omega
    rw [readRaw, Settings.whole_eq_ok_iff, hs, depthLimit]
    simp only [value_append h₀, value_object (skipSpace_cons rfl), map_eq_ok]
    constructor
    · intro hr
      obtain ⟨s', ⟨⟨ms, s₁⟩, hm, hp⟩, -⟩ := hr
      cases hp
      obtain ⟨u, hu, rfl, -⟩ := (members_decimal_iff (hn l _) h ht h₁ h₂ h').mp hm
      exact ⟨u, hu, rfl⟩
    · intro hr
      obtain ⟨u, hu, rfl⟩ := hr
      refine ⟨l₃, ⟨([(String.ofList s, u)], l₃), ?_, rfl⟩, he⟩
      exact (members_decimal_iff (hn l _) h ht h₁ h₂ h').mpr ⟨u, hu, rfl, rfl⟩

end ListfileSettings.Json
