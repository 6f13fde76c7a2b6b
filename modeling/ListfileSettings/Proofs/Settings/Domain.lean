import ListfileSettings.Proofs.Json.Decode
import ListfileSettings.Settings.Update

/-!
# Domains of keys

Which literals a kind of values takes, said by the literal alone, and what it means for the
conversion of literals and for the assignment of a single key.
-/
namespace ListfileSettings

/-- The literals that a kind takes, with the values they denote. -/
inductive Kind.Takes : (k : Kind) → Literal → k.Value → Prop
  | positive {n : Decimal.Wide} (h : 1 ≤ n.val ∧ n.val ≤ 4294967295) :
      Takes .positive (.integer n) (UInt32.ofNat n.val.toNat)
  | count {n : Decimal.Wide} (h : 0 ≤ n.val ∧ n.val ≤ 4294967295) :
      Takes .count (.integer n) (UInt32.ofNat n.val.toNat)
  | flag (b : Bool) : Takes .flag (.boolean b) b
  | caseStyle (c : CaseStyle) : Takes .caseStyle (.string (Named.name c)) c
  | lineEnding (e : LineEnding) : Takes .lineEnding (.string (Named.name e)) e
  | names (texts : List String) : Takes .names (.sequence (texts.map .string)) texts

/-! ### Conversion of literals -/

namespace Literal

variable {v : Literal}

theorem integer_of_toJson {n : Int} (h : v.toJson = .ok (.integer n)) : ∃ m, v = .integer m := by
  cases v with
  | integer m => exact ⟨m, rfl⟩
  | sequence vs => simp [toJson, map_eq_ok] at h
  | _ => simp [toJson] at h

theorem toJson_eq_boolean_iff {b : Bool} : v.toJson = .ok (.boolean b) ↔ v = .boolean b := by
  cases v with
  | integer m =>
    simp only [toJson]
    split <;> simp
  | sequence vs => simp [toJson, map_eq_ok]
  | _ => simp [toJson]

theorem toJson_eq_string_iff {s : String} : v.toJson = .ok (.string s) ↔ v = .string s := by
  cases v with
  | integer m =>
    simp only [toJson]
    split <;> simp
  | sequence vs => simp [toJson, map_eq_ok]
  | _ => simp [toJson]

theorem toJson_ne_object {ms : List (String × Json)} : v.toJson ≠ .ok (.object ms) := by
  cases v with
  | integer m =>
    simp only [toJson]
    split <;> simp
  | sequence vs => simp [toJson, map_eq_ok]
  | _ => simp [toJson]

theorem itemsToJson_texts_iff {vs : List Literal} {texts : List String} :
    itemsToJson vs = .ok (texts.map .string) ↔ vs = texts.map .string := by
  induction vs generalizing texts with
  | nil => cases texts <;> simp [itemsToJson]
  | cons v vs ih =>
    cases texts with
    | nil => simp [itemsToJson, bind_eq_ok]
    | cons s texts =>
      rw [List.map_cons, List.map_cons, List.cons.injEq, ← ih, ← toJson_eq_string_iff]
      simp [itemsToJson, bind_eq_ok]

theorem toJson_eq_texts_iff {texts : List String} :
    v.toJson = .ok (.array (texts.map .string)) ↔ v = .sequence (texts.map .string) := by
  cases v with
  | integer m =>
    simp only [toJson]
    split <;> simp
  | sequence vs => simp [toJson, map_eq_ok, itemsToJson_texts_iff]
  | _ => simp [toJson]

end Literal

namespace Kind

/-- Whether a value can be assigned: a positive integer must not be zero. -/
def Admits : (k : Kind) → k.Value → Prop
  | .positive, n => n ≠ 0
  | _, _ => True

variable {v : Literal}

theorem bounded_eq_ok_iff {least n : Int} {below : Int → Unfit} {w : UInt32} :
    bounded least below n = .ok w ↔
      (least ≤ n ∧ n ≤ 4294967295) ∧ w = UInt32.ofNat n.toNat := by
  have hs : (UInt32.size : Int) = 4294967296 := rfl
  unfold bounded
  rw [hs]
  split
  · next hl =>
    have : ¬ least ≤ n := Int.not_le.mpr hl
    simp [this]
  · next hl =>
    split
    · next hn =>
      have : ¬ n ≤ 4294967295 := by omega
      simp [this]
    · next hn =>
      have : n ≤ 4294967295 := by omega
      simp [this, Int.not_lt.mp hl, eq_comm]

theorem choice_eq_ok_iff {α : Type} [Named α] {a : α} :
    (∃ j, v.toJson = .ok j ∧ j.toChoice α = .ok a) ↔ v = .string (Named.name a) := by
  simp only [Json.toChoice_eq_ok_iff]
  constructor
  · intro h
    obtain ⟨j, hj, hs | ho⟩ := h
    · exact Literal.toJson_eq_string_iff.mp (hs ▸ hj)
    · exact absurd (ho ▸ hj) Literal.toJson_ne_object
  · intro h
    rw [h]
    exact ⟨_, rfl, .inl rfl⟩

theorem positive_ofLiteral (hv : ∀ n, v ≠ .integer n) :
    positive.ofLiteral v = v.toJson >>= fun j => j.toWord.mapError .mismatch := by
  cases v with
  | integer n => exact absurd rfl (hv n)
  | _ => rfl

theorem count_ofLiteral (hv : ∀ n, v ≠ .integer n) :
    count.ofLiteral v = v.toJson >>= fun j => j.toWord.mapError .mismatch := by
  cases v with
  | integer n => exact absurd rfl (hv n)
  | _ => rfl

theorem toWord_ne_ok (hv : ∀ n, v ≠ .integer n) {w : UInt32} :
    (v.toJson >>= fun j => j.toWord.mapError Unfit.mismatch) ≠ .ok w := by
  intro h
  obtain ⟨j, hj, hm⟩ := bind_eq_ok.mp h
  have hw := Json.toWord_eq_ok_iff.mp (mapError_eq_ok.mp hm)
  rw [hw] at hj
  obtain ⟨n, rfl⟩ := Literal.integer_of_toJson hj
  exact hv n rfl

/-- The kinds of integers differ in their least value only. -/
theorem integer_eq_ok_iff {f : Literal → Except Unfit UInt32} {least : Int} {below : Int → Unfit}
    (hi : ∀ n, f (.integer n) = bounded least below n.val)
    (ho : ∀ v, (∀ n, v ≠ .integer n) →
      f v = v.toJson >>= fun j => j.toWord.mapError Unfit.mismatch) {w : UInt32} :
    f v = .ok w ↔ ∃ n, v = .integer n ∧ (least ≤ n.val ∧ n.val ≤ 4294967295) ∧
      w = UInt32.ofNat n.val.toNat := by
  by_cases hv : ∃ n, v = .integer n
  · obtain ⟨n, rfl⟩ := hv
    rw [hi, bounded_eq_ok_iff]
    simp
  · have hn := not_exists.mp hv
    rw [ho v hn]
    refine iff_of_false (toWord_ne_ok hn) ?_
    intro h
    obtain ⟨n, hv, -⟩ := h
    exact hn n hv

/-- The conversion of literals keeps to the domain of the kind. -/
theorem ofLiteral_eq_ok_iff (k : Kind) {x : k.Value} : k.ofLiteral v = .ok x ↔ k.Takes v x := by
  cases k with
  | positive =>
    rw [integer_eq_ok_iff (fun _ => rfl) fun _ => positive_ofLiteral]
    constructor
    · intro h
      obtain ⟨n, rfl, hn, rfl⟩ := h
      exact .positive hn
    · intro h
      cases h with
      | positive h => exact ⟨_, rfl, h, rfl⟩
  | count =>
    rw [integer_eq_ok_iff (fun _ => rfl) fun _ => count_ofLiteral]
    constructor
    · intro h
      obtain ⟨n, rfl, hn, rfl⟩ := h
      exact .count hn
    · intro h
      cases h with
      | count h => exact ⟨_, rfl, h, rfl⟩
  | flag =>
    simp only [ofLiteral, ofJson, bind_eq_ok, mapError_eq_ok, Json.toFlag_eq_ok_iff,
      exists_eq_right, Literal.toJson_eq_boolean_iff]
    constructor
    · intro h
      rw [h]
      exact .flag x
    · intro h
      cases h
      rfl
  | caseStyle =>
    simp only [ofLiteral, ofJson, bind_eq_ok, mapError_eq_ok, choice_eq_ok_iff]
    constructor
    · intro h
      rw [h]
      exact .caseStyle x
    · intro h
      cases h
      rfl
  | lineEnding =>
    simp only [ofLiteral, ofJson, bind_eq_ok, mapError_eq_ok, choice_eq_ok_iff]
    constructor
    · intro h
      rw [h]
      exact .lineEnding x
    · intro h
      cases h
      rfl
  | names =>
    simp only [ofLiteral, ofJson, bind_eq_ok, mapError_eq_ok, Json.toTexts_eq_ok_iff,
      exists_eq_right, Literal.toJson_eq_texts_iff]
    constructor
    · intro h
      rw [h]
      exact .names x
    · intro h
      cases h
      rfl

theorem takes_unique {k : Kind} {x y : k.Value} (hx : k.Takes v x) (hy : k.Takes v y) :
    x = y := by
  rw [← ofLiteral_eq_ok_iff] at hx hy
  exact Except.ok.inj (hx.symm.trans hy)

theorem admits_of_takes {k : Kind} {x : k.Value} (h : k.Takes v x) : k.Admits x := by
  cases h with
  | @positive n h =>
    intro he
    have hn := congrArg UInt32.toNat he
    rw [UInt32.toNat_ofNat_of_lt' (by simp only [UInt32.size]; omega)] at hn
    change n.val.toNat = 0 at hn
    omega
  | _ => trivial

theorem val_ofUInt32 (n : UInt32) : (Decimal.Wide.ofUInt32 n).val = n.toNat := rfl

theorem takes_toLiteral (k : Kind) {x : k.Value} (h : k.Admits x) :
    k.Takes (k.toLiteral x) x := by
  cases k with
  | positive =>
    have hx := x.toNat_lt
    have h₀ : x.toNat ≠ 0 := fun he => h (UInt32.toNat_inj.mp he)
    rw [← ofLiteral_eq_ok_iff, toLiteral, ofLiteral, bounded_eq_ok_iff, val_ofUInt32]
    exact ⟨by omega, by simp⟩
  | count =>
    have hx := x.toNat_lt
    rw [← ofLiteral_eq_ok_iff, toLiteral, ofLiteral, bounded_eq_ok_iff, val_ofUInt32]
    exact ⟨by omega, by simp⟩
  | flag => exact .flag x
  | caseStyle => exact .caseStyle x
  | lineEnding => exact .lineEnding x
  | names => exact .names x

theorem admits_of_takes_toLiteral (k : Kind) {x y : k.Value} (h : k.Takes (k.toLiteral x) y) :
    k.Admits x := by
  cases k with
  | positive =>
    rw [← ofLiteral_eq_ok_iff, toLiteral, ofLiteral, bounded_eq_ok_iff, val_ofUInt32] at h
    have hn : 1 ≤ (x.toNat : Int) := h.1.1
    intro hx
    have h₀ : x.toNat = 0 := congrArg UInt32.toNat hx
    omega
  | _ => trivial

theorem takes_toLiteral_iff (k : Kind) {x y : k.Value} :
    k.Takes (k.toLiteral x) y ↔ k.Admits x ∧ y = x := by
  constructor
  · intro h
    have hx := k.admits_of_takes_toLiteral h
    exact ⟨hx, takes_unique h (k.takes_toLiteral hx)⟩
  · intro h
    obtain ⟨hx, rfl⟩ := h
    exact k.takes_toLiteral hx

end Kind

end ListfileSettings
