import ListfileSettings.Json.Decode
import ListfileSettings.Proofs.Except

/-!
# What decodes to what

For each type that JSON values are decoded to, the JSON values of a value of the type.
-/
namespace ListfileSettings.Json

variable {v : Json}

theorem toWord_eq_ok_iff {w : UInt32} : v.toWord = .ok w ↔ v = .integer w.toNat := by
  cases v with
  | integer n =>
    simp only [toWord, UInt32.size, integer.injEq]
    split
    · next h =>
      have hn : (UInt32.ofNat n.toNat).toNat = n.toNat := UInt32.toNat_ofNat_of_lt' (by
        simp only [UInt32.size]
        omega)
      rw [Except.ok.injEq, ← UInt32.toNat_inj, hn]
      omega
    · next h =>
      have := w.toNat_lt
      simp only [reduceCtorEq, false_iff]
      omega
  | _ => simp [toWord]

theorem toFlag_eq_ok_iff {b : Bool} : v.toFlag = .ok b ↔ v = .boolean b := by
  cases v <;> simp [toFlag]

theorem toText_eq_ok_iff {s : String} : v.toText = .ok s ↔ v = .string s := by
  cases v <;> simp [toText]

theorem mapM_toText_eq_ok_iff {vs : List Json} {texts : List String} :
    vs.mapM toText = .ok texts ↔ vs = texts.map .string := by
  induction vs generalizing texts with
  | nil => cases texts <;> simp [pure, Except.pure]
  | cons v vs ih =>
    simp only [List.mapM_cons, bind_eq_ok, toText_eq_ok_iff, ih]
    constructor
    · intro h
      obtain ⟨s, rfl, ts, rfl, h⟩ := h
      cases h
      rfl
    · intro h
      cases texts with
      | nil => cases h
      | cons s ts =>
        obtain ⟨rfl, rfl⟩ := List.cons.inj h
        exact ⟨s, rfl, ts, rfl, rfl⟩

theorem toTexts_eq_ok_iff {texts : List String} :
    v.toTexts = .ok texts ↔ v = .array (texts.map .string) := by
  cases v <;> simp [toTexts, mapM_toText_eq_ok_iff]

theorem toUnit_eq_ok_iff {u : Unit} : v.toUnit = .ok u ↔ v = .null := by
  cases v <;> simp [toUnit]

section Choice

variable {α : Type} [Named α] {a : α}

theorem chosen_eq_ok_iff {s : String} : chosen α s = .ok a ↔ s = Named.name a := by
  unfold chosen
  split
  · next b h =>
    rw [Except.ok.injEq, ← Named.name_of_ofName? h]
    exact ⟨congrArg Named.name, Named.name_injective b a⟩
  · next h =>
    refine ⟨by rintro ⟨⟩, ?_⟩
    rintro rfl
    simp [Named.ofName?_name] at h

theorem toChoice_eq_ok_iff : v.toChoice α = .ok a ↔
    v = .string (Named.name a) ∨ v = .object [(Named.name a, .null)] := by
  cases v with
  | string s => simp [toChoice, chosen_eq_ok_iff]
  | object ms =>
    rcases ms with _ | ⟨⟨name, v⟩, _ | ⟨m, ms⟩⟩
    · simp [toChoice]
    · simp [toChoice, bind_eq_ok, chosen_eq_ok_iff, toUnit_eq_ok_iff]
    · simp [toChoice]
  | _ => simp [toChoice]

end Choice

end ListfileSettings.Json
