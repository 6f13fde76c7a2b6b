import ListfileSettings.Proofs.Settings.InPlace
import ListfileSettings.Proofs.Settings.Listing

/-!
# What is shown of a record is all of it

Each key is shown as the literal of its value, whatever that is, and the literal is that of no other
value. So a listing leaves no key out, and the record can be told from it.
-/
namespace ListfileSettings

/-! ### Values -/

namespace Literal

theorem ofJson?_word (n : UInt32) : ofJson? (.integer n.toNat) = some (.integer (.ofUInt32 n)) := by
  have hn := n.toNat_lt
  have hw : Decimal.Wide.ofInt? n.toNat = some (.ofUInt32 n) :=
    Decimal.Wide.ofInt?_val (.ofUInt32 n)
  rw [ofJson?, if_pos (by omega), hw]
  rfl

theorem itemsOfJson?_texts (texts : List String) :
    itemsOfJson? (texts.map .string) = some (texts.map .string) := by
  induction texts with
  | nil => rfl
  | cons s texts ih =>
    rw [List.map_cons, itemsOfJson?, ih]
    rfl

end Literal

namespace Kind

variable {k : Kind} {v : Literal}

theorem ofJson?_toJson (k : Kind) (x : k.Value) :
    Literal.ofJson? (k.toJson x) = some (k.toLiteral x) := by
  cases k with
  | positive => exact Literal.ofJson?_word x
  | count => exact Literal.ofJson?_word x
  | names =>
    rw [toJson, Literal.ofJson?, Literal.itemsOfJson?_texts]
    rfl
  | _ => rfl

theorem ofUInt32_ofNat {n : Decimal.Wide} (h : 0 ≤ n.val ∧ n.val ≤ 4294967295) :
    Decimal.Wide.ofUInt32 (UInt32.ofNat n.val.toNat) = n := by
  obtain ⟨i, hl, hg⟩ := n
  dsimp only at h ⊢
  have hs : i.toNat < UInt32.size := by
    simp only [UInt32.size]
    omega
  simp only [Decimal.Wide.ofUInt32, UInt32.toNat_ofNat_of_lt' hs, Decimal.Wide.mk.injEq]
  omega

theorem toLiteral_of_takes {x : k.Value} (h : k.Takes v x) : k.toLiteral x = v := by
  cases h with
  | positive h => exact congrArg Literal.integer (ofUInt32_ofNat ⟨by omega, h.2⟩)
  | count h => exact congrArg Literal.integer (ofUInt32_ofNat h)
  | _ => rfl

theorem ofUInt32_injective {m n : UInt32}
    (h : Literal.integer (.ofUInt32 m) = .integer (.ofUInt32 n)) : m = n := by
  have hv : (m.toNat : Int) = n.toNat := congrArg Decimal.Wide.val (Literal.integer.inj h)
  exact UInt32.toNat_inj.mp (Int.ofNat.inj hv)

theorem toLiteral_injective (k : Kind) {x y : k.Value} (h : k.toLiteral x = k.toLiteral y) :
    x = y := by
  cases k with
  | positive => exact ofUInt32_injective h
  | count => exact ofUInt32_injective h
  | flag => exact Literal.boolean.inj h
  | caseStyle => exact Named.name_injective x y (Literal.string.inj h)
  | lineEnding => exact Named.name_injective x y (Literal.string.inj h)
  | names => exact (List.map_inj_right fun _ _ => Literal.string.inj).mp (Literal.sequence.inj h)

end Kind

namespace Settings

variable {r r' : Settings} {k : Key}

/-! ### Keys -/

theorem lookup_members (r : Settings) (key : String) :
    r.members.lookup key = (Key.ofText? key).map fun k => k.kind.toJson (r.get k) := by
  cases hk : Key.ofText? key with
  | some k =>
    obtain rfl := Key.ofText?_eq_some_iff.mp hk
    exact (Json.lookup_eq_some_iff_mem (pairwise_members r)).mpr (mem_members_iff.mpr ⟨k, rfl⟩)
  | none =>
    refine Option.eq_none_iff_forall_ne_some.mpr fun v hv => ?_
    obtain ⟨k, he⟩ :=
      mem_members_iff.mp ((Json.lookup_eq_some_iff_mem (pairwise_members r)).mp hv)
    exact Key.ofText?_eq_none_iff.mp hk k (Prod.mk.inj he).1

theorem literal?_eq (r : Settings) (key : String) :
    r.literal? key = (Key.ofText? key).map r.literal := by
  rw [literal?, lookup_members]
  cases Key.ofText? key with
  | none => rfl
  | some k => exact k.kind.ofJson?_toJson (r.get k)

theorem literal?_text (r : Settings) (k : Key) : r.literal? k.text = some (r.literal k) := by
  rw [literal?_eq, Key.ofText?_text]
  rfl

/-! ### Listings -/

theorem shownLine_eq (r : Settings) (k : Key) : r.shownLine k = r.lineChars k := by
  rw [shownLine, literal?_text]
  rfl

/-- What is shown of a record is its listing. -/
theorem shown_eq (r : Settings) : r.shown = r.text := by
  have hl : r.shownLine = r.lineChars := funext r.shownLine_eq
  have hs : r.shownSection = r.sectionChars := funext fun s => by rw [shownSection, hl, sectionChars]
  rw [shown, hs, text, chars]

theorem read_shown (r : Settings) : Assignment.read r.shown = .ok r.listed := by
  rw [shown_eq, read_text]

theorem listed_injective {r r' : Settings} (h : r.listed = r'.listed) : r = r' := by
  refine ext_get fun k => k.kind.toLiteral_injective ?_
  have ha := List.map_inj_left.mp h k (Named.mem_all k)
  exact congrArg Assignment.value ha

/-- A listing of what is shown is read back as one assignment for each of the 17 keys, in the
canonical order, of what is shown of the key, on a line that does not depend on the record. So the
record can be told from it. -/
theorem read_shown_eq :
    Key.all.length = 17 ∧
    (∀ r : Settings, ∃ value : Key → Literal, (∀ k : Key, r.literal? k.text = some (value k)) ∧
      Assignment.read r.shown = .ok (Key.all.map fun k => ⟨k.text, value k, listedLine k⟩)) ∧
    Function.Injective shown := by
  refine ⟨rfl, fun r => ⟨r.literal, r.literal?_text, r.read_shown⟩, fun r r' h => ?_⟩
  have hr := r.read_shown
  rw [h, read_shown] at hr
  exact listed_injective (Except.ok.inj hr).symm

end Settings

end ListfileSettings
