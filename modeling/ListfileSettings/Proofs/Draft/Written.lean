import ListfileSettings.Proofs.Draft.Encodings
import ListfileSettings.Proofs.Settings.Listing

/-!
# Written records

A record is written as bindings, one for each key, in a listing or in a JSON text. Both give
settings that make the record out of any other; only a listing cannot do so if a width is zero.
-/
namespace ListfileSettings

/-! ### Values -/

namespace Literal

theorem itemsAsJson_texts (texts : List String) :
    itemsAsJson (texts.map .string) = texts.map .string := by
  induction texts with
  | nil => rfl
  | cons s texts ih =>
    rw [List.map_cons, itemsAsJson, ih]
    rfl

theorem itemsDepth_texts (texts : List String) : itemsDepth (texts.map .string) = 0 := by
  induction texts with
  | nil => rfl
  | cons s texts ih =>
    rw [List.map_cons, itemsDepth, ih]
    rfl

end Literal

namespace Kind

theorem asJson_toLiteral (k : Kind) (x : k.Value) : (k.toLiteral x).asJson = k.toJson x := by
  cases k with
  | names => exact congrArg Json.array (Literal.itemsAsJson_texts x)
  | _ => rfl

theorem depth_toLiteral (k : Kind) (x : k.Value) : (k.toLiteral x).depth ≤ 1 := by
  cases k with
  | names =>
    have h := Literal.itemsDepth_texts x
    exact Nat.le_of_eq (congrArg (· + 1) h)
  | _ => exact Nat.zero_le 1

end Kind

namespace Settings

variable {r : Settings}

/-! ### Bindings of a record -/

/-- The value of each key. -/
def bindings (r : Settings) : List (String × Literal) := Key.all.map fun k => (k.text, r.literal k)

theorem mem_bindings_iff {b : String × Literal} :
    b ∈ r.bindings ↔ ∃ k : Key, b = (k.text, r.literal k) := by
  have hk : ∀ k : Key, k ∈ Key.all := Named.mem_all
  simp [bindings, hk, eq_comm]

theorem nodup_bindings : (r.bindings.map (·.1)).Nodup := by
  have h : (Key.all.map Key.text).Nodup := by decide
  rwa [bindings, List.map_map]

theorem depth_of_mem_bindings {b : String × Literal} (h : b ∈ r.bindings) : b.2.depth ≤ 126 := by
  obtain ⟨k, rfl⟩ := mem_bindings_iff.mp h
  exact Nat.le_trans (k.kind.depth_toLiteral (r.get k)) (by decide)

theorem toJson_eq_object (r : Settings) : r.toJson = .object (Literal.membersAsJson r.bindings) := by
  simp [toJson, bindings, Literal.membersAsJson, literal, Kind.asJson_toLiteral]

/-- The settings make the record, whatever was there before and under either policy. -/
def Makes (es : List Setting) (r : Settings) : Prop := ∀ policy r₀, Steps policy r₀ es r

theorem makes_of_agrees (give : Literal → Given)
    (h : ∀ policy (k : Key), Agrees policy r (k.text, give (r.literal k))) :
    Makes (r.bindings.map fun b => (b.1, give b.2)) r := by
  intro policy r₀
  rw [steps_iff_of_nodup (nodup_names nodup_bindings give)]
  constructor
  · intro e he
    obtain ⟨b, hb, rfl⟩ := List.mem_map.mp he
    obtain ⟨k, rfl⟩ := mem_bindings_iff.mp hb
    exact h policy k
  · intro k hn
    have hb : (k.text, r.literal k) ∈ r.bindings := mem_bindings_iff.mpr ⟨k, rfl⟩
    exact absurd rfl (hn _ (List.mem_map_of_mem hb))

theorem makes_bindings (h : ∀ k : Key, k.kind.Admits (r.get k)) :
    Makes (r.bindings.map fun b => (b.1, .literal b.2)) r :=
  makes_of_agrees .literal fun _ k => .inl ⟨k, rfl, k.kind.takes_toLiteral (h k)⟩

/-- What a JSON text has for a key is taken as the value of the key, also if it is a width of zero. -/
theorem makes_asRead (r : Settings) : Makes (r.bindings.map fun b => (b.1, .json b.2.asRead)) r :=
  makes_of_agrees (fun v => .json v.asRead) fun _ k =>
    .inl ⟨k, rfl, k.kind.takesJson_asRead_iff.mpr rfl⟩

/-! ### Both encodings -/

theorem makes_listing (h : ∀ k : Key, k.kind.Admits (r.get k)) :
    ∃ es, Given.settings? r.text .assignments = some es ∧ Makes es r := by
  refine ⟨_, ?_, makes_bindings h⟩
  rw [Given.settings?, read_text]
  simp [listed, assignment, bindings]

theorem makes_of_denotes {text : String} (h : Json.Grammar.Denotes text r.bindings) :
    ∃ es, Given.settings? text .json = some es ∧ Makes es r := by
  obtain ⟨es, he, hp⟩ := Given.exists_settings?_json h nodup_bindings fun b => depth_of_mem_bindings
  refine ⟨es, he, fun policy r₀ => ?_⟩
  have hd := nodup_names (nodup_bindings (r := r)) fun v => .json v.asRead
  exact (steps_perm_iff hd hp.symm).mp (makes_asRead r policy r₀)

theorem denotes_pretty (r : Settings) {l : List Char} (hl : Json.Grammar.Space l) :
    Json.Grammar.Denotes (r.toJson.pretty ++ String.ofList l) r.bindings := by
  rw [toJson_eq_object]
  exact Json.Grammar.denotes_pretty r.bindings hl

theorem denotes_compact (r : Settings) : Json.Grammar.Denotes r.toJson.compact r.bindings := by
  rw [toJson_eq_object]
  exact Json.Grammar.denotes_compact r.bindings

end Settings

end ListfileSettings
