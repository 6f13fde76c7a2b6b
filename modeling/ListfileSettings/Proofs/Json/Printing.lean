import ListfileSettings.Json.Writer
import ListfileSettings.Proofs.Json.Grammar

/-!
# Written objects are JSON texts

What is written for an object of literals, without blanks or with a line for each element and
member, is a text of the object.
-/
namespace ListfileSettings

namespace Literal

mutual

/-- The literal as a JSON value, whatever the size of its integers. -/
def asJson : Literal → Json
  | .integer n => .integer n.val
  | .boolean b => .boolean b
  | .string s => .string s
  | .sequence vs => .array (itemsAsJson vs)

def itemsAsJson : List Literal → List Json
  | [] => []
  | v :: vs => asJson v :: itemsAsJson vs

end

def membersAsJson (bs : List (String × Literal)) : List (String × Json) :=
  bs.map fun b => (b.1, b.2.asJson)

end Literal

namespace Json.Grammar

open Literal

variable {l t : List Char} {b : String × Literal} {vs : List Literal}
  {bs : List (String × Literal)} {level n : Nat}

/-! ### Strings -/

theorem space_nil : Space [] := by simp [Space]

theorem space_newline (level : Nat) : Space (newline level) := by
  intro c hc
  rcases List.mem_cons.mp hc with rfl | hc
  · exact .inr (.inl rfl)
  · exact .inl (List.eq_of_mem_replicate hc)

theorem hexDigit_hexDigit (h : n < 16) : HexDigit (hexDigit n) n := by
  by_cases hn : n < 10
  · rw [hexDigit, if_pos hn]
    exact .digit hn
  · obtain ⟨m, rfl⟩ := Nat.exists_eq_add_of_le (Nat.not_lt.mp hn)
    rw [hexDigit, if_neg hn, ← Nat.add_assoc]
    exact .small (by omega)

theorem quad_control {c : Char} (h : c.toNat < 32) :
    Quad ['0', '0', hexDigit (c.toNat / 16), hexDigit (c.toNat % 16)] c.toNat := by
  have h₀ : HexDigit '0' 0 := .digit (n := 0) (by decide)
  have hq := Quad.mk h₀ h₀ (hexDigit_hexDigit (n := c.toNat / 16) (by omega))
    (hexDigit_hexDigit (n := c.toNat % 16) (by omega))
  have he : ((0 * 16 + 0) * 16 + c.toNat / 16) * 16 + c.toNat % 16 = c.toNat := by omega
  rwa [he] at hq

theorem quoted_escaped (s : List Char) : Quoted (s.flatMap escaped) s := by
  induction s with
  | nil => exact .nil
  | cons c s ih =>
    rw [List.flatMap_cons]
    unfold escaped
    split
    · exact .escape (.itself (by simp)) ih
    · exact .escape (.itself (by simp)) ih
    · exact .escape .newline ih
    · exact .escape .carriageReturn ih
    · exact .escape .tab ih
    · exact .escape .backspace ih
    · exact .escape .formFeed ih
    · next hq hb _ _ _ _ _ =>
      split
      · next hc => exact .escape (.code (quad_control hc)) ih
      · next hc => exact .plain ⟨hq, hb, Nat.not_lt.mp hc⟩ ih

/-! ### Values -/

theorem value_stringChars (s : String) : Value (stringChars s) (.string s) := by
  have h := Value.string (quoted_escaped s.toList)
  rwa [String.ofList_toList] at h

theorem moreItems_comma {v : Literal} (h : Items t (v :: vs)) : MoreItems (',' :: t) (v :: vs) := by
  cases h with
  | some h hv h' hs => exact .comma h hv h' hs

mutual

theorem value_compactChars : (v : Literal) → Value (compactChars v.asJson) v
  | .integer n => .integer n
  | .boolean true => .word .trueWord
  | .boolean false => .word .falseWord
  | .string s => value_stringChars s
  | .sequence vs => .sequence (items_compactItems vs)

theorem items_compactItems : (vs : List Literal) → Items (compactItems (itemsAsJson vs)) vs
  | [] => .none space_nil
  | [v] => by
    have h := Items.some space_nil (value_compactChars v) space_nil .none
    simpa [itemsAsJson, compactItems] using h
  | v :: w :: vs => by
    have hs := moreItems_comma (items_compactItems (w :: vs))
    have h := Items.some space_nil (value_compactChars v) space_nil hs
    simpa [itemsAsJson, compactItems] using h

end

mutual

theorem value_prettyChars (level : Nat) : (v : Literal) → Value (prettyChars level v.asJson) v
  | .integer n => .integer n
  | .boolean true => .word .trueWord
  | .boolean false => .word .falseWord
  | .string s => value_stringChars s
  | .sequence [] => .sequence (.none space_nil)
  | .sequence (v :: vs) => by
    have h := Value.sequence (items_prettyItems (level + 1) (space_newline level) (v :: vs))
    simpa [asJson, itemsAsJson, prettyChars] using h

/-- The space after the last element belongs to what stands between the brackets. -/
theorem items_prettyItems (level : Nat) {l : List Char} (h : Space l) : (vs : List Literal) →
    Items (prettyItems level (itemsAsJson vs) ++ l) vs
  | [] => .none h
  | [v] => by
    have h := Items.some (space_newline level) (value_prettyChars level v) h .none
    simpa [itemsAsJson, prettyItems] using h
  | v :: w :: vs => by
    have hs := moreItems_comma (items_prettyItems level h (w :: vs))
    have h := Items.some (space_newline level) (value_prettyChars level v) space_nil hs
    simpa [itemsAsJson, prettyItems] using h

end

/-! ### Objects -/

theorem member_compact (b : String × Literal) :
    Member (stringChars b.1 ++ ':' :: compactChars b.2.asJson) b := by
  have hm := Member.mk space_nil (quoted_escaped b.1.toList) space_nil space_nil
    (value_compactChars b.2) space_nil
  rw [String.ofList_toList] at hm
  simpa [stringChars] using hm

theorem member_pretty (level : Nat) (b : String × Literal) (h : Space l) :
    Member (newline level ++ stringChars b.1 ++ [':', ' '] ++ prettyChars level b.2.asJson ++ l) b := by
  have hs : Space [' '] := by simp [Space]
  have hm := Member.mk (space_newline level) (quoted_escaped b.1.toList) space_nil hs
    (value_prettyChars level b.2) h
  rw [String.ofList_toList] at hm
  simpa [stringChars] using hm

theorem moreMembers_comma (h : Members t (b :: bs)) : MoreMembers (',' :: t) (b :: bs) := by
  cases h with
  | some h hs => exact .comma h hs

theorem members_compactMembers (b : String × Literal) (bs : List (String × Literal)) :
    Members (compactMembers (membersAsJson (b :: bs))) (b :: bs) := by
  induction bs generalizing b with
  | nil =>
    have hm := Members.some (member_compact b) .none
    simpa [membersAsJson, compactMembers] using hm
  | cons b' bs ih =>
    have hs := moreMembers_comma (ih b')
    have hm := Members.some (member_compact b) hs
    simpa [membersAsJson, compactMembers] using hm

theorem members_prettyMembers (level : Nat) (b : String × Literal) (bs : List (String × Literal))
    (h : Space l) : Members (prettyMembers level (membersAsJson (b :: bs)) ++ l) (b :: bs) := by
  induction bs generalizing b with
  | nil =>
    have hm := Members.some (member_pretty level b h) .none
    simpa [membersAsJson, prettyMembers] using hm
  | cons b' bs ih =>
    have hs := moreMembers_comma (ih b')
    have hm := Members.some (member_pretty level b space_nil) hs
    simpa [membersAsJson, prettyMembers] using hm

theorem denotes_compact (bs : List (String × Literal)) :
    Denotes (Json.object (membersAsJson bs)).compact bs := by
  cases bs with
  | nil =>
    exact ⟨[], [], [], space_nil, .none space_nil, space_nil,
      by simp [compact, membersAsJson, compactChars, compactMembers]⟩
  | cons b bs =>
    have hm := members_compactMembers b bs
    exact ⟨[], _, [], space_nil, hm, space_nil, by simp [compact, compactChars]⟩

theorem denotes_pretty (bs : List (String × Literal)) (h : Space l) :
    Denotes ((Json.object (membersAsJson bs)).pretty ++ String.ofList l) bs := by
  cases bs with
  | nil => exact ⟨[], [], l, space_nil, .none space_nil, h, by simp [pretty, membersAsJson, prettyChars]⟩
  | cons b bs =>
    have hm := members_prettyMembers 1 b bs (space_newline 0)
    exact ⟨[], _, l, space_nil, hm, h, by simp [pretty, membersAsJson, prettyChars]⟩

end Json.Grammar

end ListfileSettings
