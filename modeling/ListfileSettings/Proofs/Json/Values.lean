import ListfileSettings.Json.Reader
import ListfileSettings.Proofs.Except

/-!
# Which values are read

The first character of a value decides what is read: a list, an object, a string or one of the
rest. For each of them, when reading it ends well.
-/
namespace ListfileSettings.Json

variable {s s' t : List Char} {v : Json} {d n : Nat} {isFirst : Bool}

/-! ### Numbers -/

def IsNumber : Json → Prop
  | .integer _ | .float _ => True
  | _ => False

theorem isNumber_of_finishFloat {isNegative : Bool} {m : Nat} {e : Int}
    (h : finishFloat isNegative m e s = .ok (v, s')) : v.IsNumber := by
  unfold finishFloat at h
  split at h
  · cases h
    trivial
  · cases h

theorem isNumber_of_exponentAfterSign {isNegative isMinus : Bool} {m : Nat} {e : Int}
    (h : exponentAfterSign isNegative m e isMinus s = .ok (v, s')) : v.IsNumber := by
  unfold exponentAfterSign at h
  split at h
  · cases h
  · split at h
    · cases h
    · split at h
      · exact isNumber_of_finishFloat h
      · split at h
        · cases h
        · cases h
          trivial

theorem isNumber_of_exponentPart {isNegative : Bool} {m : Nat} {e : Int}
    (h : exponentPart isNegative m e s = .ok (v, s')) : v.IsNumber := by
  unfold exponentPart at h
  split at h
  all_goals exact isNumber_of_exponentAfterSign h

theorem isNumber_of_fractionPart {isNegative : Bool} {ds : Digits}
    (h : fractionPart isNegative ds s = .ok (v, s')) : v.IsNumber := by
  unfold fractionPart at h
  simp only at h
  split at h
  · cases h
  · unfold floatEnd at h
    split at h
    · exact isNumber_of_exponentPart h
    · exact isNumber_of_exponentPart h
    · exact isNumber_of_finishFloat h

theorem isNumber_of_wholeNumber {isNegative : Bool} {ds : Digits}
    (h : wholeNumber isNegative ds s = .ok (v, s')) : v.IsNumber := by
  unfold wholeNumber at h
  split at h
  · exact isNumber_of_finishFloat h
  · split at h
    · cases h
      trivial
    · split at h
      · cases h
        trivial
      · cases h
        trivial

theorem isNumber_of_number {isNegative : Bool} (h : number isNegative s = .ok (v, s')) :
    v.IsNumber := by
  unfold number at h
  simp only at h
  split at h
  · split at h <;> cases h
  · cases h
  · split at h
    · exact isNumber_of_fractionPart h
    · exact isNumber_of_exponentPart h
    · exact isNumber_of_exponentPart h
    · exact isNumber_of_wholeNumber h

/-! ### Values by their first character -/

/-- A value that is neither a list nor an object nor a string. -/
def IsPlain : Json → Prop
  | .array _ | .object _ | .string _ => False
  | _ => True

theorem isPlain_of_isNumber (h : v.IsNumber) : v.IsPlain := by
  cases v <;> trivial

theorem scalar_quote (s : List Char) :
    scalar ('"' :: s) = (stringAfterQuote s).map fun (t, s) => (.string t, s) := rfl

theorem isPlain_of_word {cs : List Char} (hv : v.IsPlain) {r : Json × List Char}
    (h : (word cs s).map (v, ·) = .ok r) : r.1.IsPlain := by
  obtain ⟨u, -, rfl⟩ := map_eq_ok.mp h
  exact hv

theorem isPlain_of_scalar {c : Char} (hc : c ≠ '"') (h : scalar (c :: s) = .ok (v, s')) :
    v.IsPlain := by
  simp only [scalar, if_neg hc] at h
  split at h
  · exact isPlain_of_word (v := .null) trivial h
  · split at h
    · exact isPlain_of_word (v := .boolean true) trivial h
    · split at h
      · exact isPlain_of_word (v := .boolean false) trivial h
      · split at h
        · exact isPlain_of_isNumber (isNumber_of_number h)
        · split at h
          · exact isPlain_of_isNumber (isNumber_of_number h)
          · cases h

theorem value_scalar (hl : ∀ t, skipSpace s ≠ '[' :: t) (ho : ∀ t, skipSpace s ≠ '{' :: t) :
    value d s = scalar (skipSpace s) := by
  cases d with
  | zero =>
    unfold value
    split
    · next t h => exact absurd h (hl t)
    · next t h => exact absurd h (ho t)
    · rfl
  | succ d =>
    unfold value
    split
    · next t h => exact absurd h (hl t)
    · next t h => exact absurd h (ho t)
    · rfl

theorem value_list (h : skipSpace s = '[' :: t) : value (d + 1) s =
    (items (value d) (t.length + 1) true t).map fun (vs, s) => (.array vs, s) := by
  rw [value, h]
  rfl

theorem value_object (h : skipSpace s = '{' :: t) : value (d + 1) s =
    (foldMembers (pushMember (value d)) (t.length + 1) true [] t).map
      fun (ms, s) => (.object ms, s) := by
  rw [value, h]
  rfl

theorem array_of_value (h : skipSpace s = '[' :: t) (hv : value d s = .ok (v, s')) :
    ∃ vs, v = .array vs := by
  cases d with
  | zero =>
    rw [value, h] at hv
    cases hv
  | succ d =>
    rw [value_list h, map_eq_ok] at hv
    obtain ⟨r, -, hr⟩ := hv
    cases hr
    exact ⟨_, rfl⟩

theorem object_of_value (h : skipSpace s = '{' :: t) (hv : value d s = .ok (v, s')) :
    ∃ ms, v = .object ms := by
  cases d with
  | zero =>
    rw [value, h] at hv
    cases hv
  | succ d =>
    rw [value_object h, map_eq_ok] at hv
    obtain ⟨r, -, hr⟩ := hv
    cases hr
    exact ⟨_, rfl⟩

/-! ### Lists -/

section Items

variable {α : Type} {item : Reader α} {as : List α}

theorem items_eq_ok_iff : items item (n + 1) isFirst s = .ok (as, s') ↔
    nextItem isFirst s = .ok (.done s') ∧ as = [] ∨
    ∃ s₁ a s₂ as', nextItem isFirst s = .ok (.item s₁) ∧ item s₁ = .ok (a, s₂) ∧
      items item n false s₂ = .ok (as', s') ∧ as = a :: as' := by
  rw [items, bind_eq_ok]
  constructor
  · intro h
    obtain ⟨next, hn, h⟩ := h
    cases next with
    | done s₁ =>
      cases h
      exact .inl ⟨hn, rfl⟩
    | item s₁ =>
      obtain ⟨⟨a, s₂⟩, ha, h⟩ := bind_eq_ok.mp h
      obtain ⟨⟨as', s₃⟩, has, h⟩ := bind_eq_ok.mp h
      cases h
      exact .inr ⟨s₁, a, s₂, as', hn, ha, has, rfl⟩
  · intro h
    rcases h with ⟨hn, rfl⟩ | ⟨s₁, a, s₂, as', hn, ha, has, rfl⟩
    · exact ⟨_, hn, rfl⟩
    · refine ⟨_, hn, bind_eq_ok.mpr ⟨(a, s₂), ha, ?_⟩⟩
      exact bind_eq_ok.mpr ⟨(as', s'), has, rfl⟩

end Items

/-! ### Objects -/

section Members

variable {raw : Reader Json} {acc ms : List (String × Json)}

theorem pushMember_eq_ok_iff {name : String} : pushMember raw acc name s = .ok (ms, s') ↔
    ∃ s₁ v, colon s = .ok s₁ ∧ raw s₁ = .ok (v, s') ∧ ms = acc ++ [(name, v)] := by
  simp only [pushMember, bind_eq_ok]
  constructor
  · intro h
    obtain ⟨s₁, hc, ⟨v, s₂⟩, hv, h⟩ := h
    cases h
    exact ⟨s₁, v, hc, hv, rfl⟩
  · intro h
    obtain ⟨s₁, v, hc, hv, rfl⟩ := h
    exact ⟨s₁, hc, (v, s'), hv, rfl⟩

theorem foldMembers_eq_ok_iff {σ : Type} {member : σ → String → Reader σ} {a b : σ} :
    foldMembers member (n + 1) isFirst a s = .ok (b, s') ↔
      nextMember isFirst s = .ok (.done s') ∧ b = a ∨
      ∃ s₁ name s₂ c s₃, nextMember isFirst s = .ok (.item s₁) ∧
        stringAfterQuote s₁ = .ok (name, s₂) ∧ member a name s₂ = .ok (c, s₃) ∧
        foldMembers member n false c s₃ = .ok (b, s') := by
  rw [foldMembers, bind_eq_ok]
  constructor
  · intro h
    obtain ⟨next, hn, h⟩ := h
    cases next with
    | done s₁ =>
      cases h
      exact .inl ⟨hn, rfl⟩
    | item s₁ =>
      obtain ⟨⟨name, s₂⟩, hs, h⟩ := bind_eq_ok.mp h
      obtain ⟨⟨c, s₃⟩, hm, h⟩ := bind_eq_ok.mp h
      exact .inr ⟨s₁, name, s₂, c, s₃, hn, hs, hm, h⟩
  · intro h
    rcases h with ⟨hn, rfl⟩ | ⟨s₁, name, s₂, c, s₃, hn, hs, hm, h⟩
    · exact ⟨_, hn, rfl⟩
    · refine ⟨_, hn, bind_eq_ok.mpr ⟨(name, s₂), hs, ?_⟩⟩
      exact bind_eq_ok.mpr ⟨(c, s₃), hm, h⟩

theorem foldMembers_push_iff : foldMembers (pushMember raw) n isFirst acc s = .ok (ms, s') ↔
    ∃ ms', foldMembers (pushMember raw) n isFirst [] s = .ok (ms', s') ∧ ms = acc ++ ms' := by
  induction n generalizing isFirst acc ms s with
  | zero => simp [foldMembers]
  | succ n ih =>
    simp only [foldMembers_eq_ok_iff, pushMember_eq_ok_iff]
    constructor
    · intro h
      rcases h with ⟨hn, rfl⟩ | ⟨s₁, name, s₂, _, s₃, hn, hs, ⟨s₄, v, hc, hv, rfl⟩, h⟩
      · exact ⟨[], .inl ⟨hn, rfl⟩, by simp⟩
      · obtain ⟨ms', hr, rfl⟩ := ih.mp h
        have hm : foldMembers (pushMember raw) n false ([] ++ [(name, v)]) s₃ =
            .ok ((name, v) :: ms', s') := ih.mpr ⟨ms', hr, rfl⟩
        have he : acc ++ [(name, v)] ++ ms' = acc ++ (name, v) :: ms' := by simp
        exact ⟨(name, v) :: ms', .inr ⟨s₁, name, s₂, _, s₃, hn, hs, ⟨s₄, v, hc, hv, rfl⟩, hm⟩, he⟩
    · intro h
      obtain ⟨ms', h, rfl⟩ := h
      rcases h with ⟨hn, rfl⟩ | ⟨s₁, name, s₂, _, s₃, hn, hs, ⟨s₄, v, hc, hv, rfl⟩, h⟩
      · exact .inl ⟨hn, by simp⟩
      · obtain ⟨ms'', hr, rfl⟩ := ih.mp h
        have he : acc ++ ([] ++ [(name, v)] ++ ms'') = acc ++ [(name, v)] ++ ms'' := by simp
        have hm := ih.mpr ⟨ms'', hr, he⟩
        exact .inr ⟨s₁, name, s₂, _, s₃, hn, hs, ⟨s₄, v, hc, hv, rfl⟩, hm⟩

theorem members_eq_ok_iff : foldMembers (pushMember raw) (n + 1) isFirst [] s = .ok (ms, s') ↔
    nextMember isFirst s = .ok (.done s') ∧ ms = [] ∨
    ∃ s₁ name s₂ s₃ v s₄ ms', nextMember isFirst s = .ok (.item s₁) ∧
      stringAfterQuote s₁ = .ok (name, s₂) ∧ colon s₂ = .ok s₃ ∧ raw s₃ = .ok (v, s₄) ∧
      foldMembers (pushMember raw) n false [] s₄ = .ok (ms', s') ∧ ms = (name, v) :: ms' := by
  simp only [foldMembers_eq_ok_iff, pushMember_eq_ok_iff]
  refine or_congr_right ⟨fun h => ?_, fun h => ?_⟩
  · obtain ⟨s₁, name, s₂, _, s₄, hn, hs, ⟨s₃, v, hc, hv, rfl⟩, h⟩ := h
    obtain ⟨ms', hr, rfl⟩ := foldMembers_push_iff.mp h
    exact ⟨s₁, name, s₂, s₃, v, s₄, ms', hn, hs, hc, hv, hr, rfl⟩
  · obtain ⟨s₁, name, s₂, s₃, v, s₄, ms', hn, hs, hc, hv, h, rfl⟩ := h
    exact ⟨s₁, name, s₂, _, s₄, hn, hs, ⟨s₃, v, hc, hv, rfl⟩,
      foldMembers_push_iff.mpr ⟨ms', h, rfl⟩⟩

theorem nameStart_ne_done : nameStart s ≠ .ok (.done s') := by
  unfold nameStart
  split <;> simp

theorem nextMember_eq_done_iff : nextMember isFirst s = .ok (.done s') ↔ skipSpace s = '}' :: s' := by
  unfold nextMember
  cases skipSpace s with
  | nil => simp
  | cons c r =>
    by_cases hc : c = '}'
    · simp [hc]
    · simp only [hc, if_false, List.cons.injEq, false_and, iff_false]
      split
      · exact nameStart_ne_done
      · split
        · split
          · simp
          · split
            · simp
            · exact nameStart_ne_done
        · simp

end Members

end ListfileSettings.Json
