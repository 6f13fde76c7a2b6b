import ListfileSettings.Assignment
import ListfileSettings.Proofs.Settings.Domain

/-!
# Assigned settings

What a list of assignments makes of a record: each key that is assigned has the value of its last
assignment. The first assignment that does not fit stops it all.
-/
namespace ListfileSettings

namespace Assignment

/-- The assignment is to a known key and of a literal in the key's domain. -/
def Fits (a : Assignment) : Prop :=
  ∃ (k : Key) (x : k.kind.Value), a.key = k.text ∧ k.kind.Takes a.value x

/-- How an assignment that does not fit fails. -/
inductive FailsAs (a : Assignment) : Failure → Prop
  | unknownKey (h : ∀ k : Key, a.key ≠ k.text) : FailsAs a (.unknownKey a.key (some a.line))
  | invalidValue {k : Key} {reason : String} (hk : a.key = k.text)
      (h : ∀ x, ¬ k.kind.Takes a.value x) :
      FailsAs a (.invalidValue a.key (reason ++ " (line " ++ Decimal.naturalText a.line ++ ")"))

/-- The literal of the last assignment to a key. -/
def last? (as : List Assignment) (key : String) : Option Literal :=
  (as.reverse.find? fun a => a.key = key).map (·.value)

theorem last?_cons {a : Assignment} {as : List Assignment} {key : String} :
    last? (a :: as) key = (last? as key).or (if a.key = key then some a.value else none) := by
  unfold last?
  rw [List.reverse_cons, List.find?_append, Option.map_or]
  by_cases h : a.key = key
  · simp [h]
  · simp [h]

theorem last?_eq_some {a : Assignment} {as : List Assignment} (ha : a ∈ as)
    (h : ∀ b ∈ as, b.key = a.key → b.value = a.value) : last? as a.key = some a.value := by
  unfold last?
  cases hf : as.reverse.find? fun b => b.key = a.key with
  | none => simpa using List.find?_eq_none.mp hf a (List.mem_reverse.mpr ha)
  | some b =>
    have hk : b.key = a.key := by simpa using List.find?_some hf
    exact congrArg some (h b (List.mem_reverse.mp (List.mem_of_find?_eq_some hf)) hk)

end Assignment

theorem Key.ofText?_eq_some_iff {s : String} {k : Key} : Key.ofText? s = some k ↔ k.text = s :=
  Named.ofName?_eq_some_iff

theorem Key.ofText?_text (k : Key) : Key.ofText? k.text = some k := Named.ofName?_name k

theorem Key.ofText?_eq_none_iff {s : String} : Key.ofText? s = none ↔ ∀ k : Key, s ≠ k.text := by
  rw [Option.eq_none_iff_forall_ne_some]
  exact forall_congr' fun k => not_congr (ofText?_eq_some_iff.trans eq_comm)

theorem Key.text_injective {k k' : Key} (h : k.text = k'.text) : k = k' :=
  Named.name_injective k k' h

namespace Settings

variable {r r' r'' : Settings} {as : List Assignment} {f : Failure}

/-! ### One assignment -/

theorem assign_eq_ok_iff {key : String} {v : Literal} {line : Option Nat} :
    r.assign key v line = .ok r' ↔
      ∃ (k : Key) (x : k.kind.Value), key = k.text ∧ k.kind.Takes v x ∧ r' = r.set k x := by
  constructor
  · intro h
    unfold assign at h
    split at h
    · cases h
    · next k hk =>
      split at h
      · next x hx =>
        exact ⟨k, x, (Key.ofText?_eq_some_iff.mp hk).symm, (Kind.ofLiteral_eq_ok_iff _).mp hx,
          (Except.ok.inj h).symm⟩
      · cases h
  · intro h
    obtain ⟨k, x, rfl, hx, rfl⟩ := h
    unfold assign
    rw [Key.ofText?_text]
    simp only [(Kind.ofLiteral_eq_ok_iff _).mpr hx]

theorem failsAs_of_assign {a : Assignment} (h : r.assign a.key a.value (some a.line) = .error f) :
    a.FailsAs f := by
  unfold assign at h
  split at h
  · next hk =>
    obtain rfl := Except.error.inj h
    exact .unknownKey (Key.ofText?_eq_none_iff.mp hk)
  · next k hk =>
    split at h
    · cases h
    · next u hu =>
      obtain rfl := Except.error.inj h
      refine .invalidValue (Key.ofText?_eq_some_iff.mp hk).symm fun x hx => ?_
      rw [(Kind.ofLiteral_eq_ok_iff _).mpr hx] at hu
      cases hu

/-! ### All assignments -/

def assignAll (r : Settings) (as : List Assignment) : Except Failure Settings :=
  as.foldlM (fun r a => r.assign a.key a.value (some a.line)) r

/-- `r'` is `r` with the last values that are assigned. -/
def Merges (r : Settings) (as : List Assignment) (r' : Settings) : Prop :=
  ∀ k : Key, match Assignment.last? as k.text with
    | some v => k.kind.Takes v (r'.get k)
    | none => r'.get k = r.get k

theorem merges_nil : Merges r [] r := fun _ => rfl

theorem merges_cons {a : Assignment} {k : Key} {x : k.kind.Value} (hk : a.key = k.text)
    (hx : k.kind.Takes a.value x) (h : Merges (r.set k x) as r') : Merges r (a :: as) r' := by
  intro k'
  have h := h k'
  rw [Assignment.last?_cons]
  cases hl : Assignment.last? as k'.text with
  | some v => simpa [hl] using h
  | none =>
    rw [hl] at h
    by_cases hn : k' = k
    · subst hn
      simpa [hk, h] using hx
    · have ht : a.key ≠ k'.text := fun he => hn (Key.text_injective (he.symm.trans hk))
      simpa [ht, get_set_of_ne r x hn] using h

theorem merges_unique (h : Merges r as r') (h' : Merges r as r'') : r' = r'' := by
  refine ext_get fun k => ?_
  have h := h k
  have h' := h' k
  cases hl : Assignment.last? as k.text with
  | some v =>
    rw [hl] at h h'
    exact Kind.takes_unique h h'
  | none =>
    rw [hl] at h h'
    exact h.trans h'.symm

theorem assignAll_cons {a : Assignment} : r.assignAll (a :: as) =
    r.assign a.key a.value (some a.line) >>= fun r => r.assignAll as := by
  simp [assignAll]

theorem merges_of_assignAll (h : r.assignAll as = .ok r') :
    (∀ a ∈ as, a.Fits) ∧ Merges r as r' := by
  induction as generalizing r with
  | nil =>
    obtain rfl : r = r' := Except.ok.inj h
    exact ⟨by simp, merges_nil⟩
  | cons a as ih =>
    rw [assignAll_cons, bind_eq_ok] at h
    obtain ⟨r₁, ha, h⟩ := h
    obtain ⟨k, x, hk, hx, rfl⟩ := assign_eq_ok_iff.mp ha
    obtain ⟨hf, hm⟩ := ih h
    exact ⟨List.forall_mem_cons.mpr ⟨⟨k, x, hk, hx⟩, hf⟩, merges_cons hk hx hm⟩

theorem failsAs_of_assignAll (h : r.assignAll as = .error f) :
    ∃ as₁ a as₂, as = as₁ ++ a :: as₂ ∧ (∀ b ∈ as₁, b.Fits) ∧ a.FailsAs f := by
  induction as generalizing r with
  | nil => cases h
  | cons a as ih =>
    rw [assignAll_cons] at h
    cases ha : r.assign a.key a.value (some a.line) with
    | error e =>
      rw [ha] at h
      obtain rfl := Except.error.inj h
      exact ⟨[], a, as, rfl, by simp, failsAs_of_assign ha⟩
    | ok r₁ =>
      rw [ha] at h
      obtain ⟨k, x, hk, hx, -⟩ := assign_eq_ok_iff.mp ha
      obtain ⟨as₁, b, as₂, rfl, hf, hb⟩ := ih h
      exact ⟨a :: as₁, b, as₂, rfl, List.forall_mem_cons.mpr ⟨⟨k, x, hk, hx⟩, hf⟩, hb⟩

theorem not_fits_of_failsAs {a : Assignment} (h : a.FailsAs f) : ¬ a.Fits := by
  intro hf
  obtain ⟨k, x, hk, hx⟩ := hf
  cases h with
  | unknownKey h => exact h k hk
  | invalidValue hk' h =>
    obtain rfl := Key.text_injective (hk.symm.trans hk')
    exact h x hx

/-- Assignments that fit all succeed and leave each key with its last value. -/
theorem assignAll_eq_ok_iff : r.assignAll as = .ok r' ↔ (∀ a ∈ as, a.Fits) ∧ Merges r as r' := by
  constructor
  · exact merges_of_assignAll
  · intro h
    obtain ⟨hf, hm⟩ := h
    cases ha : r.assignAll as with
    | error f =>
      obtain ⟨as₁, a, as₂, rfl, -, hfa⟩ := failsAs_of_assignAll ha
      exact absurd (hf a (by simp)) (not_fits_of_failsAs hfa)
    | ok r₁ =>
      have hm₁ : Merges r as r₁ := (merges_of_assignAll ha).2
      rw [merges_unique hm₁ hm]

/-! ### Checks on the whole record -/

theorem admits_iff : (∀ k : Key, k.kind.Admits (r.get k)) ↔ r.lineWidth ≠ 0 ∧ r.tabSize ≠ 0 := by
  constructor
  · exact fun h => ⟨h .lineWidth, h .tabSize⟩
  · intro h k
    obtain ⟨hw, ht⟩ := h
    cases k
    case lineWidth => exact hw
    case tabSize => exact ht
    all_goals trivial

theorem admits_default (k : Key) : k.kind.Admits (({} : Settings).get k) := by
  revert k
  rw [admits_iff]
  decide

theorem admits_of_merges (hr : ∀ k : Key, k.kind.Admits (r.get k)) (h : Merges r as r')
    (k : Key) : k.kind.Admits (r'.get k) := by
  have h := h k
  cases hl : Assignment.last? as k.text with
  | some v =>
    rw [hl] at h
    exact Kind.admits_of_takes h
  | none =>
    rw [hl] at h
    rw [h]
    exact hr k

theorem validate_eq_ok_iff : r.validate = .ok () ↔
    r.lineWidth ≠ 0 ∧ r.tabSize ≠ 0 ∧ r.minPrefixChars ≤ r.maxPrefixChars := by
  unfold validate flaw?
  by_cases hw : r.lineWidth = 0
  · simp [hw]
  · by_cases ht : r.tabSize = 0
    · simp [hw, ht]
    · by_cases hp : r.maxPrefixChars < r.minPrefixChars
      · simp [hw, ht, hp]
      · simp [hw, ht, hp, UInt32.not_lt.mp hp]

theorem exists_key_of_validate (h : r.validate = .error f) :
    ∃ (k : Key) (reason : String), f = .invalidValue k.text reason := by
  unfold validate flaw? at h
  by_cases hw : r.lineWidth = 0
  · rw [if_pos hw] at h
    exact ⟨_, _, (Except.error.inj h).symm⟩
  · rw [if_neg hw] at h
    by_cases ht : r.tabSize = 0
    · rw [if_pos ht] at h
      exact ⟨_, _, (Except.error.inj h).symm⟩
    · rw [if_neg ht] at h
      by_cases hp : r.maxPrefixChars < r.minPrefixChars
      · rw [if_pos hp] at h
        exact ⟨_, _, (Except.error.inj h).symm⟩
      · rw [if_neg hp] at h
        cases h

theorem prefix_of_validate (hw : r.lineWidth ≠ 0) (ht : r.tabSize ≠ 0)
    (h : r.validate = .error f) : r.maxPrefixChars < r.minPrefixChars ∧
      ∃ reason, f = .invalidValue Key.maxPrefixChars.text reason := by
  unfold validate flaw? at h
  rw [if_neg hw, if_neg ht] at h
  split at h
  · next f' hf =>
    obtain rfl := Except.error.inj h
    split at hf
    · next hp => exact ⟨hp, _, (Option.some.inj hf).symm⟩
    · cases hf
  · cases h

end Settings

end ListfileSettings
