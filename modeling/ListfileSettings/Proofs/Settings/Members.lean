import ListfileSettings.Proofs.Json.Canonical
import ListfileSettings.Proofs.Json.Typed
import ListfileSettings.Proofs.Settings.Assigned
import ListfileSettings.Settings.Reader

/-!
# Records from members

A record that is made of the members of an object, one after the other. Members of different names
can be taken in any order, so reading a record in one pass and going through the sorted members of
a value come to the same.
-/
namespace ListfileSettings

open Json

/-! ### Values of a kind -/

namespace Kind

variable {v : Json} {d : Nat}

theorem ofJson_canonical_iff (h : v.NoRepeats) (k : Kind) {x : k.Value} :
    k.ofJson v.canonical = .ok x ↔ k.ofJson v = .ok x := by
  cases k with
  | positive => simp only [ofJson, toWord_eq_ok_iff, canonical_eq_integer_iff]
  | count => simp only [ofJson, toWord_eq_ok_iff, canonical_eq_integer_iff]
  | flag => simp only [ofJson, toFlag_eq_ok_iff, canonical_eq_boolean_iff]
  | caseStyle =>
    simp only [ofJson, toChoice_eq_ok_iff, canonical_eq_string_iff, canonical_eq_single_iff h]
  | lineEnding =>
    simp only [ofJson, toChoice_eq_ok_iff, canonical_eq_string_iff, canonical_eq_single_iff h]
  | names => simp only [ofJson, toTexts_eq_ok_iff, canonical_eq_texts_iff]

theorem decodes_readKind (k : Kind) : Decodes (Settings.readKind k) (value (d + 1)) k.ofJson := by
  cases k with
  | positive => exact decodes_typedWord (d + 1)
  | count => exact decodes_typedWord (d + 1)
  | flag => exact decodes_typedFlag (d + 1)
  | caseStyle => exact decodes_typedChoice d
  | lineEnding => exact decodes_typedChoice d
  | names => exact decodes_typedTexts d

end Kind

namespace Settings

variable {r r' : Settings} {ms ms' : List (String × Json)}

/-! ### Members in order -/

/-- `r'` is `r` with the values of members for their keys, set in the order of the members. -/
inductive Puts : Settings → List (String × Json) → Settings → Prop
  | nil {r : Settings} : Puts r [] r
  | cons {r r' : Settings} {k : Key} {x : k.kind.Value} {v : Json} {ms : List (String × Json)}
      (hx : k.kind.ofJson v = .ok x) (h : Puts (r.set k x) ms r') : Puts r ((k.text, v) :: ms) r'

theorem set_comm {k k' : Key} (h : k ≠ k') (x : k.kind.Value) (x' : k'.kind.Value) :
    (r.set k x).set k' x' = (r.set k' x').set k x := by
  refine ext_get fun j => ?_
  by_cases hk : j = k
  · subst hk
    rw [get_set_of_ne _ x' h, get_set, get_set]
  · rw [get_set_of_ne (r.set k' x') x hk]
    by_cases hk' : j = k'
    · subst hk'
      rw [get_set, get_set]
    · rw [get_set_of_ne _ x' hk', get_set_of_ne r x hk, get_set_of_ne r x' hk']

theorem puts_of_perm (hp : ms.Perm ms') (hd : (ms.map (·.1)).Nodup) (h : Puts r ms r') :
    Puts r ms' r' := by
  induction hp generalizing r with
  | nil => exact h
  | cons m hp ih =>
    cases h with
    | cons hx h => exact .cons hx (ih (List.nodup_cons.mp hd).2 h)
  | swap m n ms =>
    cases h with
    | @cons _ _ k x _ _ hx h =>
      cases h with
      | @cons _ _ k' x' _ _ hx' h =>
        have hk : k ≠ k' := by
          intro hk
          subst hk
          exact (List.nodup_cons.mp hd).1 (by simp)
        refine .cons hx' (.cons hx ?_)
        rwa [set_comm hk.symm]
  | trans hp₁ hp₂ ih₁ ih₂ => exact ih₂ ((hp₁.map (·.1)).nodup_iff.mp hd) (ih₁ hd h)

theorem puts_canonicalMembers_iff (hn : NoRepeatsMembers ms) :
    Puts r (canonicalMembers ms) r' ↔ Puts r ms r' := by
  induction ms generalizing r with
  | nil => rfl
  | cons m ms ih =>
    obtain ⟨name, v⟩ := m
    obtain ⟨hv, hn⟩ := hn
    constructor
    · intro h
      cases h with
      | cons hx h => exact .cons ((Kind.ofJson_canonical_iff hv _).mp hx) ((ih hn).mp h)
    · intro h
      cases h with
      | cons hx h => exact .cons ((Kind.ofJson_canonical_iff hv _).mpr hx) ((ih hn).mpr h)

theorem puts_sortMembers_iff (hn : (Json.object ms).NoRepeats) :
    Puts r (sortMembers (canonicalMembers ms)) r' ↔ Puts r ms r' := by
  obtain ⟨hd, hn⟩ := hn
  have hc : ((canonicalMembers ms).map (·.1)).Nodup := by
    rwa [names_canonicalMembers]
  have hp := sortMembers_perm hc
  rw [← puts_canonicalMembers_iff hn]
  constructor
  · intro h
    exact puts_of_perm hp ((hp.map (·.1)).nodup_iff.mpr hc) h
  · intro h
    exact puts_of_perm hp.symm hc h

/-! ### Reading in one pass -/

section Reading

variable {s s' : List Char} {d n : Nat} {isFirst : Bool} {p p' : Partial}

theorem nameFault_ne_ok {α : Type} {m : Mismatch} {a : α × List Char} : nameFault m s ≠ .ok a := by
  unfold nameFault mismatched
  split <;> simp

theorem readMember_eq_ok_iff {name : String} : readMember p name s = .ok (p', s') ↔
    ∃ (k : Key) (x : k.kind.Value) (s₁ : List Char), name = k.text ∧ k ∉ p.seen ∧
      colon s = .ok s₁ ∧ readKind k.kind s₁ = .ok (x, s') ∧
      p' = ⟨p.settings.set k x, k :: p.seen⟩ := by
  constructor
  · intro h
    unfold readMember at h
    split at h
    · exact absurd h nameFault_ne_ok
    · next k hk =>
      split at h
      · exact absurd h nameFault_ne_ok
      · next hs =>
        obtain ⟨s₁, hc, h₁⟩ := bind_eq_ok.mp h
        obtain ⟨⟨x, s₂⟩, hx, h₂⟩ := bind_eq_ok.mp h₁
        cases h₂
        exact ⟨k, x, s₁, (Key.ofText?_eq_some_iff.mp hk).symm, hs, hc, hx, rfl⟩
  · intro h
    obtain ⟨k, x, s₁, rfl, hs, hc, hx, rfl⟩ := h
    unfold readMember
    rw [Key.ofText?_text]
    simp only [hs, if_false]
    exact bind_eq_ok.mpr ⟨s₁, hc, bind_eq_ok.mpr ⟨(x, s'), hx, rfl⟩⟩

theorem readMembers_eq_ok_iff :
    foldMembers readMember (n + 1) isFirst p s = .ok (p', s') ↔
      nextMember isFirst s = .ok (.done s') ∧ p' = p ∨
      ∃ (k : Key) (x : k.kind.Value) (s₁ s₂ s₃ s₄ : List Char),
        nextMember isFirst s = .ok (.item s₁) ∧ stringAfterQuote s₁ = .ok (k.text, s₂) ∧
        k ∉ p.seen ∧ colon s₂ = .ok s₃ ∧ readKind k.kind s₃ = .ok (x, s₄) ∧
        foldMembers readMember n false ⟨p.settings.set k x, k :: p.seen⟩ s₄ = .ok (p', s') := by
  rw [foldMembers_eq_ok_iff]
  refine or_congr_right ⟨fun h => ?_, fun h => ?_⟩
  · obtain ⟨s₁, name, s₂, q, s₄, hn, hs, hm, h⟩ := h
    obtain ⟨k, x, s₃, rfl, hk, hc, hx, rfl⟩ := readMember_eq_ok_iff.mp hm
    exact ⟨k, x, s₁, s₂, s₃, s₄, hn, hs, hk, hc, hx, h⟩
  · obtain ⟨k, x, s₁, s₂, s₃, s₄, hn, hs, hk, hc, hx, h⟩ := h
    have hm := readMember_eq_ok_iff.mpr ⟨k, x, s₃, rfl, hk, hc, hx, rfl⟩
    exact ⟨s₁, k.text, s₂, _, s₄, hn, hs, hm, h⟩

/-- Members that are given neither twice nor for a key that has been seen. -/
def Fresh (seen : List Key) (ms : List (String × Json)) : Prop :=
  (ms.map (·.1)).Nodup ∧ ∀ k ∈ seen, k.text ∉ ms.map (·.1)

theorem fresh_cons_iff {seen : List Key} {k : Key} {v : Json} :
    Fresh seen ((k.text, v) :: ms) ↔ k ∉ seen ∧ Fresh (k :: seen) ms := by
  unfold Fresh
  rw [List.map_cons, List.nodup_cons, List.forall_mem_cons]
  constructor
  · intro h
    obtain ⟨⟨hk, hd⟩, hs⟩ := h
    exact ⟨fun hm => hs k hm (by simp), hd, hk,
      fun j hj hm => hs j hj (List.mem_cons_of_mem _ hm)⟩
  · intro h
    obtain ⟨hn, hd, hk, hs⟩ := h
    refine ⟨⟨hk, hd⟩, fun j hj hm => ?_⟩
    rcases List.mem_cons.mp hm with he | hm
    · obtain rfl := Key.text_injective he
      exact hn hj
    · exact hs j hj hm

/-- One pass over the members of an object takes those that the raw reader finds, if none is there
twice. -/
theorem foldMembers_readMember_iff {seen : List Key} :
    (∃ seen', foldMembers readMember n isFirst ⟨r, seen⟩ s = .ok (⟨r', seen'⟩, s')) ↔
      ∃ ms, foldMembers (pushMember (value (d + 1))) n isFirst [] s = .ok (ms, s') ∧
        Fresh seen ms ∧ Puts r ms r' := by
  induction n generalizing isFirst r seen s with
  | zero => simp [foldMembers]
  | succ n ih =>
    simp only [readMembers_eq_ok_iff, members_eq_ok_iff]
    constructor
    · intro h
      obtain ⟨seen', ⟨hn, he⟩ | ⟨k, x, s₁, s₂, s₃, s₄, hn, hs, hk, hc, hx, h⟩⟩ := h
      · cases he
        exact ⟨[], .inl ⟨hn, rfl⟩, ⟨by simp, by simp⟩, .nil⟩
      · obtain ⟨ms, hr, hf, hp⟩ := ih.mp ⟨seen', h⟩
        obtain ⟨v, hv, hd⟩ := (Kind.decodes_readKind k.kind s₃ s₄ x).mp hx
        have hf : Fresh seen ((k.text, v) :: ms) := fresh_cons_iff.mpr ⟨hk, hf⟩
        exact ⟨_, .inr ⟨s₁, k.text, s₂, s₃, v, s₄, ms, hn, hs, hc, hv, hr, rfl⟩, hf, .cons hd hp⟩
    · intro h
      obtain ⟨_, ⟨hn, rfl⟩ | ⟨s₁, name, s₂, s₃, v, s₄, ms, hn, hs, hc, hv, hr, rfl⟩, hf, hp⟩ := h
      · cases hp
        exact ⟨seen, .inl ⟨hn, rfl⟩⟩
      · cases hp with
        | @cons _ _ k x _ _ hd hp =>
          obtain ⟨hk, hf⟩ := fresh_cons_iff.mp hf
          obtain ⟨seen', h⟩ := ih.mpr ⟨ms, hr, hf, hp⟩
          have hx := (Kind.decodes_readKind k.kind s₃ s₄ x).mpr ⟨v, hv, hd⟩
          exact ⟨seen', .inr ⟨k, x, s₁, s₂, s₃, s₄, hn, hs, hk, hc, hx, h⟩⟩

end Reading

end Settings

end ListfileSettings
