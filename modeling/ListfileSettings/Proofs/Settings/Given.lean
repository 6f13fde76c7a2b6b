import ListfileSettings.Override
import ListfileSettings.Proofs.Settings.Assigned

/-!
# What sources give

Each kind of source gives values for names in a form of its own. Whatever the form, a record takes
what is given one setting after the other; in the end each key has the value that it is given last.
-/
namespace ListfileSettings

/-- The JSON values that a kind takes, with the values they denote. A zero is taken everywhere. -/
inductive Kind.TakesJson : (k : Kind) → Json → k.Value → Prop
  | positive (n : UInt32) : TakesJson .positive (.integer n.toNat) n
  | count (n : UInt32) : TakesJson .count (.integer n.toNat) n
  | flag (b : Bool) : TakesJson .flag (.boolean b) b
  | caseStyle {v : Json} (c : CaseStyle)
      (h : v = .string (Named.name c) ∨ v = .object [(Named.name c, .null)]) :
      TakesJson .caseStyle v c
  | lineEnding {v : Json} (e : LineEnding)
      (h : v = .string (Named.name e) ∨ v = .object [(Named.name e, .null)]) :
      TakesJson .lineEnding v e
  | names (texts : List String) : TakesJson .names (.array (texts.map .string)) texts

/-- What is given for a name: a literal, a JSON value or the text of a variable. -/
inductive Given where
  | literal (v : Literal)
  | json (v : Json)
  | text (s : String)

/-- What is given denotes a value of the kind. -/
def Given.Denotes : Given → (k : Kind) → k.Value → Prop
  | .literal v, k, x => k.Takes v x
  | .json v, k, x => k.TakesJson v x
  | .text s, k, x => ∃ v, Override.literal? k s = some v ∧ k.Takes v x

/-- A name with what is given for it. -/
abbrev Setting := String × Given

/-- A setting is of a key and denotes a value, or it may be left out. -/
def UnknownKeys.Accepts (policy : UnknownKeys) (e : Setting) : Prop :=
  (∃ (k : Key) (x : k.kind.Value), e.1 = k.text ∧ e.2.Denotes k.kind x) ∨
    policy = .warn ∧ ∀ k : Key, e.1 ≠ k.text

namespace Kind

theorem ofJson_eq_ok_iff (k : Kind) {v : Json} {x : k.Value} :
    k.ofJson v = .ok x ↔ k.TakesJson v x := by
  cases k with
  | positive =>
    rw [ofJson, Json.toWord_eq_ok_iff]
    constructor
    · intro h
      subst h
      exact .positive x
    · intro h
      cases h
      rfl
  | count =>
    rw [ofJson, Json.toWord_eq_ok_iff]
    constructor
    · intro h
      subst h
      exact .count x
    · intro h
      cases h
      rfl
  | flag =>
    rw [ofJson, Json.toFlag_eq_ok_iff]
    constructor
    · intro h
      subst h
      exact .flag x
    · intro h
      cases h
      rfl
  | caseStyle =>
    rw [ofJson, Json.toChoice_eq_ok_iff]
    constructor
    · exact .caseStyle x
    · intro h
      cases h with
      | caseStyle _ h => exact h
  | lineEnding =>
    rw [ofJson, Json.toChoice_eq_ok_iff]
    constructor
    · exact .lineEnding x
    · intro h
      cases h with
      | lineEnding _ h => exact h
  | names =>
    rw [ofJson, Json.toTexts_eq_ok_iff]
    constructor
    · intro h
      subst h
      exact .names x
    · intro h
      cases h
      rfl

end Kind

theorem Given.denotes_unique {g : Given} {k : Kind} {x y : k.Value} (hx : g.Denotes k x)
    (hy : g.Denotes k y) : x = y := by
  cases g with
  | literal v => exact Kind.takes_unique hx hy
  | json v =>
    have hx := (k.ofJson_eq_ok_iff).mpr hx
    have hy := (k.ofJson_eq_ok_iff).mpr hy
    exact Except.ok.inj (hx.symm.trans hy)
  | text s =>
    obtain ⟨v, hv, hx⟩ := hx
    obtain ⟨u, hu, hy⟩ := hy
    obtain rfl := Option.some.inj (hv.symm.trans hu)
    exact Kind.takes_unique hx hy

namespace Settings

variable {policy : UnknownKeys} {r r' r'' : Settings} {e : Setting} {es es' : List Setting}

/-! ### Settings one after the other -/

/-- `r'` is `r` after one setting. -/
inductive Step (policy : UnknownKeys) (r : Settings) : Setting → Settings → Prop
  | known {k : Key} {g : Given} {x : k.kind.Value} (hx : g.Denotes k.kind x) :
      Step policy r (k.text, g) (r.set k x)
  | unknown {e : Setting} (hp : policy = .warn) (hn : ∀ k : Key, e.1 ≠ k.text) : Step policy r e r

/-- `r'` is `r` after settings that come one after the other. -/
inductive Steps (policy : UnknownKeys) : Settings → List Setting → Settings → Prop
  | nil {r : Settings} : Steps policy r [] r
  | cons {r r₁ r' : Settings} {e : Setting} {es : List Setting} (h : Step policy r e r₁)
      (hs : Steps policy r₁ es r') : Steps policy r (e :: es) r'

theorem steps_nil_iff : Steps policy r [] r' ↔ r' = r := by
  constructor
  · intro h
    cases h
    rfl
  · intro h
    subst h
    exact .nil

theorem steps_cons_iff :
    Steps policy r (e :: es) r' ↔ ∃ r₁, Step policy r e r₁ ∧ Steps policy r₁ es r' := by
  constructor
  · intro h
    cases h
    exact ⟨_, ‹_›, ‹_›⟩
  · intro h
    obtain ⟨r₁, h, hs⟩ := h
    exact .cons h hs

/-- What a setting has done it does not do again. -/
theorem Step.again (h : Step policy r e r') : Step policy r' e r' := by
  cases h with
  | @known k g x hx =>
    have hs : Step policy (r.set k x) (k.text, g) ((r.set k x).set k x) := .known hx
    rwa [set_set] at hs
  | unknown hp hn => exact .unknown hp hn

theorem step_key_iff {k : Key} {g : Given} :
    Step policy r (k.text, g) r' ↔ ∃ x, g.Denotes k.kind x ∧ r' = r.set k x := by
  constructor
  · intro h
    generalize he : (k.text, g) = e at h
    cases h with
    | known hx =>
      obtain ⟨hk, rfl⟩ := Prod.mk.inj he
      obtain rfl := Key.text_injective hk
      exact ⟨_, hx, rfl⟩
    | unknown hp hn =>
      subst he
      exact absurd rfl (hn k)
  · intro h
    obtain ⟨x, hx, rfl⟩ := h
    exact .known hx

theorem accepts_of_step (h : Step policy r e r') : policy.Accepts e := by
  cases h with
  | known hx => exact .inl ⟨_, _, rfl, hx⟩
  | unknown hp hn => exact .inr ⟨hp, hn⟩

theorem exists_step (h : policy.Accepts e) : ∃ r', Step policy r e r' := by
  obtain ⟨k, x, hk, hx⟩ | ⟨hp, hn⟩ := h
  · obtain ⟨name, g⟩ := e
    subst hk
    exact ⟨r.set k x, .known hx⟩
  · exact ⟨r, .unknown hp hn⟩

/-! ### The last setting of each key -/

theorem lookup_reverse_eq_none_iff {name : String} :
    es.reverse.lookup name = none ↔ ∀ e ∈ es, e.1 ≠ name := by
  rw [List.lookup_eq_none_iff]
  constructor
  · intro h e he hne
    have hb := h e (List.mem_reverse.mpr he)
    simp [hne] at hb
  · intro h e he
    have hne := h e (List.mem_reverse.mp he)
    simp [hne.symm]

theorem lookup_reverse_eq_some_iff {name : String} {g : Given} :
    es.reverse.lookup name = some g ↔
      ∃ es₁ es₂, es = es₁ ++ (name, g) :: es₂ ∧ ∀ e ∈ es₂, e.1 ≠ name := by
  rw [List.lookup_eq_some_iff]
  constructor
  · intro h
    obtain ⟨l₁, l₂, hl, hn⟩ := h
    refine ⟨l₂.reverse, l₁.reverse, ?_, fun e he hne => ?_⟩
    · rw [← List.reverse_inj, hl]
      simp
    · have hb := hn e (List.mem_reverse.mp he)
      simp [hne] at hb
  · intro h
    obtain ⟨es₁, es₂, rfl, hn⟩ := h
    refine ⟨es₂.reverse, es₁.reverse, by simp, fun e he => ?_⟩
    have hne := hn e (List.mem_reverse.mp he)
    simp [hne.symm]

/-- `r'` is `r` with the values that are given last. -/
def Updates (r : Settings) (es : List Setting) (r' : Settings) : Prop :=
  ∀ k : Key, match es.reverse.lookup k.text with
    | some g => g.Denotes k.kind (r'.get k)
    | none => r'.get k = r.get k

theorem updates_nil : Updates r [] r := fun _ => rfl

theorem Updates.append (h : Updates r es r') (hs : Updates r' es' r'') :
    Updates r (es ++ es') r'' := by
  intro k
  have h := h k
  have hs := hs k
  rw [List.reverse_append, List.lookup_append]
  cases hl : es'.reverse.lookup k.text with
  | some g => simpa [hl] using hs
  | none =>
    rw [hl] at hs
    simp only [Option.none_or]
    cases hf : es.reverse.lookup k.text with
    | some g =>
      rw [hf] at h
      simpa [hs] using h
    | none =>
      rw [hf] at h
      simpa [hs] using h

theorem updates_of_step (h : Step policy r e r') : Updates r [e] r' := by
  intro k'
  cases h with
  | @known k g x hx =>
    by_cases hk : k' = k
    · subst hk
      simpa [List.lookup_cons] using hx
    · have ht : k'.text ≠ k.text := fun h => hk (Key.text_injective h)
      simpa [List.lookup_cons, beq_false_of_ne ht] using get_set_of_ne r x hk
  | unknown hp hn =>
    obtain ⟨name, g⟩ := e
    have ht : k'.text ≠ name := fun h => hn k' h.symm
    simp [List.lookup_cons, beq_false_of_ne ht]

theorem updates_unique (h : Updates r es r') (h' : Updates r es r'') : r' = r'' := by
  refine ext_get fun k => ?_
  have h := h k
  have h' := h' k
  cases hl : es.reverse.lookup k.text with
  | some g =>
    rw [hl] at h h'
    exact Given.denotes_unique h h'
  | none =>
    rw [hl] at h h'
    exact h.trans h'.symm

theorem of_steps (h : Steps policy r es r') : (∀ e ∈ es, policy.Accepts e) ∧ Updates r es r' := by
  induction h with
  | nil => exact ⟨by simp, updates_nil⟩
  | cons h _ ih =>
    obtain ⟨ha, hu⟩ := ih
    exact ⟨List.forall_mem_cons.mpr ⟨accepts_of_step h, ha⟩, (updates_of_step h).append hu⟩

theorem exists_steps (h : ∀ e ∈ es, policy.Accepts e) : ∃ r', Steps policy r es r' := by
  induction es generalizing r with
  | nil => exact ⟨r, .nil⟩
  | cons e es ih =>
    obtain ⟨he, hs⟩ := List.forall_mem_cons.mp h
    obtain ⟨r₁, h₁⟩ := exists_step (r := r) he
    obtain ⟨r', h'⟩ := ih (r := r₁) hs
    exact ⟨r', .cons h₁ h'⟩

/-- Settings that are all accepted leave each key with the value that it is given last. -/
theorem steps_iff : Steps policy r es r' ↔ (∀ e ∈ es, policy.Accepts e) ∧ Updates r es r' := by
  constructor
  · exact of_steps
  · intro h
    obtain ⟨ha, hu⟩ := h
    obtain ⟨r₁, hs⟩ := exists_steps (r := r) ha
    rw [updates_unique hu (of_steps hs).2]
    exact hs

end Settings

end ListfileSettings
