import ListfileSettings.Proofs.Draft.Items
import ListfileSettings.Proofs.Json.Canonical
import ListfileSettings.Proofs.Json.Numbers
import ListfileSettings.Proofs.Settings.Agreement
import ListfileSettings.Proofs.Settings.InPlace
import ListfileSettings.Proofs.Text.Utf8

/-!
# Accepted objects

Which objects a draft accepts, what they make of its record, and for which member it refuses the
others. Members are taken in the order of the octets of their names. The first one that is refused
decides, whatever the record was.
-/
namespace ListfileSettings

open Json Settings

/-- How a member fails that is refused: its name is no key and the policy is to reject such names, or
the kind of the key does not take its value, for the reason that decoding it gives. -/
inductive UnknownKeys.Refuses (policy : UnknownKeys) : String × Json → Failure → Prop
  | unknownKey {name : String} {v : Json} (hp : policy = .reject) (hn : ∀ k : Key, name ≠ k.text) :
      Refuses policy (name, v) (.unknownKey name none)
  | invalidValue {k : Key} {v : Json} {m : Mismatch} (hx : ∀ x, ¬ k.kind.TakesJson v x)
      (hm : k.kind.ofJson v = .error m) : Refuses policy (k.text, v) (.invalidValue k.text m.message)

namespace Kind

/-- No kind takes what is written with a sign, not even a zero. -/
theorem not_takesJson_of_minus {s s' : List Char} {v : Json} (h : scalar ('-' :: s) = .ok (v, s'))
    (k : Kind) (x : k.Value) : ¬ k.TakesJson v x := by
  intro hx
  rcases float_or_negative_of_minus h with ⟨y, rfl⟩ | ⟨n, hn, rfl⟩
  · cases hx with
    | caseStyle _ h => rcases h with h | h <;> cases h
    | lineEnding _ h => rcases h with h | h <;> cases h
  · cases hx with
    | positive => omega
    | count => omega
    | caseStyle _ h => rcases h with h | h <;> cases h
    | lineEnding _ h => rcases h with h | h <;> cases h

end Kind

namespace Settings

variable {policy : UnknownKeys} {r r' : Settings} {ms : List (String × Json)} {k : Key} {v : Json}
  {name : String} {f : Failure}

/-! ### Refused members -/

theorem refuses_unknown_iff (hn : ∀ k : Key, name ≠ k.text) :
    policy.Refuses (name, v) f ↔ policy = .reject ∧ f = .unknownKey name none := by
  constructor
  · intro h
    cases h with
    | unknownKey hp => exact ⟨hp, rfl⟩
    | invalidValue => exact absurd rfl (hn _)
  · intro h
    obtain ⟨hp, rfl⟩ := h
    exact .unknownKey hp hn

theorem refuses_key_iff : policy.Refuses (k.text, v) f ↔
    ∃ m, k.kind.ofJson v = .error m ∧ f = .invalidValue k.text m.message := by
  constructor
  · intro h
    generalize he : (k.text, v) = e at h
    cases h with
    | unknownKey hp hn =>
      obtain ⟨rfl, -⟩ := Prod.mk.inj he
      exact absurd rfl (hn k)
    | invalidValue _ hm =>
      obtain ⟨hk, rfl⟩ := Prod.mk.inj he
      obtain rfl := Key.text_injective hk
      exact ⟨_, hm, rfl⟩
  · intro h
    obtain ⟨m, hm, rfl⟩ := h
    refine .invalidValue (fun x hx => ?_) hm
    rw [(Kind.ofJson_eq_ok_iff _).mpr hx] at hm
    cases hm

/-! ### Sorted members as settings -/

/-- `r'` is `r` with the keys of the members replaced by what the members denote. -/
def Replaces (r : Settings) (ms : List (String × Json)) (r' : Settings) : Prop :=
  ∀ k : Key, match ms.lookup k.text with
    | some v => k.kind.TakesJson v (r'.get k)
    | none => r'.get k = r.get k

theorem nodup_of_pairwise (h : ms.Pairwise fun m n => m.1 < n.1) : (ms.map (·.1)).Nodup :=
  List.pairwise_map.mpr (h.imp String.ne_of_lt)

theorem lookup_reverse_members (h : ms.Pairwise fun m n => m.1 < n.1) (name : String) :
    (ms.map fun m => (m.1, Given.json m.2)).reverse.lookup name = (ms.lookup name).map .json := by
  cases hl : ms.lookup name with
  | none =>
    refine lookup_reverse_eq_none_iff.mpr fun e he hn => ?_
    obtain ⟨m, hm, rfl⟩ := List.mem_map.mp he
    have hs := (lookup_eq_some_iff_mem h).mpr hm
    rw [show m.1 = name from hn, hl] at hs
    cases hs
  | some v =>
    have hd : ((ms.map fun m => (m.1, Given.json m.2)).map (·.1)).Nodup := by
      rw [List.map_map]
      exact nodup_of_pairwise h
    have hm := (lookup_eq_some_iff_mem h).mp hl
    exact lookup_reverse_of_nodup hd (List.mem_map.mpr ⟨_, hm, rfl⟩)

/-- Members of sorted names are settings of different keys, so none of them is replaced again. -/
theorem steps_sorted_iff (h : ms.Pairwise fun m n => m.1 < n.1) :
    Steps policy r (ms.map fun m => (m.1, .json m.2)) r' ↔
      (∀ m ∈ ms, policy.Accepts (m.1, .json m.2)) ∧ Replaces r ms r' := by
  rw [steps_iff, List.forall_mem_map]
  refine and_congr_right fun _ => forall_congr' fun k => ?_
  rw [lookup_reverse_members h]
  cases ms.lookup k.text <;> rfl

end Settings

namespace Draft

variable {d d' : Draft} {f : Failure} {ms : List (String × Json)} {k : Key} {name : String} {v : Json}

/-! ### The member that decides -/

/-- The value of a key goes into the object that the record is written as, and a record is read back. -/
theorem addMember_of_key : d.addMember k.text v =
    match d.settings.replaceMember k.text v with
    | .ok settings => pure { d with settings }
    | .error m => .fail (.invalidValue k.text m.message) := by
  rw [addMember, Key.ofText?_text]
  dsimp only
  rw [assignJson_eq]
  cases d.settings.replaceMember k.text v <;> rfl

theorem result_addMember_error_iff :
    (d.addMember name v).result = .error f ↔ d.policy.Refuses (name, v) f := by
  cases hk : Key.ofText? name with
  | none =>
    rw [refuses_unknown_iff (Key.ofText?_eq_none_iff.mp hk)]
    simp only [addMember, hk]
    exact result_ignore_error_iff
  | some k =>
    obtain rfl := Key.ofText?_eq_some_iff.mp hk
    rw [refuses_key_iff, addMember_of_key, replaceMember_key]
    cases k.kind.ofJson v with
    | error m => simp [Except.map, Logged.fail, eq_comm]
    | ok x => simp [Except.map, Logged.pure_eq]

/-- Members fail as the first one that is refused. What is before it changes the record only, and
that plays no part in what is refused. -/
theorem result_addMembers_error_iff : (d.addMembers ms).result = .error f ↔
    ∃ before m after, ms = before ++ m :: after ∧
      (∀ b ∈ before, d.policy.Accepts (b.1, .json b.2)) ∧ d.policy.Refuses m f := by
  induction ms generalizing d with
  | nil => exact iff_of_false nofun (by simp)
  | cons m ms ih =>
    rw [addMembers, Logged.result_bind_eq_error_iff, result_addMember_error_iff]
    constructor
    · intro h
      rcases h with h | ⟨d₁, hm, h⟩
      · exact ⟨[], m, ms, rfl, by simp, h⟩
      · obtain ⟨r, hr, rfl⟩ := result_addMember_iff.mp hm
        obtain ⟨before, n, after, rfl, hb, hn⟩ := ih.mp h
        exact ⟨m :: before, n, after, rfl, List.forall_mem_cons.mpr ⟨accepts_of_step hr, hb⟩, hn⟩
    · intro h
      obtain ⟨_ | ⟨b, before⟩, n, after, he, hb, hn⟩ := h
      · obtain ⟨rfl, -⟩ := List.cons.inj he
        exact .inl hn
      · obtain ⟨rfl, rfl⟩ := List.cons.inj he
        obtain ⟨hm, hb⟩ := List.forall_mem_cons.mp hb
        obtain ⟨r, hr⟩ := exists_step (r := d.settings) hm
        exact .inr ⟨_, result_addMember_iff.mpr ⟨r, hr, rfl⟩,
          ih.mpr ⟨before, n, after, rfl, hb, hn⟩⟩

/-! ### Objects -/

theorem addText_eq_addMembers {text : String} (h : readRaw text = .ok (.object ms)) :
    d.addText text .json = d.addMembers (sortMembers (canonicalMembers ms)) := by
  unfold addText Json.read
  rw [h]
  rfl

/-- The members of an object are taken in the order of the octets of their names, each name with its
last value. They are added exactly if each of them is accepted. Then the record has the values of the
keys that are members, the rest of the draft is what it was; otherwise the first member that is
refused is the one at fault. No number with a sign is accepted. -/
theorem addText_object (d : Draft) {text : String} {ms : List (String × Json)}
    (h : readRaw text = .ok (.object ms)) :
    ∃ members : List (String × Json),
      (members.Pairwise fun m n =>
        Text.Utf8.encode m.1.toList < Text.Utf8.encode n.1.toList) ∧
      (∀ name, members.lookup name = (ms.reverse.lookup name).map canonical) ∧
      ((∃ d', (d.addText text .json).result = .ok d') ↔
        ∀ m ∈ members, d.policy.Accepts (m.1, .json m.2)) ∧
      (∀ d', (d.addText text .json).result = .ok d' →
        ∃ r, Replaces d.settings members r ∧ d' = { d with settings := r }) ∧
      (∀ f, (d.addText text .json).result = .error f ↔
        ∃ before m after, members = before ++ m :: after ∧
          (∀ b ∈ before, d.policy.Accepts (b.1, .json b.2)) ∧ d.policy.Refuses m f) ∧
      ∀ s s' v, scalar ('-' :: s) = .ok (v, s') → ∀ (k : Key) x, ¬ k.kind.TakesJson v x := by
  have hs := pairwise_sortMembers (canonicalMembers ms)
  refine ⟨sortMembers (canonicalMembers ms), hs.imp Text.Utf8.lt_iff_encode_lt.mp,
    fun name => ?_, ?_, fun d' ho => ?_, fun f => ?_, fun s s' v hv k x => ?_⟩
  · rw [lookup_sortMembers, ← canonicalMembers_reverse, lookup_canonicalMembers]
  · rw [addText_eq_addMembers h]
    constructor
    · intro ho
      obtain ⟨d', ho⟩ := ho
      obtain ⟨r, hr, -⟩ := result_addMembers_iff.mp ho
      exact ((steps_sorted_iff hs).mp hr).1
    · intro ha
      obtain ⟨r, hr⟩ := exists_steps (r := d.settings) (List.forall_mem_map.mpr ha)
      exact ⟨_, result_addMembers_iff.mpr ⟨r, hr, rfl⟩⟩
  · rw [addText_eq_addMembers h] at ho
    obtain ⟨r, hr, rfl⟩ := result_addMembers_iff.mp ho
    exact ⟨r, ((steps_sorted_iff hs).mp hr).2, rfl⟩
  · rw [addText_eq_addMembers h]
    exact result_addMembers_error_iff
  · exact Kind.not_takesJson_of_minus hv k.kind x

theorem addText_object_repeated : ∃ d',
    (({} : Draft).addText "\x7b\"tab_size\": 0, \"tab_size\": 4\x7d" .json).result = .ok d' ∧
      d'.settings.tabSize = 4 := by
  have h : readRaw "\x7b\"tab_size\": 0, \"tab_size\": 4\x7d" =
      .ok (.object [("tab_size", .integer 0), ("tab_size", .integer 4)]) := rfl
  obtain ⟨members, hs, hl, ha, hr, -⟩ := addText_object {} h
  have hm : ∀ m ∈ members, UnknownKeys.reject.Accepts (m.1, .json m.2) := by
    intro m hm
    obtain ⟨name, v⟩ := m
    have hv := hl name
    rw [(lookup_eq_some_iff_mem (hs.imp Text.Utf8.lt_iff_encode_lt.mpr)).mpr hm] at hv
    simp only [List.reverse_cons, List.reverse_nil, List.nil_append, List.singleton_append,
      lookup_member, List.lookup_nil] at hv
    split at hv
    · next hn =>
      obtain rfl := Option.some.inj hv
      exact .inl ⟨.tabSize, 4, hn, .positive 4⟩
    · cases hv
  obtain ⟨d', ho⟩ := ha.mpr hm
  obtain ⟨r, hr, rfl⟩ := hr d' ho
  refine ⟨_, ho, ?_⟩
  have ht := hr .tabSize
  rw [hl] at ht
  exact Given.denotes_unique (g := .json (.integer 4)) ht (.positive 4)

end Draft

end ListfileSettings
