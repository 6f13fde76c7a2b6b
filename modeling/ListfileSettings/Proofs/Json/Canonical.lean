import ListfileSettings.Json
import ListfileSettings.Proofs.Json.Decode

/-!
# Values without repeated names

Where no object repeats a name, making a value canonical only sorts its members: the values of
each type are the same as before.
-/
namespace ListfileSettings.Json

mutual

/-- No object in the value repeats a name. -/
def NoRepeats : Json → Prop
  | .array items => NoRepeatsItems items
  | .object ms => (ms.map (·.1)).Nodup ∧ NoRepeatsMembers ms
  | _ => True

def NoRepeatsItems : List Json → Prop
  | [] => True
  | v :: vs => NoRepeats v ∧ NoRepeatsItems vs

def NoRepeatsMembers : List (String × Json) → Prop
  | [] => True
  | (_, v) :: ms => NoRepeats v ∧ NoRepeatsMembers ms

end

variable {v : Json} {vs : List Json} {name : String} {ms : List (String × Json)}

/-! ### Sorted members -/

theorem insertMember_perm (h : name ∉ ms.map (·.1)) :
    (insertMember name v ms).Perm ((name, v) :: ms) := by
  induction ms with
  | nil => exact .refl _
  | cons m ms ih =>
    obtain ⟨hm, hs⟩ := not_or.mp (mt List.mem_cons.mpr h)
    unfold insertMember
    rw [if_neg hm]
    split
    · exact .refl _
    · exact ((ih hs).cons m).trans (.swap ..)

theorem foldl_insertMember_perm {sorted : List (String × Json)}
    (h : ((sorted ++ ms).map (·.1)).Nodup) :
    (ms.foldl (fun sorted m => insertMember m.1 m.2 sorted) sorted).Perm (sorted ++ ms) := by
  induction ms generalizing sorted with
  | nil => simp
  | cons m ms ih =>
    have hp : (sorted ++ m :: ms).Perm (m :: sorted ++ ms) := List.perm_middle
    have hd := (hp.map (·.1)).nodup_iff.mp h
    have hm : m.1 ∉ sorted.map (·.1) := by
      rw [List.cons_append, List.map_cons, List.map_append] at hd
      exact fun hm => (List.nodup_cons.mp hd).1 (List.mem_append_left _ hm)
    have hi : (insertMember m.1 m.2 sorted ++ ms).Perm (m :: sorted ++ ms) :=
      (insertMember_perm hm).append_right ms
    rw [List.foldl_cons]
    exact (ih ((hi.map (·.1)).nodup_iff.mpr hd)).trans (hi.trans hp.symm)

/-- Members that repeat no name are only put in order. -/
theorem sortMembers_perm (h : (ms.map (·.1)).Nodup) : (sortMembers ms).Perm ms :=
  foldl_insertMember_perm (by simpa using h)

theorem canonicalMembers_eq_map (ms : List (String × Json)) :
    canonicalMembers ms = ms.map fun m => (m.1, m.2.canonical) := by
  induction ms with
  | nil => rfl
  | cons m ms ih => rw [canonicalMembers, List.map_cons, ih]

theorem canonicalMembers_reverse (ms : List (String × Json)) :
    canonicalMembers ms.reverse = (canonicalMembers ms).reverse := by
  rw [canonicalMembers_eq_map, canonicalMembers_eq_map, List.map_reverse]

theorem names_canonicalMembers (ms : List (String × Json)) :
    (canonicalMembers ms).map (·.1) = ms.map (·.1) := by
  rw [canonicalMembers_eq_map, List.map_map]
  rfl

theorem lt_insertMember {s : String} (hs : s < name) (h : ∀ m ∈ ms, s < m.1) :
    ∀ m ∈ insertMember name v ms, s < m.1 := by
  induction ms with
  | nil => simpa [insertMember] using hs
  | cons m ms ih =>
    obtain ⟨hm, ht⟩ := List.forall_mem_cons.mp h
    unfold insertMember
    split
    · exact List.forall_mem_cons.mpr ⟨hs, h⟩
    · split
      · exact List.forall_mem_cons.mpr ⟨hs, ht⟩
      · exact List.forall_mem_cons.mpr ⟨hm, ih ht⟩

theorem pairwise_insertMember (h : ms.Pairwise fun m n => m.1 < n.1) :
    (insertMember name v ms).Pairwise fun m n => m.1 < n.1 := by
  induction ms with
  | nil => exact List.pairwise_singleton _ _
  | cons m ms ih =>
    obtain ⟨hm, ht⟩ := List.pairwise_cons.mp h
    unfold insertMember
    split
    · next hl =>
      refine List.pairwise_cons.mpr ⟨?_, h⟩
      exact List.forall_mem_cons.mpr ⟨hl, fun n hn => String.lt_trans hl (hm n hn)⟩
    · next hl =>
      split
      · next he => exact List.pairwise_cons.mpr ⟨fun n hn => he ▸ hm n hn, ht⟩
      · next he =>
        have hg : m.1 < name :=
          String.not_le.mp fun hg => he (String.le_antisymm hg (String.not_lt.mp hl))
        exact List.pairwise_cons.mpr ⟨lt_insertMember hg hm, ih ht⟩

theorem pairwise_sortMembers (ms : List (String × Json)) :
    (sortMembers ms).Pairwise fun m n => m.1 < n.1 := by
  have hf : ∀ sorted : List (String × Json), (sorted.Pairwise fun m n => m.1 < n.1) →
      (ms.foldl (fun sorted m => insertMember m.1 m.2 sorted) sorted).Pairwise
        fun m n => m.1 < n.1 := by
    induction ms with
    | nil => exact fun sorted h => h
    | cons m ms ih => exact fun sorted h => ih _ (pairwise_insertMember h)
  exact hf [] .nil

theorem lookup_member (s n : String) (u : Json) :
    ((n, u) :: ms).lookup s = if s = n then some u else ms.lookup s := by
  by_cases hs : s = n
  · simp [hs]
  · simp [List.lookup_cons, beq_false_of_ne hs, hs]

theorem lookup_insertMember (s : String) :
    (insertMember name v ms).lookup s = if s = name then some v else ms.lookup s := by
  induction ms with
  | nil => exact lookup_member s name v
  | cons m ms ih =>
    obtain ⟨n, u⟩ := m
    unfold insertMember
    split
    · exact lookup_member s name v
    · split
      · next hn =>
        obtain rfl : name = n := hn
        simp only [lookup_member]
        split <;> rfl
      · next hn =>
        have hne : s = n → s ≠ name := fun hs he => hn (he.symm.trans hs)
        rw [lookup_member, lookup_member, ih]
        by_cases hs : s = n
        · rw [if_pos hs, if_neg (hne hs), if_pos hs]
        · rw [if_neg hs, if_neg hs]

/-- Of members of one name the last one counts. -/
theorem lookup_sortMembers (ms : List (String × Json)) (s : String) :
    (sortMembers ms).lookup s = ms.reverse.lookup s := by
  have hf : ∀ sorted : List (String × Json),
      (ms.foldl (fun sorted m => insertMember m.1 m.2 sorted) sorted).lookup s =
        (ms.reverse.lookup s).or (sorted.lookup s) := by
    induction ms with
    | nil => exact fun sorted => rfl
    | cons m ms ih =>
      intro sorted
      obtain ⟨n, u⟩ := m
      rw [List.foldl_cons, ih, lookup_insertMember, List.reverse_cons, List.lookup_append,
        Option.or_assoc, lookup_member]
      split <;> rfl
  exact (hf []).trans Option.or_none

theorem lookup_canonicalMembers (ms : List (String × Json)) (s : String) :
    (canonicalMembers ms).lookup s = (ms.lookup s).map canonical := by
  induction ms with
  | nil => rfl
  | cons m ms ih =>
    obtain ⟨n, u⟩ := m
    rw [canonicalMembers, lookup_member, lookup_member, ih]
    split <;> rfl

theorem lookup_eq_some_iff_mem (h : ms.Pairwise fun m n => m.1 < n.1) :
    ms.lookup name = some v ↔ (name, v) ∈ ms := by
  induction ms with
  | nil => simp
  | cons m ms ih =>
    obtain ⟨n, u⟩ := m
    obtain ⟨hm, hs⟩ := List.pairwise_cons.mp h
    by_cases hn : name = n
    · subst hn
      have hne : (name, v) ∉ ms := fun hv => String.lt_irrefl name (hm _ hv)
      simp [hne, eq_comm]
    · simp [List.lookup_cons, beq_false_of_ne hn, hn, ih hs]

/-! ### Values of a type -/

theorem canonical_eq_null_iff : v.canonical = .null ↔ v = .null := by
  cases v <;> simp [canonical]

theorem canonical_eq_integer_iff {n : Int} : v.canonical = .integer n ↔ v = .integer n := by
  cases v <;> simp [canonical]

theorem canonical_eq_boolean_iff {b : Bool} : v.canonical = .boolean b ↔ v = .boolean b := by
  cases v <;> simp [canonical]

theorem canonical_eq_string_iff {s : String} : v.canonical = .string s ↔ v = .string s := by
  cases v <;> simp [canonical]

theorem canonicalItems_eq_texts_iff {texts : List String} :
    canonicalItems vs = texts.map .string ↔ vs = texts.map .string := by
  induction vs generalizing texts with
  | nil => cases texts <;> simp [canonicalItems]
  | cons v vs ih =>
    cases texts with
    | nil => simp [canonicalItems]
    | cons s texts => simp [canonicalItems, canonical_eq_string_iff, ih]

theorem canonical_eq_texts_iff {texts : List String} :
    v.canonical = .array (texts.map .string) ↔ v = .array (texts.map .string) := by
  cases v <;> simp [canonical, canonicalItems_eq_texts_iff]

theorem canonicalMembers_eq_single_iff (ms : List (String × Json)) :
    canonicalMembers ms = [(name, .null)] ↔ ms = [(name, .null)] := by
  rcases ms with _ | ⟨⟨n, v⟩, _ | ⟨m, ms⟩⟩
  · simp [canonicalMembers]
  · simp [canonicalMembers, canonical_eq_null_iff]
  · simp [canonicalMembers]

/-- Where names could be repeated this fails: the last of two members is the only one left. -/
theorem canonical_eq_single_iff (h : v.NoRepeats) :
    v.canonical = .object [(name, .null)] ↔ v = .object [(name, .null)] := by
  cases v with
  | object ms =>
    rw [NoRepeats] at h
    have hp : (sortMembers (canonicalMembers ms)).Perm (canonicalMembers ms) := by
      refine sortMembers_perm ?_
      rw [names_canonicalMembers]
      exact h.1
    rw [canonical, object.injEq, object.injEq, ← canonicalMembers_eq_single_iff ms]
    constructor
    · intro he
      rw [he] at hp
      exact List.perm_singleton.mp hp.symm
    · intro he
      rw [he] at hp ⊢
      exact List.perm_singleton.mp hp
  | _ => simp [canonical]

end ListfileSettings.Json
