import ListfileSettings.Proofs.Json.Canonical
import ListfileSettings.Proofs.Settings.Given
import ListfileSettings.Proofs.Settings.Reasons
import ListfileSettings.Settings.InPlace

/-!
# Replacing one member

A record is read back from the members that it is written as, whatever its values are. So with one
member replaced it is the record with one key set, or the fault of the new value. An update in place
changes the record as an update does, and leaves it alone when it fails.
-/
namespace ListfileSettings

/-! ### Members and values -/

namespace Kind

variable {v : Literal}

theorem ofJson_toJson (k : Kind) (x : k.Value) : k.ofJson (k.toJson x) = .ok x := by
  cases k with
  | positive => rw [ofJson, toJson, Json.toWord_eq_ok_iff]
  | count => rw [ofJson, toJson, Json.toWord_eq_ok_iff]
  | flag => rfl
  | caseStyle =>
    rw [ofJson, toJson, Json.toChoice_eq_ok_iff]
    exact .inl rfl
  | lineEnding =>
    rw [ofJson, toJson, Json.toChoice_eq_ok_iff]
    exact .inl rfl
  | names => rw [ofJson, toJson, Json.toTexts_eq_ok_iff]

/-- A literal is converted by way of its JSON value, also where its bounds are checked before. -/
theorem ofLiteral_eq (k : Kind) :
    k.ofLiteral v = k.jsonOf v >>= fun j => (k.ofJson j).mapError .mismatch := by
  have hw : ∀ x : Except Unfit UInt32, (x.map (fun w => Json.integer w.toNat) >>= fun j =>
      j.toWord.mapError .mismatch) = x := map_bind_mapError (ofJson_toJson .count)
  cases k with
  | positive =>
    cases v with
    | integer n => exact (hw _).symm
    | _ => rfl
  | count =>
    cases v with
    | integer n => exact (hw _).symm
    | _ => rfl
  | _ => rfl

end Kind

namespace Settings

open Json

variable {r r' target : Settings} {k : Key} {v : Json} {ms : List (String × Json)} {m : Mismatch}

/-! ### Reading members -/

theorem takeMember_key {name : String} (h : name = k.text) :
    takeMember r (name, v) = (k.kind.ofJson v).map (r.set k) := by
  subst h
  rw [takeMember, Key.ofText?_text]

/-- Members that all denote the values of a record make it of any other one, as far as they go. -/
theorem exists_takeMembers
    (h : ∀ m ∈ ms, ∃ k : Key, m.1 = k.text ∧ k.kind.ofJson m.2 = .ok (target.get k)) :
    ∃ r', ms.foldlM takeMember r = .ok r' ∧
      ∀ k : Key, r'.get k = target.get k ∨ k.text ∉ ms.map (·.1) ∧ r'.get k = r.get k := by
  induction ms generalizing r with
  | nil => exact ⟨r, rfl, fun k => .inr ⟨by simp, rfl⟩⟩
  | cons m ms ih =>
    obtain ⟨⟨k, hk, hx⟩, hs⟩ := List.forall_mem_cons.mp h
    obtain ⟨name, v⟩ := m
    have ht : takeMember r (name, v) = .ok (r.set k (target.get k)) := by
      rw [takeMember_key hk, hx]
      rfl
    obtain ⟨r', hr, hg⟩ := ih (r := r.set k (target.get k)) hs
    refine ⟨r', ?_, fun j => ?_⟩
    · rw [List.foldlM_cons, ht]
      exact hr
    · rcases hg j with hj | ⟨hn, hj⟩
      · exact .inl hj
      · by_cases he : j = k
        · subst he
          rw [get_set] at hj
          exact .inl hj
        · have hne : j.text ≠ name := fun ht => he (Key.text_injective (ht.trans hk))
          rw [get_set_of_ne r _ he] at hj
          exact .inr ⟨by simpa [hne] using hn, hj⟩

theorem takeMembers_error (hv : k.kind.ofJson v = .error m) (hm : (k.text, v) ∈ ms)
    (h : ∀ n ∈ ms, n = (k.text, v) ∨
      ∃ (j : Key) (x : j.kind.Value), n.1 = j.text ∧ j.kind.ofJson n.2 = .ok x) :
    ms.foldlM takeMember r = .error m := by
  induction ms generalizing r with
  | nil => cases hm
  | cons n ms ih =>
    obtain ⟨hn, hs⟩ := List.forall_mem_cons.mp h
    rw [List.foldlM_cons]
    rcases hn with rfl | ⟨j, x, hj, hx⟩
    · rw [takeMember_key rfl, hv]
      rfl
    · obtain ⟨name, u⟩ := n
      rw [takeMember_key hj, hx]
      rcases List.mem_cons.mp hm with he | hm
      · obtain ⟨rfl, rfl⟩ := Prod.mk.inj he
        obtain rfl := Key.text_injective hj
        rw [hv] at hx
        cases hx
      · exact ih hm hs

/-! ### Writing members -/

theorem pairwise_members (r : Settings) : r.members.Pairwise fun m n => m.1 < n.1 :=
  pairwise_sortMembers _

theorem mem_members_iff {m : String × Json} :
    m ∈ r.members ↔ ∃ k : Key, m = (k.text, k.kind.toJson (r.get k)) := by
  have ht : (Key.all.map Key.text).Nodup := by decide
  have hd : ((Key.all.map fun k => (k.text, k.kind.toJson (r.get k))).map (·.1)).Nodup := by
    rwa [List.map_map]
  rw [members, (sortMembers_perm hd).mem_iff, List.mem_map]
  constructor
  · intro h
    obtain ⟨k, -, he⟩ := h
    exact ⟨k, he.symm⟩
  · intro h
    obtain ⟨k, he⟩ := h
    exact ⟨k, Named.mem_all k, he.symm⟩

theorem mem_insert_members_iff {m : String × Json} : m ∈ insertMember k.text v r.members ↔
    m = (k.text, v) ∨ ∃ j : Key, j ≠ k ∧ m = (j.text, j.kind.toJson (r.get j)) := by
  obtain ⟨name, u⟩ := m
  rw [← lookup_eq_some_iff_mem (pairwise_insertMember (pairwise_members r)), lookup_insertMember]
  by_cases hn : name = k.text
  · subst hn
    have hne : ¬ ∃ j : Key, j ≠ k ∧ (k.text, u) = (j.text, j.kind.toJson (r.get j)) := by
      rintro ⟨j, hj, he⟩
      exact hj (Key.text_injective (Prod.mk.inj he).1.symm)
    rw [if_pos rfl, or_iff_left hne]
    simp [eq_comm]
  · rw [if_neg hn, lookup_eq_some_iff_mem (pairwise_members r), mem_members_iff]
    constructor
    · intro h
      obtain ⟨j, he⟩ := h
      refine .inr ⟨j, fun hj => hn ?_, he⟩
      rw [(Prod.mk.inj he).1, hj]
    · intro h
      obtain he | ⟨j, -, he⟩ := h
      · exact absurd (Prod.mk.inj he).1 hn
      · exact ⟨j, he⟩

theorem mem_names_insert_members (j : Key) :
    j.text ∈ (insertMember k.text v r.members).map (·.1) := by
  rw [List.mem_map]
  by_cases hj : j = k
  · exact ⟨(k.text, v), mem_insert_members_iff.mpr (.inl rfl), congrArg Key.text hj.symm⟩
  · exact ⟨_, mem_insert_members_iff.mpr (.inr ⟨j, hj, rfl⟩), rfl⟩

/-! ### Replacing one member -/

/-- Of the record that is read back only the key of the new member can be different. -/
theorem replaceMember_key (r : Settings) (k : Key) (v : Json) :
    r.replaceMember k.text v = (k.kind.ofJson v).map (r.set k) := by
  unfold replaceMember ofMembers
  cases hv : k.kind.ofJson v with
  | error m =>
    refine takeMembers_error hv (mem_insert_members_iff.mpr (.inl rfl)) fun n hn => ?_
    obtain he | ⟨j, -, rfl⟩ := mem_insert_members_iff.mp hn
    · exact .inl he
    · exact .inr ⟨j, r.get j, rfl, j.kind.ofJson_toJson _⟩
  | ok x =>
    have ht : ∀ n ∈ insertMember k.text v r.members,
        ∃ j : Key, n.1 = j.text ∧ j.kind.ofJson n.2 = .ok ((r.set k x).get j) := by
      intro n hn
      obtain rfl | ⟨j, hj, rfl⟩ := mem_insert_members_iff.mp hn
      · exact ⟨k, rfl, by rw [get_set, hv]⟩
      · exact ⟨j, rfl, by rw [get_set_of_ne r x hj, j.kind.ofJson_toJson]⟩
    obtain ⟨r', hr, hg⟩ := exists_takeMembers ht (r := {})
    rw [hr]
    refine congrArg Except.ok (ext_get fun j => ?_)
    -- Every key has a member, so none keeps its default.
    exact (hg j).resolve_right fun hn => hn.1 (mem_names_insert_members j)

theorem assignJson_eq (r : Settings) (k : Key) (v : Json) : r.assignJson k v =
    (r.replaceMember k.text v).mapError fun m => .invalidValue k.text m.message := by
  rw [replaceMember_key, assignJson]
  cases k.kind.ofJson v <;> rfl

/-! ### Updates in place -/

theorem run_replaceWith (make : Settings → Except Failure Settings) (r : Settings) :
    (replaceWith make).run.run r =
      match make r with
      | .ok r' => (.ok (), r')
      | .error f => (.error f, r) := by
  change (MonadExcept.ofExcept (make r) >>= fun r' =>
    (MonadStateOf.set r' : ExceptT Failure (StateM Settings) Unit)).run.run r = _
  cases make r <;> rfl

/-- An update in place ends as the update does, and a failed one leaves the record as it was. -/
theorem run_apply (r : Settings) (key : String) (v : Literal) (line : Option Nat) :
    (apply key v line).run.run r =
      match r.assign key v line with
      | .ok r' => (.ok (), r')
      | .error f => (.error f, r) := by
  unfold apply assign
  cases hk : Key.ofText? key with
  | none => rfl
  | some k =>
    obtain rfl := Key.ofText?_eq_some_iff.mp hk
    dsimp only
    rw [Kind.ofLiteral_eq]
    cases k.kind.jsonOf v with
    | error u => rfl
    | ok j =>
      dsimp only [bind, Except.bind]
      rw [setMember, run_replaceWith, replaceMember_key]
      cases k.kind.ofJson j <;> rfl

theorem run_apply_eq_ok_iff {key : String} {v : Literal} {line : Option Nat} :
    (apply key v line).run.run r = (.ok (), r') ↔ r.assign key v line = .ok r' := by
  rw [run_apply]
  cases r.assign key v line with
  | ok r₁ =>
    constructor
    · intro h
      rw [(Prod.mk.inj h).2]
    · intro h
      rw [Except.ok.inj h]
  | error f =>
    refine iff_of_false (fun h => ?_) nofun
    cases (Prod.mk.inj h).1

theorem exists_assign_error {v : Literal} (h : ∀ x, ¬ k.kind.Takes v x) :
    ∃ u : Unfit, ∀ (r : Settings) (line : Option Nat),
      r.assign k.text v line = .error (.invalidValue k.text (reasonAt u.message line)) := by
  obtain ⟨u, hu⟩ := exists_error_of_ne_ok fun x hx => h x ((Kind.ofLiteral_eq_ok_iff _).mp hx)
  refine ⟨u, fun r line => ?_⟩
  rw [assign, Key.ofText?_text]
  simp only [hu]

/-- An update in place with an unknown key fails for the key. With a key it succeeds exactly if the
literal is in the domain of the key, whatever is in the record, and then the key has the value of the
literal and every other key what it had; otherwise it fails for the value, with the line if it is
known. A failed update leaves the record as it was. -/
theorem apply_reference (key : String) (v : Literal) (line : Option Nat) :
    ((∀ k : Key, key ≠ k.text) → ∀ r : Settings,
      (apply key v line).run.run r = (.error (.unknownKey key line), r)) ∧
    ∀ k : Key, key = k.text →
      (∀ r r' : Settings, (apply key v line).run.run r = (.ok (), r') ↔
        ∃ x, k.kind.Takes v x ∧ r'.get k = x ∧ ∀ j : Key, j ≠ k → r'.get j = r.get j) ∧
      ((∀ x, ¬ k.kind.Takes v x) → ∃ reason,
        (∀ r : Settings, (apply key v line).run.run r = (.error (.invalidValue key reason), r)) ∧
          ∀ n, NamesLine reason n ↔ line = some n) := by
  refine ⟨fun hn r => ?_, fun k hk => ?_⟩
  · rw [run_apply, assign, Key.ofText?_eq_none_iff.mpr hn]
  · subst hk
    refine ⟨fun r r' => ?_, fun hn => ?_⟩
    · rw [run_apply_eq_ok_iff, assign_eq_ok_iff]
      constructor
      · intro h
        obtain ⟨k', x, hk, hx, rfl⟩ := h
        obtain rfl := Key.text_injective hk
        exact ⟨x, hx, get_set r k x, fun j hj => get_set_of_ne r x hj⟩
      · intro h
        obtain ⟨x, hx, hk, hf⟩ := h
        refine ⟨k, x, rfl, hx, ext_get fun j => ?_⟩
        by_cases hj : j = k
        · subst hj
          rw [get_set, hk]
        · rw [get_set_of_ne r x hj, hf j hj]
    · obtain ⟨u, hu⟩ := exists_assign_error hn
      refine ⟨reasonAt u.message line, fun r => ?_, namesLine_reasonAt_iff u line⟩
      rw [run_apply, hu]

end Settings

end ListfileSettings
