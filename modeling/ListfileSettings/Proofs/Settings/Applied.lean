import ListfileSettings.Proofs.Settings.Shown

/-!
# What is shown and what is applied

A literal that is applied to a key is shown for it from then on. What is shown of a record can be
applied to any other one, key by key and in any order, which makes the other one equal to it.
-/
namespace ListfileSettings.Settings

variable {r r' : Settings} {k : Key} {v : Literal} {ks : List Key}

/-! ### One key -/

theorem literal_set (r : Settings) (k : Key) (x : k.kind.Value) :
    (r.set k x).literal k = k.kind.toLiteral x := by
  rw [literal, get_set]

theorem literal_set_of_ne (r : Settings) {j : Key} (x : k.kind.Value) (h : j ≠ k) :
    (r.set k x).literal j = r.literal j := by
  rw [literal, get_set_of_ne r x h, literal]

/-- An update shows its literal for its key and leaves what is shown for all other names. -/
theorem literal?_of_assign {line : Option Nat} (h : r.assign k.text v line = .ok r') :
    r'.literal? k.text = some v ∧ ∀ key, key ≠ k.text → r'.literal? key = r.literal? key := by
  obtain ⟨k', x, hk, hx, rfl⟩ := assign_eq_ok_iff.mp h
  obtain rfl := Key.text_injective hk
  refine ⟨?_, fun key hn => ?_⟩
  · rw [literal?_text, literal_set, Kind.toLiteral_of_takes hx]
  · rw [literal?_eq, literal?_eq]
    cases hj : Key.ofText? key with
    | none => rfl
    | some j =>
      have hne : j ≠ k := by
        rintro rfl
        exact hn (Key.ofText?_eq_some_iff.mp hj).symm
      exact congrArg some (r.literal_set_of_ne x hne)

/-- What is shown for a key of one record can be assigned to the key of another one. -/
theorem assign_literal (h : k.kind.Admits (r.get k)) (r₀ : Settings) (line : Option Nat) :
    r₀.assign k.text (r.literal k) line = .ok (r₀.set k (r.get k)) :=
  assign_eq_ok_iff.mpr ⟨k, r.get k, rfl, k.kind.takes_toLiteral h, rfl⟩

/-! ### All keys -/

def copy (r : Settings) (ks : List Key) (r₀ : Settings) : Settings :=
  ks.foldl (fun s k => s.set k (r.get k)) r₀

theorem get_copy (r : Settings) (ks : List Key) (r₀ : Settings) (j : Key) :
    (r.copy ks r₀).get j = if j ∈ ks then r.get j else r₀.get j := by
  induction ks generalizing r₀ with
  | nil => rfl
  | cons k ks ih =>
    change (r.copy ks (r₀.set k (r.get k))).get j = _
    rw [ih]
    by_cases hj : j = k
    · subst hj
      simp
    · simp [hj, get_set_of_ne r₀ (r.get k) hj]

theorem copy_of_forall_mem (h : ∀ k : Key, k ∈ ks) (r r₀ : Settings) : r.copy ks r₀ = r :=
  ext_get fun j => by rw [get_copy, if_pos (h j)]

theorem run_bind_of_ok {α : Type} {x : ExceptT Failure (StateM Settings) Unit}
    {f : Unit → ExceptT Failure (StateM Settings) α} (h : x.run.run r = (.ok (), r')) :
    (x >>= f).run.run r = (f ()).run.run r' := by
  rw [ExceptT.run_bind, StateT.run_bind, h]
  rfl

theorem run_forM_apply (h : ∀ k : Key, k.kind.Admits (r.get k)) (line : Key → Option Nat)
    (ks : List Key) (r₀ : Settings) :
    (ks.forM fun k => apply k.text (r.literal k) (line k)).run.run r₀ = (.ok (), r.copy ks r₀) := by
  induction ks generalizing r₀ with
  | nil => rfl
  | cons k ks ih =>
    have hk := run_apply_eq_ok_iff.mpr (assign_literal (h k) r₀ (line k))
    rw [List.forM_eq_forM, List.forM_cons, run_bind_of_ok hk]
    exact ih (r₀.set k (r.get k))

/-- A literal that is applied with success is what is shown for its key afterwards, and nothing else
is shown otherwise than before. What is shown of a record with positive widths can be applied to any
record, one key after the other and the keys in any order, and makes it equal to the first one. -/
theorem literal?_apply :
    (∀ (r r' : Settings) (k : Key) (v : Literal) (line : Option Nat),
      (apply k.text v line).run.run r = (.ok (), r') →
        r'.literal? k.text = some v ∧ ∀ key, key ≠ k.text → r'.literal? key = r.literal? key) ∧
    ∀ r : Settings, 1 ≤ r.lineWidth → 1 ≤ r.tabSize →
      ∃ value : Key → Literal, (∀ k : Key, r.literal? k.text = some (value k)) ∧
        ∀ (r₀ : Settings) (line : Key → Option Nat) (ks : List Key), ks.Perm Key.all →
          (ks.forM fun k => apply k.text (value k) (line k)).run.run r₀ = (.ok (), r) := by
  refine ⟨fun r r' k v line h => literal?_of_assign (run_apply_eq_ok_iff.mp h),
    fun r hw ht => ⟨r.literal, r.literal?_text, fun r₀ line ks hp => ?_⟩⟩
  have hn : ∀ n : UInt32, 1 ≤ n → n ≠ 0 := by
    rintro n h rfl
    exact absurd h (by decide)
  have hr : ∀ k : Key, k.kind.Admits (r.get k) := admits_iff.mpr ⟨hn _ hw, hn _ ht⟩
  rw [run_forM_apply hr, copy_of_forall_mem fun k => hp.mem_iff.mpr (Named.mem_all k)]

/-- The keys can be applied backwards, to a record that is not valid. -/
theorem literal?_apply_reversed :
    ({ tabSize := 4 } : Settings).literal? "tab_size" = some (.integer (.ofUInt32 4)) ∧
      ∃ value : Key → Literal,
        (Key.all.reverse.forM fun k => apply k.text (value k) none).run.run { tabSize := 0 } =
          (.ok (), { lineWidth := 1, alwaysWrap := ["it's\n"] }) := by
  have ha : (apply "tab_size" (.integer (.ofUInt32 4)) none).run.run {} = (.ok (), { tabSize := 4 }) :=
    run_apply_eq_ok_iff.mpr rfl
  obtain ⟨value, -, h⟩ :=
    literal?_apply.2 { lineWidth := 1, alwaysWrap := ["it's\n"] } (by decide) (by decide)
  exact ⟨(literal?_apply.1 {} { tabSize := 4 } .tabSize _ none ha).1, value,
    h { tabSize := 0 } (fun _ => none) _ (List.reverse_perm _)⟩

end ListfileSettings.Settings
