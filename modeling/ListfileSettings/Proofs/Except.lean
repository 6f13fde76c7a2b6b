import ListfileSettings.Event

/-!
# Outcomes

When an operation that can fail ends well, by the parts it is made of; when it does not, it fails. What
it reports makes no difference to that.
-/
namespace ListfileSettings

variable {ε ε' α β : Type} {x : Except ε α}

theorem bind_eq_ok {f : α → Except ε β} {b : β} :
    x >>= f = .ok b ↔ ∃ a, x = .ok a ∧ f a = .ok b := by
  cases x with
  | error e => simp [bind, Except.bind]
  | ok a => simp [bind, Except.bind]

theorem bind_eq_error_iff {f : α → Except ε β} {e : ε} :
    x >>= f = .error e ↔ x = .error e ∨ ∃ a, x = .ok a ∧ f a = .error e := by
  cases x with
  | error e' => simp [bind, Except.bind]
  | ok a => simp [bind, Except.bind]

theorem bind_congr_of_ok {f g : α → Except ε β} (h : ∀ a, x = .ok a → f a = g a) :
    x >>= f = x >>= g := by
  cases x with
  | error e => rfl
  | ok a => exact h a rfl

theorem map_eq_ok {f : α → β} {b : β} : x.map f = .ok b ↔ ∃ a, x = .ok a ∧ f a = b := by
  cases x with
  | error e => simp [Except.map]
  | ok a => simp [Except.map]

theorem map_eq_error_iff {f : α → β} {e : ε} : x.map f = .error e ↔ x = .error e := by
  cases x with
  | error e' => simp [Except.map]
  | ok a => simp [Except.map]

theorem mapError_eq_ok {f : ε → ε'} {a : α} : x.mapError f = .ok a ↔ x = .ok a := by
  cases x with
  | error e => exact iff_of_false nofun nofun
  | ok b =>
    constructor
    · intro h
      cases h
      rfl
    · intro h
      cases h
      rfl

theorem mapError_eq_error_iff {f : ε → ε'} {e' : ε'} :
    x.mapError f = .error e' ↔ ∃ e, x = .error e ∧ f e = e' := by
  cases x with
  | error e =>
    constructor
    · intro h
      exact ⟨e, rfl, Except.error.inj h⟩
    · intro h
      obtain ⟨_, he, rfl⟩ := h
      obtain rfl := Except.error.inj he
      rfl
  | ok a =>
    refine iff_of_false (fun h => ?_) fun h => ?_
    · cases h
    · obtain ⟨_, he, -⟩ := h
      cases he

/-- What is encoded is decoded again. -/
theorem map_bind_mapError {encode : α → β} {decode : β → Except ε' α} {f : ε' → ε}
    (h : ∀ a, decode (encode a) = .ok a) (x : Except ε α) :
    (x.map encode >>= fun b => (decode b).mapError f) = x := by
  cases x with
  | error e => rfl
  | ok a =>
    change (decode (encode a)).mapError f = .ok a
    rw [h]
    rfl

theorem exists_error_of_ne_ok (h : ∀ a, x ≠ .ok a) : ∃ e, x = .error e := by
  cases x with
  | error e => exact ⟨e, rfl⟩
  | ok a => exact absurd rfl (h a)

/-! ### Operations with events -/

namespace Logged

variable {x : Logged ε α} {f g : α → Logged ε β} {a : α}

theorem result_bind_eq_error_iff {e : ε} : (x >>= f).result = .error e ↔
    x.result = .error e ∨ ∃ a, x.result = .ok a ∧ (f a).result = .error e := by
  rw [result_bind]
  exact bind_eq_error_iff

theorem bind_congr_of_result (h : ∀ a, x.result = .ok a → f a = g a) : x >>= f = x >>= g := by
  obtain ⟨es, r⟩ := x
  cases r with
  | error e => rfl
  | ok a => rw [bind_ok, bind_ok, h a rfl]

theorem result_mapFailure_iff {f : ε → ε'} : (x.mapFailure f).result = .ok a ↔ x.result = .ok a :=
  mapError_eq_ok

theorem result_lift_iff : x.lift.result = .ok a ↔ x.result = .ok a := mapError_eq_ok

theorem result_lift_error_iff {e : ε} : x.lift.result = .error (.failure e) ↔ x.result = .error e :=
  mapError_eq_error_iff.trans (by simp)

theorem result_lift_ne_crash : x.lift.result ≠ .error .crash := by
  intro h
  obtain ⟨e, -, he⟩ := mapError_eq_error_iff.mp h
  cases he

end Logged

end ListfileSettings
