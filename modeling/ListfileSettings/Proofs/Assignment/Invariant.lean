import ListfileSettings.Proofs.Assignment.Step

/-!
# What every step keeps

What holds of every state that a step goes on to, by the parts of the step. The reader starts in a
sound mode and each of its steps, if it goes on, ends in one.
-/
namespace ListfileSettings.Assignment

variable {line : Nat} {slot : Slot} {c : Char} {st : State} {P : State → Prop}

/-! ### Where a step ends -/

/-- The state that a step goes on to, if it does, has the property. -/
def EndsIn (P : State → Prop) (x : Except Malformed State) : Prop := ∀ st, x = .ok st → P st

theorem endsIn_ok : EndsIn P (.ok st) ↔ P st := by
  simp [EndsIn]

theorem endsIn_error {m : Malformed} : EndsIn P (.error m) := nofun

theorem endsIn_fail {cause : Cause} : EndsIn P (st.fail cause) := endsIn_error

theorem endsIn_ite {p : Prop} [Decidable p] {x y : Except Malformed State} :
    EndsIn P (if p then x else y) ↔ (p → EndsIn P x) ∧ (¬ p → EndsIn P y) := by
  split <;> simp_all

theorem endsIn_bind {x : Except Malformed State} {f : State → Except Malformed State}
    {Q : State → Prop} (h : EndsIn Q x) (hf : ∀ st, Q st → EndsIn P (f st)) : EndsIn P (x >>= f) := by
  intro st' hs
  obtain ⟨st, hx, hs⟩ := bind_eq_ok.mp hs
  exact hf st (h st hx) st' hs

theorem endsIn_endWord {text : String} (h : ∀ v, P (st.put slot v)) :
    EndsIn P (st.endWord slot text) := by
  intro st' hs
  obtain ⟨b, -, rfl⟩ := endWord_eq_ok_iff.mp hs
  exact h _

theorem endsIn_endInteger {sign digits : String} {next : Option Char}
    (h : ∀ v, P (st.put slot v)) : EndsIn P (st.endInteger slot sign digits next) := by
  intro st' hs
  obtain ⟨-, -, rfl⟩ := endInteger_eq_ok_iff.mp hs
  exact h _

/-! ### Sound modes -/

/-- The state that a step goes on to, if it does, is sound. -/
def KeepsSound (x : Except Malformed State) : Prop := ∀ st, x = .ok st → st.mode.IsSound

theorem keepsSound_ok : KeepsSound (.ok st) ↔ st.mode.IsSound := endsIn_ok

theorem keepsSound_error {m : Malformed} : KeepsSound (.error m) := endsIn_error

theorem keepsSound_fail {cause : Cause} : KeepsSound (st.fail cause) := keepsSound_error

theorem keepsSound_ite {p : Prop} [Decidable p] {x y : Except Malformed State} :
    KeepsSound (if p then x else y) ↔ (p → KeepsSound x) ∧ (¬ p → KeepsSound y) := endsIn_ite

theorem isSound_put {v : Literal} : (st.put slot v).mode.IsSound := by
  unfold State.put
  split <;> trivial

theorem keepsSound_startValue : KeepsSound (st.startValue slot c) := by
  simp only [State.startValue, keepsSound_ite, keepsSound_ok, keepsSound_fail,
    Mode.IsSound, Bool.or_eq_true, decide_eq_true_eq]
  simp

theorem keepsSound_stepIdle (h : st.mode.IsSound) : KeepsSound (st.stepIdle c) := by
  simp only [State.stepIdle, keepsSound_ite, keepsSound_ok]
  exact ⟨fun _ => h, fun _ => ⟨fun _ => h, fun _ => ⟨fun _ => trivial, fun _ =>
    ⟨fun _ => trivial, fun _ => keepsSound_fail⟩⟩⟩⟩

theorem keepsSound_stepAfterKey {key : String} :
    KeepsSound (st.stepAfterKey line key c) := by
  simp only [State.stepAfterKey, keepsSound_ite, keepsSound_ok]
  exact ⟨fun _ => trivial, fun _ => ⟨fun _ => trivial, fun _ => keepsSound_error⟩⟩

theorem keepsSound_stepBefore (h : st.mode.IsSound) : KeepsSound (st.stepBefore slot c) := by
  unfold State.stepBefore
  split
  · exact keepsSound_ok.mpr h
  · split
    · exact keepsSound_startValue
    · next hs =>
      have ho : slot.sequences ≠ [] := by simp [hs]
      simp only [keepsSound_ite, keepsSound_ok]
      exact ⟨fun _ => h, fun _ => ⟨fun _ => ho, fun _ =>
        ⟨fun _ => isSound_put, fun _ => keepsSound_startValue⟩⟩⟩

theorem keepsSound_stepAfter (h : st.mode.IsSound) : KeepsSound (st.stepAfter slot c) := by
  unfold State.stepAfter
  split
  · exact keepsSound_ok.mpr h
  · split
    · simp only [keepsSound_ite, keepsSound_ok]
      exact ⟨fun _ => trivial, fun _ => ⟨fun _ => trivial, fun _ => keepsSound_fail⟩⟩
    · next hs =>
      have ho : slot.sequences ≠ [] := by simp [hs]
      simp only [keepsSound_ite, keepsSound_ok]
      exact ⟨fun _ => h, fun _ => ⟨fun _ => ho, fun _ => ⟨fun _ => trivial, fun _ =>
        ⟨fun _ => isSound_put, fun _ => keepsSound_fail⟩⟩⟩⟩

theorem keepsSound_stepEnded (h : st.mode.IsSound) : KeepsSound (st.stepEnded c) := by
  unfold State.stepEnded
  split
  · exact keepsSound_stepAfter h
  · exact keepsSound_ok.mpr h

theorem keepsSound_step (h : st.mode.IsSound) : KeepsSound (st.step c) := by
  obtain ⟨line, done, mode⟩ := st
  cases mode with
  | idle => exact keepsSound_stepIdle h
  | comment =>
    simp only [State.step, keepsSound_ok]
    split <;> trivial
  | key n text =>
    simp only [State.step, keepsSound_ite, keepsSound_ok]
    exact ⟨fun _ => trivial, fun _ => keepsSound_stepAfterKey⟩
  | afterKey n key => exact keepsSound_stepAfterKey
  | before slot => exact keepsSound_stepBefore h
  | word slot text =>
    simp only [State.step, keepsSound_ite, keepsSound_ok]
    refine ⟨fun _ => trivial, fun _ => ?_⟩
    exact endsIn_bind (endsIn_endWord fun _ => isSound_put) fun _ => keepsSound_stepEnded
  | integer slot sign digits =>
    simp only [State.step, keepsSound_ite, keepsSound_ok]
    refine ⟨fun _ => trivial, fun _ => ?_⟩
    exact endsIn_bind (endsIn_endInteger fun _ => isSound_put) fun _ => keepsSound_stepEnded
  | string slot quote n text =>
    simp only [State.step, keepsSound_ite, keepsSound_ok]
    exact ⟨fun _ => keepsSound_error, fun _ => ⟨fun _ => isSound_put, fun _ =>
      ⟨fun _ => h, fun _ => h⟩⟩⟩
  | escape slot quote n text =>
    simp only [State.step, keepsSound_ite, keepsSound_ok]
    exact ⟨fun _ => keepsSound_error, fun _ => h⟩
  | after slot => exact keepsSound_stepAfter h
  | innerComment slot isAfter =>
    simp only [State.step, keepsSound_ok]
    split
    · cases isAfter <;> trivial
    · exact h

end ListfileSettings.Assignment
