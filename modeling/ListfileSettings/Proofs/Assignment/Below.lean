import ListfileSettings.Proofs.Assignment.Acceptance

/-!
# Reading further down

The reader does not look at the number of a line, nor at the assignments that it has read. From a
state that is further down it takes the same steps to the same end, with the lines moved.
-/
namespace ListfileSettings.Assignment

/-! ### Further down -/

def down (n : Nat) (a : Assignment) : Assignment := { a with line := a.line + n }

def Malformed.down (n : Nat) (m : Malformed) : Malformed := { m with line := m.line + n }

def OpenSequence.down (n : Nat) (l : OpenSequence) : OpenSequence := { l with line := l.line + n }

def Slot.down (n : Nat) (slot : Slot) : Slot :=
  { slot with line := slot.line + n, sequences := slot.sequences.map (·.down n) }

def Mode.down (n : Nat) : Mode → Mode
  | .idle => .idle
  | .comment => .comment
  | .key line text => .key (line + n) text
  | .afterKey line name => .afterKey (line + n) name
  | .before slot => .before (slot.down n)
  | .word slot text => .word (slot.down n) text
  | .integer slot sign digits => .integer (slot.down n) sign digits
  | .string slot quote line text => .string (slot.down n) quote (line + n) text
  | .escape slot quote line text => .escape (slot.down n) quote (line + n) text
  | .after slot => .after (slot.down n)
  | .innerComment slot isAfter => .innerComment (slot.down n) isAfter

/-- The state below `n` lines that make the assignments `as`. -/
def State.below (as : List Assignment) (n : Nat) (st : State) : State :=
  ⟨st.line + n, as ++ st.done.map (down n), st.mode.down n⟩

variable {α β γ δ : Type} {n line : Nat} {f : α → β} {as : List Assignment} {st : State}
  {slot : Slot} {c : Char}

@[simp] theorem Slot.sequences_down :
    (slot.down n).sequences = slot.sequences.map (·.down n) := rfl

def outcomeDown (n : Nat) (f : α → β) : Except Malformed α → Except Malformed β
  | .ok a => .ok (f a)
  | .error m => .error (m.down n)

theorem outcomeDown_ite {p : Prop} [Decidable p] {x y : Except Malformed α} :
    outcomeDown n f (if p then x else y) = if p then outcomeDown n f x else outcomeDown n f y :=
  apply_ite (outcomeDown n f) p x y

theorem ite_outcomeDown {p : Prop} [Decidable p] {x y : Except Malformed α}
    {x' y' : Except Malformed β} (hx : x' = outcomeDown n f x) (hy : y' = outcomeDown n f y) :
    (if p then x' else y') = outcomeDown n f (if p then x else y) := by
  rw [outcomeDown_ite, hx, hy]

theorem outcomeDown_bind {g : γ → δ} {k : α → Except Malformed γ} {k' : β → Except Malformed δ}
    (h : ∀ a, k' (f a) = outcomeDown n g (k a)) (x : Except Malformed α) :
    outcomeDown n f x >>= k' = outcomeDown n g (x >>= k) := by
  cases x with
  | error m => rfl
  | ok a => exact h a

namespace State

/-! ### Steps -/

theorem nextLine_below : (st.below as n).nextLine = st.nextLine.below as n :=
  congrArg (State.mk · _ _) (Nat.add_right_comm ..)

theorem put_below (slot : Slot) (v : Literal) :
    (st.below as n).put (slot.down n) v = (st.put slot v).below as n := by
  obtain ⟨key, line, _ | ⟨l, ls⟩⟩ := slot
  · have hd : as ++ (st.done ++ [(⟨key, v, line⟩ : Assignment)]).map (down n) =
        as ++ st.done.map (down n) ++ [(⟨key, v, line + n⟩ : Assignment)] := by
      rw [List.map_append, ← List.append_assoc]
      rfl
    exact congrArg (State.mk _ · _) hd.symm
  · rfl

theorem close_below {l : OpenSequence} {ls : List OpenSequence} :
    (st.below as n).close (slot.down n) (l.down n) (ls.map (·.down n)) =
      (st.close slot l ls).below as n :=
  put_below { slot with sequences := ls } (.sequence l.items)

theorem startValue_below : (st.below as n).startValue (slot.down n) c =
    outcomeDown n (below as n) (st.startValue slot c) := by
  simp only [startValue, outcomeDown_ite]
  rfl

theorem stepIdle_below : (st.below as n).stepIdle c = outcomeDown n (below as n) (st.stepIdle c) := by
  simp only [stepIdle, outcomeDown_ite, nextLine_below]
  rfl

theorem stepAfterKey_below {key : String} : (st.below as n).stepAfterKey (line + n) key c =
    outcomeDown n (below as n) (st.stepAfterKey line key c) := by
  simp only [stepAfterKey, outcomeDown_ite]
  rfl

theorem stepBefore_below : (st.below as n).stepBefore (slot.down n) c =
    outcomeDown n (below as n) (st.stepBefore slot c) := by
  unfold stepBefore
  rw [Slot.sequences_down, outcomeDown_ite]
  cases slot.sequences with
  | nil =>
    rw [List.map_nil]
    dsimp only
    rw [startValue_below]
    rfl
  | cons l ls =>
    rw [List.map_cons]
    simp only [outcomeDown_ite, nextLine_below, close_below, startValue_below]
    rfl

theorem stepAfter_below : (st.below as n).stepAfter (slot.down n) c =
    outcomeDown n (below as n) (st.stepAfter slot c) := by
  unfold stepAfter
  rw [Slot.sequences_down, outcomeDown_ite]
  cases slot.sequences with
  | nil =>
    rw [List.map_nil]
    simp only [outcomeDown_ite, nextLine_below]
    rfl
  | cons l ls =>
    rw [List.map_cons]
    simp only [outcomeDown_ite, nextLine_below, close_below]
    rfl

theorem stepEnded_below :
    (st.below as n).stepEnded c = outcomeDown n (below as n) (st.stepEnded c) := by
  obtain ⟨line, done, mode⟩ := st
  cases mode with
  | after slot => exact stepAfter_below
  | _ => rfl

theorem bind_stepEnded_below (x : Except Malformed State) :
    (outcomeDown n (below as n) x >>= fun st => st.stepEnded c) =
      outcomeDown n (below as n) (x >>= fun st => st.stepEnded c) := by
  refine outcomeDown_bind (fun st => ?_) x
  exact stepEnded_below

theorem endWord_below {text : String} : (st.below as n).endWord (slot.down n) text =
    outcomeDown n (below as n) (st.endWord slot text) := by
  simp only [endWord, outcomeDown_ite, put_below]
  rfl

theorem endInteger_below {sign digits : String} {next : Option Char} :
    (st.below as n).endInteger (slot.down n) sign digits next =
      outcomeDown n (below as n) (st.endInteger slot sign digits next) := by
  cases next <;> simp only [endInteger, outcomeDown_ite, put_below] <;> rfl

theorem step_below (as : List Assignment) (n : Nat) (st : State) (c : Char) :
    (st.below as n).step c = outcomeDown n (below as n) (st.step c) := by
  obtain ⟨line, done, mode⟩ := st
  cases mode with
  | idle => exact stepIdle_below
  | comment =>
    change Except.ok (if c = '\n' then _ else _) =
      Except.ok (below as n (if c = '\n' then _ else _))
    rw [nextLine_below, apply_ite (below as n)]
    rfl
  | key keyLine text => exact ite_outcomeDown rfl stepAfterKey_below
  | afterKey keyLine key => exact stepAfterKey_below
  | before slot => exact stepBefore_below
  | word slot text =>
    refine ite_outcomeDown rfl ?_
    rw [← bind_stepEnded_below, ← endWord_below]
  | integer slot sign digits =>
    refine ite_outcomeDown rfl ?_
    rw [← bind_stepEnded_below, ← endInteger_below]
  | string slot quote stringLine text =>
    refine ite_outcomeDown rfl (ite_outcomeDown ?_ (ite_outcomeDown rfl rfl))
    exact congrArg Except.ok (put_below slot (.string text))
  | escape slot quote stringLine text => exact ite_outcomeDown rfl rfl
  | after slot => exact stepAfter_below
  | innerComment slot isAfter =>
    change Except.ok (if c = '\n' then _ else _) =
      Except.ok (below as n (if c = '\n' then _ else _))
    rw [nextLine_below, apply_ite (below as n)]
    cases isAfter <;> rfl

theorem run_below (as : List Assignment) (n : Nat) (st : State) (cs : List Char) :
    (st.below as n).run cs = outcomeDown n (below as n) (st.run cs) := by
  induction cs generalizing st with
  | nil => rfl
  | cons c cs ih =>
    rw [run_cons, run_cons, step_below]
    exact outcomeDown_bind ih (st.step c)

/-! ### The end -/

def assignmentsBelow (as : List Assignment) (n : Nat) (bs : List Assignment) : List Assignment :=
  as ++ bs.map (down n)

theorem finishSlot_below (x : Except Malformed (List Assignment)) :
    finishSlot (slot.down n) (outcomeDown n (assignmentsBelow as n) x) =
      outcomeDown n (assignmentsBelow as n) (finishSlot slot x) := by
  unfold finishSlot
  rw [Slot.sequences_down]
  cases slot.sequences <;> rfl

theorem bind_finishEnded_below (x : Except Malformed State) :
    (outcomeDown n (below as n) x >>= finishEnded) =
      outcomeDown n (assignmentsBelow as n) (x >>= finishEnded) := by
  refine outcomeDown_bind (fun st => ?_) x
  obtain ⟨line, done, mode⟩ := st
  cases mode with
  | after slot => exact finishSlot_below (.ok done)
  | _ => rfl

theorem finish_below (as : List Assignment) (n : Nat) (st : State) :
    (st.below as n).finish = outcomeDown n (assignmentsBelow as n) st.finish := by
  obtain ⟨line, done, mode⟩ := st
  cases mode with
  | before slot => exact finishSlot_below (.error ⟨line, .expectedValue⟩)
  | word slot text =>
    change endWord _ _ _ >>= finishEnded = outcomeDown n _ (endWord _ _ _ >>= finishEnded)
    rw [← bind_finishEnded_below, ← endWord_below]
  | integer slot sign digits =>
    change endInteger _ _ _ _ _ >>= finishEnded =
      outcomeDown n _ (endInteger _ _ _ _ _ >>= finishEnded)
    rw [← bind_finishEnded_below, ← endInteger_below]
  | after slot => exact finishSlot_below (.ok done)
  | innerComment slot => exact finishSlot_below (.ok done)
  | _ => rfl

end State

end ListfileSettings.Assignment
