import ListfileSettings.Proofs.Assignment.Append

/-!
# Carriage returns before line breaks

To the reader a carriage return is a blank, a part of a comment, or a part of a string that the line
break after it cuts off. So a text is read alike with and without them before its line breaks.
-/
namespace ListfileSettings.Assignment

variable {st : State} {slot : Slot} {c : Char} {cs : List Char}

/-! ### One line break -/

theorem return_stepAfter (h : st.mode = .after slot) :
    (st.stepAfter slot '\r' >>= fun st => st.step '\n') = st.stepAfter slot '\n' := by
  obtain ⟨line, done, mode⟩ := st
  obtain rfl : mode = .after slot := h
  rfl

theorem return_stepEnded {v : Literal} :
    ((st.put slot v).stepEnded '\r' >>= fun st => st.step '\n') = (st.put slot v).stepEnded '\n' := by
  obtain ⟨key, line, _ | ⟨l, ls⟩⟩ := slot <;> rfl

theorem return_endWord {text : String} :
    ((st.endWord slot text >>= fun st => st.stepEnded '\r') >>= fun st => st.step '\n') =
      st.endWord slot text >>= fun st => st.stepEnded '\n' := by
  rw [bind_assoc]
  refine bind_congr_of_ok fun st' h => ?_
  obtain ⟨b, -, rfl⟩ := endWord_eq_ok_iff.mp h
  exact return_stepEnded

/-- A carriage return ends an integer for the same reason as a line break: neither is a part of it. -/
theorem return_endInteger {sign digits : String} :
    ((st.endInteger slot sign digits (some '\r') >>= fun st => st.stepEnded '\r') >>=
        fun st => st.step '\n') =
      st.endInteger slot sign digits (some '\n') >>= fun st => st.stepEnded '\n' := by
  have hn : st.endInteger slot sign digits (some '\r') = st.endInteger slot sign digits (some '\n') :=
    rfl
  rw [bind_assoc, hn]
  refine bind_congr_of_ok fun st' h => ?_
  obtain ⟨-, -, rfl⟩ := endInteger_eq_ok_iff.mp h
  exact return_stepEnded

/-- A carriage return makes no difference to the line break after it. -/
theorem return_step (h : st.mode.IsSound) :
    (st.step '\r' >>= fun st => st.step '\n') = st.step '\n' := by
  obtain ⟨line, done, mode⟩ := st
  cases mode with
  | word slot text => exact return_endWord
  | integer slot sign digits => exact return_endInteger
  | string slot quote stringLine text =>
    -- The line break cuts off the string with the carriage return, which is no quote.
    rcases h with rfl | rfl <;> rfl
  | after slot => exact return_stepAfter rfl
  | _ => rfl

/-! ### Texts -/

def withReturn (c : Char) : List Char := if c = '\n' then ['\r', '\n'] else [c]

/-- The text with a carriage return before each line break. -/
def withReturns (text : String) : String := String.ofList (text.toList.flatMap withReturn)

theorem run_withReturn (h : st.mode.IsSound) : st.run (withReturn c) = st.step c := by
  unfold withReturn
  split
  · next hc =>
    rw [hc, ← return_step h]
    simp [State.run]
  · simp [State.run]

theorem run_withReturns (h : st.mode.IsSound) : st.run (cs.flatMap withReturn) = st.run cs := by
  induction cs generalizing st with
  | nil => rfl
  | cons c cs ih =>
    rw [List.flatMap_cons, State.run_append, run_withReturn h, run_cons]
    exact bind_congr_of_ok fun st' hs => ih (keepsSound_step h st' hs)

theorem dropMark_withReturns :
    dropMark (cs.flatMap withReturn) = (dropMark cs).flatMap withReturn := by
  cases cs with
  | nil => rfl
  | cons c cs =>
    by_cases hc : c = '\uFEFF'
    · subst hc
      rfl
    · have hd : (withReturn c ++ cs.flatMap withReturn).head? ≠ some '\uFEFF' := by
        unfold withReturn
        split
        · exact fun h => absurd (Option.some.inj h) (by decide)
        · exact fun h => hc (Option.some.inj h)
      rw [dropMark_cons hc, List.flatMap_cons, dropMark_of_head hd]

/-- A text is read alike with a carriage return before each line break, to the same assignments or
to the same fault on the same line. -/
theorem read_withReturns (text : String) : read (withReturns text) = read text := by
  unfold read withReturns
  rw [String.toList_ofList, dropMark_withReturns, readChars, run_withReturns isSound_start]
  rfl

end ListfileSettings.Assignment
