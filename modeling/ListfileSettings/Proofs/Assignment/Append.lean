import ListfileSettings.Proofs.Assignment.Below

/-!
# Reading line by line

After a line break nothing is open but a sequence, so a text of whole lines and what comes after it
are read one after the other. The errors of the first text but one are found before its end.
-/
namespace ListfileSettings.Assignment

variable {st : State} {slot : Slot} {c : Char} {cs ds : List Char} {as : List Assignment}

/-! ### Within a line -/

theorem line_put {v : Literal} : (st.put slot v).line = st.line := by
  unfold State.put
  split <;> rfl

theorem line_startValue : EndsIn (·.line = st.line) (st.startValue slot c) := by
  simp [State.startValue, endsIn_ite, endsIn_ok, endsIn_fail]

theorem line_stepIdle (hc : c ≠ '\n') : EndsIn (·.line = st.line) (st.stepIdle c) := by
  simp [State.stepIdle, hc, endsIn_ite, endsIn_ok, endsIn_fail]

theorem line_stepAfterKey {line : Nat} {key : String} :
    EndsIn (·.line = st.line) (st.stepAfterKey line key c) := by
  simp [State.stepAfterKey, endsIn_ite, endsIn_ok, endsIn_error]

theorem line_stepBefore (hc : c ≠ '\n') : EndsIn (·.line = st.line) (st.stepBefore slot c) := by
  unfold State.stepBefore
  split
  · exact endsIn_ok.mpr rfl
  · split
    · exact line_startValue
    · simp [endsIn_ite, endsIn_ok, State.close, line_put, line_startValue]

theorem line_stepAfter (hc : c ≠ '\n') : EndsIn (·.line = st.line) (st.stepAfter slot c) := by
  unfold State.stepAfter
  split
  · exact endsIn_ok.mpr rfl
  · split <;> simp [endsIn_ite, endsIn_ok, endsIn_fail, State.close, line_put]

theorem line_stepEnded (hc : c ≠ '\n') : EndsIn (·.line = st.line) (st.stepEnded c) := by
  unfold State.stepEnded
  split
  · exact line_stepAfter hc
  · exact endsIn_ok.mpr rfl

theorem line_step (hc : c ≠ '\n') : EndsIn (·.line = st.line) (st.step c) := by
  have he : ∀ st' : State, st'.line = st.line → EndsIn (·.line = st.line) (st'.stepEnded c) :=
    fun st' h => h ▸ line_stepEnded hc
  obtain ⟨line, done, mode⟩ := st
  cases mode with
  | idle => exact line_stepIdle hc
  | comment => exact endsIn_ok.mpr (by rw [if_neg hc])
  | key keyLine text => exact endsIn_ite.mpr ⟨fun _ => endsIn_ok.mpr rfl, fun _ => line_stepAfterKey⟩
  | afterKey keyLine key => exact line_stepAfterKey
  | before slot => exact line_stepBefore hc
  | word slot text =>
    refine endsIn_ite.mpr ⟨fun _ => endsIn_ok.mpr rfl, fun _ => ?_⟩
    exact endsIn_bind (endsIn_endWord fun _ => line_put) he
  | integer slot sign digits =>
    refine endsIn_ite.mpr ⟨fun _ => endsIn_ok.mpr rfl, fun _ => ?_⟩
    exact endsIn_bind (endsIn_endInteger fun _ => line_put) he
  | string slot quote stringLine text =>
    simp [State.step, hc, endsIn_ite, endsIn_ok, line_put]
  | escape slot quote stringLine text =>
    simp [State.step, hc, endsIn_ok]
  | after slot => exact line_stepAfter hc
  | innerComment slot isAfter => exact endsIn_ok.mpr (by rw [if_neg hc])

/-! ### Line breaks -/

/-- Where the reader is after a line break: between assignments or in an open sequence. -/
def Mode.IsBreak : Mode → Prop
  | .idle => True
  | .before slot | .after slot => slot.sequences ≠ []
  | _ => False

/-- The state at the start of the line after another one. -/
def StartsLineAfter (line : Nat) (st : State) : Prop := st.line = line + 1 ∧ st.mode.IsBreak

theorem break_stepAfter (h : st.mode = .after slot) :
    EndsIn (StartsLineAfter st.line) (st.stepAfter slot '\n') := by
  obtain ⟨key, line, _ | ⟨l, ls⟩⟩ := slot
  · exact endsIn_ok.mpr ⟨rfl, trivial⟩
  · refine endsIn_ok.mpr ⟨rfl, ?_⟩
    change st.mode.IsBreak
    rw [h]
    exact List.cons_ne_nil l ls

theorem break_stepEnded {v : Literal} :
    EndsIn (StartsLineAfter st.line) ((st.put slot v).stepEnded '\n') := by
  obtain ⟨key, line, _ | ⟨l, ls⟩⟩ := slot
  · exact endsIn_ok.mpr ⟨rfl, trivial⟩
  · exact endsIn_ok.mpr ⟨rfl, List.cons_ne_nil _ ls⟩

theorem break_stepBefore (h : st.mode = .before slot) :
    EndsIn (StartsLineAfter st.line) (st.stepBefore slot '\n') := by
  obtain ⟨key, line, _ | ⟨l, ls⟩⟩ := slot
  · exact endsIn_error
  · refine endsIn_ok.mpr ⟨rfl, ?_⟩
    change st.mode.IsBreak
    rw [h]
    exact List.cons_ne_nil l ls

/-- A line break ends whatever is on the line: what is still open then is a sequence. -/
theorem break_step (h : st.mode.IsSound) : EndsIn (StartsLineAfter st.line) (st.step '\n') := by
  have he : ∀ (slot : Slot) (st' : State), (∃ v, st' = st.put slot v) →
      EndsIn (StartsLineAfter st.line) (st'.stepEnded '\n') := by
    intro slot st' hv
    obtain ⟨v, rfl⟩ := hv
    exact break_stepEnded
  obtain ⟨line, done, mode⟩ := st
  cases mode with
  | idle => exact endsIn_ok.mpr ⟨rfl, trivial⟩
  | comment => exact endsIn_ok.mpr ⟨rfl, trivial⟩
  | key keyLine text => exact endsIn_error
  | afterKey keyLine key => exact endsIn_error
  | before slot => exact break_stepBefore rfl
  | word slot text => exact endsIn_bind (endsIn_endWord fun v => ⟨v, rfl⟩) (he slot)
  | integer slot sign digits => exact endsIn_bind (endsIn_endInteger fun v => ⟨v, rfl⟩) (he slot)
  | string slot quote stringLine text => exact endsIn_error
  | escape slot quote stringLine text => exact endsIn_error
  | after slot => exact break_stepAfter rfl
  | innerComment slot isAfter => cases isAfter <;> exact endsIn_ok.mpr ⟨rfl, h⟩

/-! ### Runs -/

theorem isSound_start : State.start.mode.IsSound := trivial

theorem isSound_run (h : st.mode.IsSound) : EndsIn (·.mode.IsSound) (st.run cs) := by
  induction cs generalizing st with
  | nil => exact endsIn_ok.mpr h
  | cons c cs ih =>
    rw [run_cons]
    exact endsIn_bind (keepsSound_step h) fun st' => ih

theorem line_step_eq (h : st.mode.IsSound) :
    EndsIn (·.line = st.line + [c].count '\n') (st.step c) := by
  intro st' hs
  by_cases hc : c = '\n'
  · subst hc
    exact (break_step h st' hs).1
  · rw [List.count_eq_zero.mpr (mt List.mem_singleton.mp (Ne.symm hc))]
    exact line_step hc st' hs

theorem line_run (h : st.mode.IsSound) :
    EndsIn (·.line = st.line + cs.count '\n') (st.run cs) := by
  induction cs generalizing st with
  | nil => exact endsIn_ok.mpr rfl
  | cons c cs ih =>
    rw [run_cons]
    intro st' hs
    obtain ⟨st₁, h₁, hs⟩ := bind_eq_ok.mp hs
    have hl := line_step_eq h st₁ h₁
    have hr := ih (keepsSound_step h st₁ h₁) st' hs
    rwa [hl, Nat.add_assoc, ← List.count_append] at hr

/-- A text that is empty or ends with a line break. -/
def EndsLine (cs : List Char) : Prop := cs = [] ∨ cs.getLast? = some '\n'

theorem isBreak_run (h : EndsLine cs) : EndsIn (·.mode.IsBreak) (State.start.run cs) := by
  rcases h with rfl | h
  · exact endsIn_ok.mpr trivial
  · obtain ⟨ds, rfl⟩ := List.getLast?_eq_some_iff.mp h
    intro st hs
    rw [State.run_append] at hs
    obtain ⟨st₁, h₁, hs⟩ := bind_eq_ok.mp hs
    rw [run_cons] at hs
    obtain ⟨st₂, h₂, hs⟩ := bind_eq_ok.mp hs
    obtain rfl : st₂ = st := Except.ok.inj hs
    exact (break_step (isSound_run isSound_start st₁ h₁) st₂ h₂).2

theorem finish_of_isBreak (h : st.mode.IsBreak) :
    st.mode = .idle ∧ st.finish = .ok st.done ∨
      ∃ line, st.finish = .error ⟨line, .unclosedSequence⟩ := by
  obtain ⟨line, done, mode⟩ := st
  cases mode with
  | idle => exact .inl ⟨rfl, rfl⟩
  | before slot =>
    obtain ⟨l, ls, hs⟩ := List.exists_cons_of_ne_nil h
    exact .inr ⟨l.line, by simp [State.finish, State.finishSlot, hs]⟩
  | after slot =>
    obtain ⟨l, ls, hs⟩ := List.exists_cons_of_ne_nil h
    exact .inr ⟨l.line, by simp [State.finish, State.finishSlot, hs]⟩
  | _ => exact h.elim

/-! ### Texts -/

theorem readChars_append_of_ok (h : EndsLine cs) (ha : readChars cs = .ok as) :
    readChars (cs ++ ds) =
      outcomeDown (cs.count '\n') (State.assignmentsBelow as (cs.count '\n')) (readChars ds) := by
  obtain ⟨st, hs, hf⟩ := bind_eq_ok.mp ha
  -- The reader is where it starts, but for the lines and the assignments behind it.
  have hl := line_run isSound_start st hs
  rcases finish_of_isBreak (isBreak_run h st hs) with ⟨hi, hd⟩ | ⟨line, he⟩
  · have hst : st = State.start.below as (cs.count '\n') := by
      obtain ⟨line, done, mode⟩ := st
      obtain rfl : done = as := Except.ok.inj (hd.symm.trans hf)
      dsimp only at hi hl
      subst hi hl
      simp [State.below, State.start, Mode.down]
    rw [readChars, State.run_append, hs]
    change st.run ds >>= State.finish = _
    rw [hst, State.run_below, readChars]
    exact outcomeDown_bind (State.finish_below _ _) _
  · rw [he] at hf
    cases hf

/-- The error is found before the text ends, so what comes after it is not looked at. -/
theorem readChars_append_of_error {m : Malformed} (h : EndsLine cs) (he : readChars cs = .error m)
    (hm : m.cause ≠ .unclosedSequence) : readChars (cs ++ ds) = .error m := by
  rcases bind_eq_error_iff.mp he with hs | ⟨st, hs, hf⟩
  · rw [readChars, State.run_append, hs]
    rfl
  · rcases finish_of_isBreak (isBreak_run h st hs) with ⟨-, hd⟩ | ⟨line, hu⟩
    · rw [hd] at hf
      cases hf
    · rw [hu] at hf
      obtain rfl := Except.error.inj hf
      exact absurd rfl hm

/-! ### Byte order marks -/

theorem dropMark_cons (hc : c ≠ '\uFEFF') : dropMark (c :: cs) = c :: cs := by
  unfold dropMark
  split
  · next h => exact absurd (List.cons.inj h).1 hc
  · rfl

theorem dropMark_of_head (h : ds.head? ≠ some '\uFEFF') : dropMark ds = ds := by
  cases ds with
  | nil => rfl
  | cons c cs => exact dropMark_cons fun hc => h (congrArg some hc)

theorem dropMark_append_of_ne_nil (h : cs ≠ []) : dropMark (cs ++ ds) = dropMark cs ++ ds := by
  obtain ⟨c, cs, rfl⟩ := List.exists_cons_of_ne_nil h
  by_cases hc : c = '\uFEFF'
  · subst hc
    rfl
  · rw [List.cons_append, dropMark_cons hc, dropMark_cons hc]
    rfl

theorem dropMark_eq_or (cs : List Char) : cs = dropMark cs ∨ cs = '\uFEFF' :: dropMark cs := by
  unfold dropMark
  split
  · exact .inr rfl
  · exact .inl rfl

theorem count_newline_dropMark (cs : List Char) : (dropMark cs).count '\n' = cs.count '\n' := by
  rcases dropMark_eq_or cs with h | h
  · rw [← h]
  · conv => rhs; rw [h]
    exact (List.count_cons_of_ne (by decide)).symm

theorem endsLine_dropMark (h : EndsLine cs) : EndsLine (dropMark cs) := by
  rcases dropMark_eq_or cs with he | he
  · rwa [← he]
  · cases hd : dropMark cs with
    | nil => exact .inl rfl
    | cons d ds =>
      rw [he, hd, EndsLine, List.getLast?_cons_cons] at h
      exact .inr (h.resolve_left (List.cons_ne_nil _ _))

/-- A text that ends a line does so without its mark, which is no line break. -/
theorem dropMark_append (h : EndsLine cs) (hd : ds.head? ≠ some '\uFEFF') :
    dropMark (cs ++ ds) = dropMark cs ++ ds ∧ EndsLine (dropMark cs) ∧
      (dropMark cs).count '\n' = cs.count '\n' := by
  refine ⟨?_, endsLine_dropMark h, count_newline_dropMark cs⟩
  by_cases hc : cs = []
  · rw [hc]
    exact dropMark_of_head hd
  · exact dropMark_append_of_ne_nil hc

/-- Reading goes on after a text that ends a line: the assignments of the rest come after those of the
text, and its error is the error of both, each with the lines of the text added. If the text itself
has an error that is not about the end of a sequence, the rest plays no part. -/
theorem read_append (a b : String) (ha : EndsLine a.toList) (hb : b.toList.head? ≠ some '\uFEFF') :
    (∀ as bs, read a = .ok as → read b = .ok bs →
      read (a ++ b) = .ok (as ++ bs.map (down (a.toList.count '\n')))) ∧
    (∀ as m, read a = .ok as → read b = .error m →
      read (a ++ b) = .error (m.down (a.toList.count '\n'))) ∧
    ∀ m, read a = .error m → m.cause.message ≠ "unclosed '['" → read (a ++ b) = .error m := by
  -- The mark of the first text is the only one: the second text starts inside the whole.
  obtain ⟨hd, hl, hn⟩ := dropMark_append ha hb
  unfold read
  rw [String.toList_append, hd, dropMark_of_head hb, ← hn]
  refine ⟨fun as bs hx hy => ?_, fun as m hx hy => ?_, fun m hx hm => ?_⟩
  · rw [readChars_append_of_ok hl hx, hy]
    rfl
  · rw [readChars_append_of_ok hl hx, hy]
    rfl
  · exact readChars_append_of_error hl hx fun hc => hm (congrArg Cause.message hc)

theorem read_append_missing_equals :
    read ("tab_size = 4\n" ++ "line_width\n") = .error ⟨2, .expectedEquals "line_width"⟩ :=
  (read_append "tab_size = 4\n" "line_width\n" (.inr rfl) (by decide)).2.1
    [⟨"tab_size", .integer (.ofUInt32 4), 1⟩] ⟨1, .expectedEquals "line_width"⟩ rfl rfl

end ListfileSettings.Assignment
