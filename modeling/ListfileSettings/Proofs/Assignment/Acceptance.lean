import ListfileSettings.Proofs.Assignment.Invariant

/-!
# Accepted settings texts

A run of the reader takes all characters of a text, one at a time, and at the end nothing may be
left. So the reader accepts the texts of the grammar, with the assignments they denote.
-/
namespace ListfileSettings.Assignment

open Grammar

variable {as done : List Assignment} {line keyLine : Nat} {slot : Slot} {cs : List Char}
  {st : State}

/-! ### The end of the text -/

theorem valueLeft_nil {key : String} {ls : List OpenSequence} {v : Literal} :
    ValueLeft as done key keyLine ls v line [] ↔ ls = [] ∧ as = done ++ [⟨key, v, keyLine⟩] := by
  cases ls with
  | nil => simp [ValueLeft, trailerLeft_nil]
  | cons l ls => simp [ValueLeft, not_itemsLeft_nil]

theorem finishEnded_put {v : Literal} : (st.put slot v).finishEnded = .ok as ↔
    slot.sequences = [] ∧ as = st.done ++ [⟨slot.key, v, slot.line⟩] := by
  unfold State.put
  split
  · next h => simp [State.finishEnded, State.finishSlot, h, eq_comm]
  · next l ls h => simp [State.finishEnded, State.finishSlot, h]

theorem finishSlot_done : State.finishSlot slot (.ok done) = .ok as ↔ AfterLeft as done slot line [] := by
  cases hs : slot.sequences with
  | nil => simp [State.finishSlot, AfterLeft, trailerLeft_nil, hs, eq_comm]
  | cons l ls => simp [State.finishSlot, AfterLeft, not_itemsLeft_nil, hs]

theorem remains_nil (h : st.mode.IsSound) : Remains as st [] ↔ st.finish = .ok as := by
  obtain ⟨line, done, mode⟩ := st
  cases mode with
  | idle => simp [State.finish, linesLeft_nil, eq_comm]
  | comment => simp [State.finish, commentLeft_nil, eq_comm]
  | key n text => simp [State.finish, not_keyLeft_nil]
  | afterKey n key => simp [State.finish, not_afterKeyLeft_nil]
  | before slot =>
    simp only [remains_before, State.finish, not_beforeLeft_nil, false_iff]
    unfold State.finishSlot
    split <;> simp
  | word slot text =>
    simp only [remains_word, WordLeft, exists_append_nil, State.finish, bind_eq_ok, valueLeft_nil,
      endWord_eq_ok_iff, List.append_nil]
    constructor
    · intro h
      obtain ⟨-, b, hw, h⟩ := h
      exact ⟨_, ⟨b, hw, rfl⟩, finishEnded_put.mpr h⟩
    · intro h
      obtain ⟨_, ⟨b, hw, rfl⟩, h⟩ := h
      exact ⟨by simp, b, hw, finishEnded_put.mp h⟩
  | integer slot sign digits =>
    simp only [remains_integer, IntegerLeft, exists_append_nil, State.finish, bind_eq_ok,
      valueLeft_nil, endInteger_eq_ok_iff, List.append_nil, String.ofList_toList]
    constructor
    · intro h
      obtain ⟨-, hg, h⟩ := h
      exact ⟨_, ⟨hg, by simp, rfl⟩, finishEnded_put.mpr h⟩
    · intro h
      obtain ⟨_, ⟨hg, -, rfl⟩, h⟩ := h
      exact ⟨by simp, hg, finishEnded_put.mp h⟩
  | string slot quote n text => simp [State.finish, not_stringLeft_nil]
  | escape slot quote n text => simp [State.finish, not_escapeLeft_nil]
  | after slot => exact finishSlot_done.symm
  | innerComment slot isAfter =>
    obtain ⟨l, ls, hs⟩ := List.exists_cons_of_ne_nil h
    simp [InnerCommentLeft, State.finish, State.finishSlot, hs]

/-! ### Runs -/

theorem run_cons (c : Char) : st.run (c :: cs) = st.step c >>= fun st => st.run cs := by
  simp [State.run]

/-- The reader ends a text with the assignments that what is left of it describes. -/
theorem run_finish_iff (hq : st.mode.IsSound) :
    (st.run cs >>= State.finish) = .ok as ↔ Remains as st cs := by
  induction cs generalizing st with
  | nil => exact (remains_nil hq).symm
  | cons c cs ih =>
    rw [remains_cons hq, run_cons, bind_assoc, bind_eq_ok]
    constructor
    · intro h
      obtain ⟨st', hs, h⟩ := h
      exact ⟨st', hs, (ih (keepsSound_step hq st' hs)).mp h⟩
    · intro h
      obtain ⟨st', hs, h⟩ := h
      exact ⟨st', hs, (ih (keepsSound_step hq st' hs)).mpr h⟩

theorem readChars_eq_ok_iff : readChars cs = .ok as ↔ Lines 1 cs as := by
  have hq : State.start.mode.IsSound := trivial
  rw [readChars, run_finish_iff hq]
  simp [State.start, LinesLeft]

/-- A byte order mark starts no line. -/
theorem not_lines_mark : ¬ Lines line ('\uFEFF' :: cs) as := by
  intro h
  have hl : LinesLeft as [] line ('\uFEFF' :: cs) := ⟨as, h, rfl⟩
  rcases linesLeft_cons.mp hl with ⟨hc, -⟩ | ⟨hc, -⟩ | ⟨hc, -⟩ | ⟨hc, -⟩
  · rw [← isBlank_iff] at hc
    contradiction
  · cases hc
  · cases hc
  · rw [← isKeyStart_iff] at hc
    contradiction

theorem dropMark_of_lines (h : Lines line cs as) : dropMark cs = cs := by
  unfold dropMark
  split
  · exact absurd h not_lines_mark
  · rfl

theorem read_eq_ok_iff_lines {text : String} :
    read text = .ok as ↔ Lines 1 (dropMark text.toList) as := readChars_eq_ok_iff

theorem read_of_lines {cs : List Char} {as : List Assignment} (h : Lines 1 cs as) :
    read (String.ofList cs) = .ok as := by
  rw [read_eq_ok_iff_lines, String.toList_ofList, dropMark_of_lines h]
  exact h

/-- The reader accepts the texts of the grammar, with the assignments they denote. -/
theorem read_eq_ok_iff_denotes (text : String) (as : List Assignment) :
    read text = .ok as ↔ Denotes text as := by
  rw [read_eq_ok_iff_lines]
  constructor
  · intro h
    refine ⟨_, h, ?_⟩
    unfold dropMark
    split
    · next he => exact .inr he
    · exact .inl rfl
  · intro h
    obtain ⟨t, h, rfl | he⟩ := h
    · rwa [dropMark_of_lines h]
    · rwa [he, dropMark]

end ListfileSettings.Assignment
