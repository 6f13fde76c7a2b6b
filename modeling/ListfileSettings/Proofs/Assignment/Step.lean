import ListfileSettings.Proofs.Assignment.Remainder
import ListfileSettings.Proofs.Except

/-!
# One step of the reader

A step of the reader takes one character off what is left of the text: what is left before the
step and what is left after it describe the same assignments.
-/
namespace ListfileSettings.Assignment

open Grammar

variable {as done : List Assignment} {line keyLine : Nat} {slot : Slot} {c : Char}
  {cs : List Char} {st : State}

/-! ### States and what remains -/

section Remains

@[simp] theorem remains_idle :
    Remains as ⟨line, done, .idle⟩ cs ↔ LinesLeft as done line cs := Iff.rfl

@[simp] theorem remains_comment :
    Remains as ⟨line, done, .comment⟩ cs ↔ CommentLeft as done line cs := Iff.rfl

@[simp] theorem remains_key {text : String} : Remains as ⟨line, done, .key keyLine text⟩ cs ↔
    KeyLeft as done line keyLine text.toList cs := Iff.rfl

@[simp] theorem remains_afterKey {key : String} :
    Remains as ⟨line, done, .afterKey keyLine key⟩ cs ↔
      AfterKeyLeft as done line keyLine key cs := Iff.rfl

@[simp] theorem remains_before :
    Remains as ⟨line, done, .before slot⟩ cs ↔ BeforeLeft as done slot line cs := Iff.rfl

@[simp] theorem remains_word {text : String} : Remains as ⟨line, done, .word slot text⟩ cs ↔
    WordLeft as done slot line text.toList cs := Iff.rfl

@[simp] theorem remains_integer {sign digits : String} :
    Remains as ⟨line, done, .integer slot sign digits⟩ cs ↔
      IntegerLeft as done slot line sign digits.toList cs := Iff.rfl

@[simp] theorem remains_string {quote : Char} {n : Nat} {text : String} :
    Remains as ⟨line, done, .string slot quote n text⟩ cs ↔
      StringLeft as done slot line quote text cs := Iff.rfl

@[simp] theorem remains_escape {quote : Char} {n : Nat} {text : String} :
    Remains as ⟨line, done, .escape slot quote n text⟩ cs ↔
      EscapeLeft as done slot line quote text cs := Iff.rfl

@[simp] theorem remains_after :
    Remains as ⟨line, done, .after slot⟩ cs ↔ AfterLeft as done slot line cs := Iff.rfl

@[simp] theorem remains_innerComment {isAfter : Bool} :
    Remains as ⟨line, done, .innerComment slot isAfter⟩ cs ↔
      InnerCommentLeft as done slot isAfter line cs := Iff.rfl

@[simp] theorem remains_put {v : Literal} : Remains as (st.put slot v) cs ↔
    ValueLeft as st.done slot.key slot.line slot.sequences v st.line cs := by
  unfold State.put
  split
  · next h => simp [AfterLeft, ValueLeft, h]
  · next l ls h => simp [AfterLeft, ValueLeft, h]

end Remains

/-- The reader has gone on to a state that fits what is left. -/
def Resumes (as : List Assignment) (x : Except Malformed State) (cs : List Char) : Prop :=
  ∃ st, x = .ok st ∧ Remains as st cs

@[simp] theorem resumes_ok : Resumes as (.ok st) cs ↔ Remains as st cs := by
  simp [Resumes]

@[simp] theorem not_resumes_error {m : Malformed} : ¬ Resumes as (.error m) cs := by
  simp [Resumes]

@[simp] theorem not_resumes_fail {cause : Cause} : ¬ Resumes as (st.fail cause) cs := by
  simp [Resumes, State.fail]

theorem resumes_ite {p : Prop} [Decidable p] {x y : Except Malformed State} :
    Resumes as (if p then x else y) cs ↔ if p then Resumes as x cs else Resumes as y cs := by
  split <;> rfl

/-! ### Steps -/

theorem ne_of_isBlank (h : isBlank c = true) :
    c ≠ '\n' ∧ c ≠ '#' ∧ c ≠ ',' ∧ c ≠ ']' ∧ c ≠ '=' ∧ isKeyStart c = false := by
  rcases isBlank_iff.mp h with rfl | rfl | rfl | rfl <;> decide

theorem resumes_stepAfter : Resumes as (State.stepAfter ⟨line, done, .after slot⟩ slot c) cs ↔
    AfterLeft as done slot line (c :: cs) := by
  have hb := @ne_of_isBlank c
  cases hs : slot.sequences with
  | nil =>
    simp only [State.stepAfter, hs, resumes_ite, resumes_ok, not_resumes_fail, State.nextLine,
      remains_idle, remains_comment, remains_after, AfterLeft, trailerLeft_cons, ← isBlank_iff]
    grind
  | cons l ls =>
    simp only [State.stepAfter, hs, resumes_ite, resumes_ok, not_resumes_fail, State.nextLine,
      State.close, remains_put, remains_before, remains_after, remains_innerComment, AfterLeft,
      BeforeLeft, InnerCommentLeft, itemsLeft_moreItems, ← isBlank_iff, if_true, List.append_nil]
    grind

theorem ne_of_isKeyStart (h : isKeyStart c = true) :
    c ≠ '\'' ∧ c ≠ '"' ∧ c ≠ '[' ∧ c ≠ '+' ∧ c ≠ '-' ∧ c ≠ '\n' ∧ c ≠ '#' ∧ c ≠ ']' := by
  refine ⟨?_, ?_, ?_, ?_, ?_, ?_, ?_, ?_⟩ <;> rintro rfl <;> contradiction

theorem ne_of_isDigit (h : c.isDigit = true) :
    c ≠ '\'' ∧ c ≠ '"' ∧ c ≠ '[' ∧ c ≠ '+' ∧ c ≠ '-' ∧ isKeyStart c = false := by
  refine ⟨?_, ?_, ?_, ?_, ?_, ?_⟩
  case refine_6 =>
    simp only [Char.isDigit, Bool.and_eq_true, decide_eq_true_eq, ge_iff_le,
      UInt32.le_iff_toNat_le] at h
    rw [Bool.eq_false_iff, ne_eq, isKeyStart_iff]
    intro h
    rcases h with ⟨hc, -⟩ | ⟨hc, -⟩ | rfl
    · rw [Char.le_def, UInt32.le_iff_toNat_le] at hc
      exact absurd (Nat.le_trans hc h.2) (by decide)
    · rw [Char.le_def, UInt32.le_iff_toNat_le] at hc
      exact absurd (Nat.le_trans hc h.2) (by decide)
    · exact absurd h.2 (by decide)
  all_goals
    rintro rfl
    contradiction

theorem resumes_startValue {mode : Mode} :
    Resumes as (State.startValue ⟨line, done, mode⟩ slot c) cs ↔
      StartLeft as done slot line (c :: cs) := by
  have hk := @ne_of_isKeyStart c
  have hd := @ne_of_isDigit c
  simp only [State.startValue, Bool.or_eq_true, decide_eq_true_eq, resumes_ite, resumes_ok,
    not_resumes_fail, remains_string, remains_before, remains_integer, remains_word,
    startLeft_cons, ← isDigit_iff, ← isKeyStart_iff, String.toList_singleton, String.toList_empty]
  grind

theorem ne_of_startLeft (h : StartLeft as done slot line (c :: cs)) :
    isBlank c = false ∧ c ≠ '\n' ∧ c ≠ '#' ∧ c ≠ ']' := by
  rcases startLeft_cons.mp h with
    ⟨rfl | rfl, -⟩ | ⟨rfl, -⟩ | ⟨hc, -⟩ | ⟨rfl | rfl, -⟩ | ⟨hc, -⟩
  case inr.inr.inl =>
    rw [← isDigit_iff] at hc
    refine ⟨Bool.eq_false_iff.mpr fun hb => ?_, ?_, ?_, ?_⟩
    · rcases isBlank_iff.mp hb with rfl | rfl | rfl | rfl <;> contradiction
    all_goals
      rintro rfl
      contradiction
  case inr.inr.inr.inr =>
    rw [← isKeyStart_iff] at hc
    obtain ⟨-, -, -, -, -, hn, hm, he⟩ := ne_of_isKeyStart hc
    refine ⟨Bool.eq_false_iff.mpr fun hb => ?_, hn, hm, he⟩
    exact Bool.false_ne_true ((ne_of_isBlank hb).2.2.2.2.2.symm.trans hc)
  all_goals decide

theorem itemsLeft_slot {l : OpenSequence} {ls : List OpenSequence}
    (hs : slot.sequences = l :: ls) :
    (∃ t v ds, cs = t ++ ds ∧ Value t v ∧ ItemsLeft MoreItems
      (fun vs => ValueLeft as done slot.key slot.line ls (.sequence (l.items ++ v :: vs)))
      (line + t.count '\n') ds) ↔ StartLeft as done slot line cs := by
  simp [StartLeft, hs, ValueLeft]

theorem resumes_stepBefore : Resumes as (State.stepBefore ⟨line, done, .before slot⟩ slot c) cs ↔
    BeforeLeft as done slot line (c :: cs) := by
  have hb := @ne_of_isBlank c
  have hv := @ne_of_startLeft as done line slot c cs
  cases hs : slot.sequences with
  | nil =>
    simp only [State.stepBefore, hs, resumes_ite, resumes_ok, resumes_startValue, remains_before,
      BeforeLeft, exists_append_cons, ← isBlank_iff, Blanks, List.not_mem_nil]
    grind
  | cons l ls =>
    simp only [State.stepBefore, hs, resumes_ite, resumes_ok, resumes_startValue, State.nextLine,
      State.close, remains_put, remains_before, remains_innerComment, AfterLeft,
      BeforeLeft, InnerCommentLeft, itemsLeft_items, ← isBlank_iff, List.append_nil,
      itemsLeft_slot hs, if_neg Bool.false_ne_true]
    grind

theorem resumes_stepIdle : Resumes as (State.stepIdle ⟨line, done, .idle⟩ c) cs ↔
    LinesLeft as done line (c :: cs) := by
  have hb := @ne_of_isBlank c
  have hk := @ne_of_isKeyStart c
  simp only [State.stepIdle, resumes_ite, resumes_ok, not_resumes_fail, State.nextLine,
    remains_idle, remains_comment, remains_key, linesLeft_cons, ← isBlank_iff, ← isKeyStart_iff,
    String.toList_singleton]
  grind

theorem resumes_stepAfterKey {mode : Mode} {key : String} :
    Resumes as (State.stepAfterKey ⟨line, done, mode⟩ keyLine key c) cs ↔
      AfterKeyLeft as done line keyLine key (c :: cs) := by
  have hb := @ne_of_isBlank c
  simp only [State.stepAfterKey, resumes_ite, resumes_ok, not_resumes_error, remains_before,
    remains_afterKey, afterKeyLeft_cons, ← isBlank_iff]
  grind

theorem resumes_stepEnded_put {v : Literal} : Resumes as ((st.put slot v).stepEnded c) cs ↔
    ValueLeft as st.done slot.key slot.line slot.sequences v st.line (c :: cs) := by
  unfold State.put
  split
  · next h => simp [State.stepEnded, resumes_stepAfter, AfterLeft, ValueLeft, h]
  · next l ls h => simp [State.stepEnded, resumes_stepAfter, AfterLeft, ValueLeft, h]

theorem endWord_eq_ok_iff {text : String} {st' : State} : st.endWord slot text = .ok st' ↔
    ∃ b, Word text.toList b ∧ st' = st.put slot (.boolean b) := by
  constructor
  · intro h
    simp only [State.endWord, Bool.or_eq_true, decide_eq_true_eq] at h
    split at h
    · next ht => exact ⟨true, word_iff.mpr (.inl ⟨ht, rfl⟩), (Except.ok.inj h).symm⟩
    · split at h
      · next hf => exact ⟨false, word_iff.mpr (.inr ⟨hf, rfl⟩), (Except.ok.inj h).symm⟩
      · cases h
  · intro h
    obtain ⟨b, h, rfl⟩ := h
    rcases word_iff.mp h with ⟨rfl | rfl, rfl⟩ | ⟨rfl | rfl, rfl⟩ <;> rfl

theorem endInteger_eq_ok_iff {sign digits : String} {next : Option Char} {st' : State} :
    st.endInteger slot sign digits next = .ok st' ↔ State.isGrouped digits = true ∧
      (∀ c ∈ next, isKeyPart c = false ∧ c ≠ '.') ∧
      st' = st.put slot (.integer (State.integerValue sign digits)) := by
  unfold State.endInteger
  cases hg : State.isGrouped digits with
  | false => simp [State.fail]
  | true =>
    cases next with
    | none =>
      constructor
      · exact fun h => ⟨rfl, by simp, (Except.ok.inj h).symm⟩
      · intro h
        obtain ⟨-, -, rfl⟩ := h
        rfl
    | some c =>
      by_cases hc : c = '.' ∨ isKeyPart c = true
      · have hn : ¬ (isKeyPart c = false ∧ c ≠ '.') := by
          intro h
          obtain ⟨hk, hd⟩ := h
          rcases hc with hc | hc
          · exact hd hc
          · exact Bool.false_ne_true (hk.symm.trans hc)
        simp [hc, hn, State.fail]
      · obtain ⟨hd, hk⟩ := not_or.mp hc
        rw [Bool.not_eq_true] at hk
        simp only [Bool.not_true, Bool.false_eq_true, if_false, hd, hk, Bool.or_self,
          decide_false, Except.ok.injEq, Option.mem_some_iff, forall_eq', true_and, ne_eq,
          not_false_eq_true]
        exact eq_comm

theorem stop_of_valueLeft {key : String} {ls : List OpenSequence} {v : Literal}
    (h : ValueLeft as done key keyLine ls v line (c :: cs)) :
    isKeyPart c = false ∧ isDigitPart c = false ∧ c ≠ '.' := by
  cases ls with
  | nil =>
    rcases trailerLeft_cons.mp h with ⟨rfl | rfl | rfl | rfl, -⟩ | ⟨rfl, -⟩ | ⟨rfl, -⟩ <;> decide
  | cons l ls =>
    rcases itemsLeft_moreItems.mp h with
      ⟨rfl | rfl | rfl | rfl, -⟩ | ⟨rfl, -⟩ | ⟨rfl, -⟩ | ⟨rfl, -⟩ | ⟨rfl, -⟩ <;> decide

theorem resumes_bind {x : Except Malformed State} {f : State → Except Malformed State} :
    Resumes as (x >>= f) cs ↔ ∃ st, x = .ok st ∧ Resumes as (f st) cs := by
  cases x with
  | error m => simp [bind, Except.bind]
  | ok st => simp [bind, Except.bind]

theorem wordLeft_cons {text : List Char} : WordLeft as done slot line text (c :: cs) ↔
    if isKeyPart c then WordLeft as done slot line (text ++ [c]) cs
    else ∃ b, Word text b ∧
      ValueLeft as done slot.key slot.line slot.sequences (.boolean b) line (c :: cs) := by
  rw [WordLeft, exists_run_cons]
  · simp [WordLeft]
  · rintro t ⟨b, -, h⟩
    exact (stop_of_valueLeft h).1

theorem integerLeft_cons {sign : String} {digits : List Char} :
    IntegerLeft as done slot line sign digits (c :: cs) ↔
      if isDigitPart c then IntegerLeft as done slot line sign (digits ++ [c]) cs
      else State.isGrouped (String.ofList digits) = true ∧
        ValueLeft as done slot.key slot.line slot.sequences
          (.integer (State.integerValue sign (String.ofList digits))) line (c :: cs) := by
  rw [IntegerLeft, exists_run_cons]
  · simp [IntegerLeft]
  · rintro t ⟨-, h⟩
    exact (stop_of_valueLeft h).2.1

theorem innerCommentLeft_cons {isAfter : Bool} :
    InnerCommentLeft as done slot isAfter line (c :: cs) ↔
      if c = '\n' then
        if isAfter then AfterLeft as done slot (line + 1) cs
        else BeforeLeft as done slot (line + 1) cs
      else InnerCommentLeft as done slot isAfter line cs := by
  constructor
  · intro h
    obtain ⟨t, ds, he, ht, h⟩ := h
    rcases List.cons_eq_append_iff.mp he with ⟨rfl, hd⟩ | ⟨t, rfl, rfl⟩
    · obtain ⟨rfl, rfl⟩ := List.cons.inj hd
      rwa [if_pos rfl]
    · obtain ⟨hc, ht⟩ := not_or.mp (mt List.mem_cons.mpr ht)
      rw [if_neg (Ne.symm hc)]
      exact ⟨t, ds, rfl, ht, h⟩
  · intro h
    split at h
    · next hc => exact ⟨[], cs, by rw [hc]; rfl, by simp, h⟩
    · next hc =>
      obtain ⟨t, ds, rfl, ht, h⟩ := h
      exact ⟨c :: t, ds, rfl, by simp [ht, Ne.symm hc], h⟩

/-- What holds in every mode that the reader gets to: a string has one of the two quotes, and a
comment that is not at the end of a line is in a sequence. -/
def Mode.IsSound : Mode → Prop
  | .string _ quote _ _ | .escape _ quote _ _ => quote = '\'' ∨ quote = '"'
  | .innerComment slot _ => slot.sequences ≠ []
  | _ => True

/-- A step takes one character off what is left. -/
theorem remains_cons (hq : st.mode.IsSound) : Remains as st (c :: cs) ↔ Resumes as (st.step c) cs := by
  obtain ⟨line, done, mode⟩ := st
  cases mode with
  | idle => exact resumes_stepIdle.symm
  | comment =>
    simp only [State.step, State.nextLine, remains_comment, commentLeft_cons, resumes_ok]
    by_cases hc : c = '\n' <;> simp [hc]
  | key n text =>
    simp only [State.step, remains_key, keyLeft_cons, resumes_ite, resumes_ok,
      resumes_stepAfterKey, String.toList_push, String.ofList_toList]
  | afterKey n key => exact resumes_stepAfterKey.symm
  | before slot => exact resumes_stepBefore.symm
  | word slot text =>
    simp only [State.step, remains_word, wordLeft_cons, resumes_ite, resumes_ok, resumes_bind,
      endWord_eq_ok_iff, String.toList_push]
    split
    · rfl
    · constructor
      · intro h
        obtain ⟨b, hw, h⟩ := h
        exact ⟨_, ⟨b, hw, rfl⟩, resumes_stepEnded_put.mpr h⟩
      · intro h
        obtain ⟨_, ⟨b, hw, rfl⟩, h⟩ := h
        exact ⟨b, hw, resumes_stepEnded_put.mp h⟩
  | integer slot sign digits =>
    simp only [State.step, remains_integer, integerLeft_cons, resumes_ite, resumes_ok,
      resumes_bind, endInteger_eq_ok_iff, String.toList_push, String.ofList_toList]
    rw [← isDigitPart]
    split
    · rfl
    · constructor
      · intro h
        obtain ⟨hg, h⟩ := h
        obtain ⟨hk, -, hd⟩ := stop_of_valueLeft h
        exact ⟨_, ⟨hg, by simp [hk, hd], rfl⟩, resumes_stepEnded_put.mpr h⟩
      · intro h
        obtain ⟨_, ⟨hg, -, rfl⟩, h⟩ := h
        exact ⟨hg, resumes_stepEnded_put.mp h⟩
  | string slot quote n text =>
    rw [remains_string, stringLeft_cons hq]
    by_cases hn : c = '\n'
    · simp [State.step, hn]
    · simp [State.step, hn, resumes_ite]
  | escape slot quote n text =>
    rw [remains_escape, escapeLeft_cons]
    by_cases hn : c = '\n'
    · simp [State.step, hn]
    · simp [State.step, hn]
  | after slot => exact resumes_stepAfter.symm
  | innerComment slot isAfter =>
    simp only [State.step, State.nextLine, remains_innerComment, innerCommentLeft_cons, resumes_ok]
    by_cases hn : c = '\n'
    · cases isAfter <;> simp [hn]
    · simp [hn]

end ListfileSettings.Assignment
