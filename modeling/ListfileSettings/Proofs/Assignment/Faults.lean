import ListfileSettings.Draft
import ListfileSettings.Proofs.Assignment.Append
import ListfileSettings.Proofs.Text.Pieces
import Mathlib.Data.List.Induction

/-!
# The line of a fault

A text that is not read has its fault after the last line break up to which it is read. Where no
sequence is opened there, the fault is on the very next line: only in a sequence does the reader go
on to further lines.
-/
namespace ListfileSettings.Assignment

variable {α β : Type} {P : α → Prop} {p q : Nat → Prop} {st : State} {slot : Slot} {c : Char}
  {cs t u : List Char} {m : Malformed}

/-! ### Lines that the reader goes back to -/

/-- The open sequences begin on lines with the property. -/
def Slot.Lines (q : Nat → Prop) (slot : Slot) : Prop := ∀ l ∈ slot.sequences, q l.line

/-- The key or the string that the reader is in begins on a line with the first property, the open
sequences on lines with the second one. -/
def Mode.Lines (p q : Nat → Prop) : Mode → Prop
  | .idle | .comment => True
  | .key line _ | .afterKey line _ => p line
  | .before slot | .word slot _ | .integer slot .. | .after slot | .innerComment slot _ =>
    slot.Lines q
  | .string slot _ line _ | .escape slot _ line _ => p line ∧ slot.Lines q

/-- The outcome has the property, or it is a fault on a line with the other one. -/
def Blames (p : Nat → Prop) (P : α → Prop) : Except Malformed α → Prop
  | .ok a => P a
  | .error m => p m.line

theorem blames_ok {a : α} : Blames p P (.ok a) ↔ P a := Iff.rfl

theorem blames_error : Blames p P (.error m) ↔ p m.line := Iff.rfl

theorem blames_fail {P : State → Prop} {cause : Cause} :
    Blames p P (st.fail cause) ↔ p st.line := Iff.rfl

theorem blames_ite {r : Prop} [Decidable r] {x y : Except Malformed α} :
    Blames p P (if r then x else y) ↔ (r → Blames p P x) ∧ (¬ r → Blames p P y) := by
  split <;> simp_all

theorem blames_bind {Q : β → Prop} {f : α → Except Malformed β} {x : Except Malformed α}
    (h : Blames p P x) (hf : ∀ a, P a → Blames p Q (f a)) : Blames p Q (x >>= f) := by
  cases x with
  | error m => exact h
  | ok a => exact hf a h

/-! ### Steps -/

def State.Lines (p q : Nat → Prop) (st : State) : Prop := st.mode.Lines p q

theorem lines_put {v : Literal} (hs : slot.Lines q) : (st.put slot v).Lines p q := by
  obtain ⟨key, line, _ | ⟨l, ls⟩⟩ := slot
  · exact hs
  · exact List.forall_mem_cons.mpr (List.forall_mem_cons.mp hs)

theorem lines_close {l : OpenSequence} {ls : List OpenSequence} (hs : slot.Lines q)
    (ho : slot.sequences = l :: ls) : (st.close slot l ls).Lines p q :=
  lines_put fun l' hm => hs l' (ho ▸ List.mem_cons_of_mem l hm)

theorem blames_startValue (hs : slot.Lines q) (hp : p st.line) (hq : c = '[' → q st.line) :
    Blames p (State.Lines p q) (st.startValue slot c) := by
  simp only [State.startValue, blames_ite, blames_ok, blames_fail]
  exact ⟨fun _ => ⟨hp, hs⟩, fun _ => ⟨fun hc => List.forall_mem_cons.mpr ⟨hq hc, hs⟩, fun _ =>
    ⟨fun _ => hs, fun _ => ⟨fun _ => hs, fun _ => ⟨fun _ => hs, fun _ =>
      ⟨fun _ => hp, fun _ => hp⟩⟩⟩⟩⟩⟩

theorem blames_stepIdle (h : st.Lines p q) (hp : p st.line) :
    Blames p (State.Lines p q) (st.stepIdle c) := by
  simp only [State.stepIdle, blames_ite, blames_ok, blames_fail]
  exact ⟨fun _ => h, fun _ => ⟨fun _ => h, fun _ => ⟨fun _ => trivial, fun _ =>
    ⟨fun _ => hp, fun _ => hp⟩⟩⟩⟩

theorem blames_stepAfterKey {line : Nat} {key : String} (hl : p line) :
    Blames p (State.Lines p q) (st.stepAfterKey line key c) := by
  simp only [State.stepAfterKey, blames_ite, blames_ok, blames_error]
  exact ⟨fun _ => hl, fun _ => ⟨fun _ => List.forall_mem_nil _, fun _ => hl⟩⟩

theorem blames_stepBefore (h : st.Lines p q) (hs : slot.Lines q) (hp : p st.line)
    (hq : c = '[' → q st.line) : Blames p (State.Lines p q) (st.stepBefore slot c) := by
  have hv := blames_startValue hs hp hq
  unfold State.stepBefore
  split
  · exact h
  · split
    · exact hv
    · next l ls ho =>
      simp only [blames_ite, blames_ok]
      exact ⟨fun _ => h, fun _ => ⟨fun _ => hs, fun _ => ⟨fun _ => lines_close hs ho, fun _ => hv⟩⟩⟩

theorem blames_stepAfter (h : st.Lines p q) (hs : slot.Lines q) (hp : p st.line) :
    Blames p (State.Lines p q) (st.stepAfter slot c) := by
  unfold State.stepAfter
  split
  · exact h
  · split
    · simp only [blames_ite, blames_ok, blames_fail]
      exact ⟨fun _ => trivial, fun _ => ⟨fun _ => trivial, fun _ => hp⟩⟩
    · next l ls ho =>
      simp only [blames_ite, blames_ok, blames_fail]
      exact ⟨fun _ => h, fun _ => ⟨fun _ => hs, fun _ => ⟨fun _ => hs, fun _ =>
        ⟨fun _ => lines_close hs ho, fun _ => hp⟩⟩⟩⟩

theorem blames_stepEnded {v : Literal} (hs : slot.Lines q) (hp : p st.line) :
    Blames p (State.Lines p q) ((st.put slot v).stepEnded c) := by
  have hl : p (st.put slot v).line := by rwa [line_put]
  have h : (st.put slot v).Lines p q := lines_put hs
  unfold State.stepEnded
  split
  · next slot' hm =>
    refine blames_stepAfter h ?_ hl
    rwa [State.Lines, hm] at h
  · exact h

theorem blames_endWord {text : String} {Q : β → Prop} {f : State → Except Malformed β}
    (hp : p st.line) (hf : ∀ v, Blames p Q (f (st.put slot v))) :
    Blames p Q (st.endWord slot text >>= f) := by
  refine blames_bind (P := fun st' => ∃ v, st' = st.put slot v) ?_ fun st' hv => ?_
  · simp only [State.endWord, blames_ite, blames_ok, blames_fail]
    exact ⟨fun _ => ⟨_, rfl⟩, fun _ => ⟨fun _ => ⟨_, rfl⟩, fun _ => hp⟩⟩
  · obtain ⟨v, rfl⟩ := hv
    exact hf v

theorem blames_endInteger {sign digits : String} {next : Option Char} {Q : β → Prop}
    {f : State → Except Malformed β} (hp : p st.line) (hf : ∀ v, Blames p Q (f (st.put slot v))) :
    Blames p Q (st.endInteger slot sign digits next >>= f) := by
  refine blames_bind (P := fun st' => ∃ v, st' = st.put slot v) ?_ fun st' hv => ?_
  · cases next with
    | none =>
      simp only [State.endInteger, blames_ite, blames_ok, blames_fail]
      exact ⟨fun _ => hp, fun _ => ⟨_, rfl⟩⟩
    | some c =>
      simp only [State.endInteger, blames_ite, blames_ok, blames_fail]
      exact ⟨fun _ => hp, fun _ => ⟨fun _ => hp, fun _ => ⟨_, rfl⟩⟩⟩
  · obtain ⟨v, rfl⟩ := hv
    exact hf v

/-- A step is at fault on its line or on one that the reader goes back to. Only an opening bracket
opens a sequence. -/
theorem blames_step (h : st.Lines p q) (hp : p st.line) (hq : c = '[' → q st.line) :
    Blames p (State.Lines p q) (st.step c) := by
  obtain ⟨line, done, mode⟩ := st
  cases mode with
  | idle => exact blames_stepIdle h hp
  | comment =>
    rw [State.step, blames_ok]
    split <;> trivial
  | key l text => exact blames_ite.mpr ⟨fun _ => h, fun _ => blames_stepAfterKey h⟩
  | afterKey l key => exact blames_stepAfterKey h
  | before slot => exact blames_stepBefore h h hp hq
  | word slot text =>
    exact blames_ite.mpr ⟨fun _ => h, fun _ => blames_endWord hp fun _ => blames_stepEnded h hp⟩
  | integer slot sign digits =>
    exact blames_ite.mpr ⟨fun _ => h, fun _ => blames_endInteger hp fun _ => blames_stepEnded h hp⟩
  | string slot quote l text =>
    simp only [State.step, blames_ite, blames_ok, blames_error]
    exact ⟨fun _ => h.1, fun _ => ⟨fun _ => lines_put h.2, fun _ => ⟨fun _ => h, fun _ => h⟩⟩⟩
  | escape slot quote l text =>
    simp only [State.step, blames_ite, blames_ok, blames_error]
    exact ⟨fun _ => h.1, fun _ => h⟩
  | after slot => exact blames_stepAfter h h hp
  | innerComment slot isAfter =>
    rw [State.step, blames_ok]
    split
    · cases isAfter <;> exact h
    · exact h

/-! ### Runs -/

theorem blames_run (hs : st.mode.IsSound) (h : st.Lines p q)
    (hp : ∀ l, st.line ≤ l → l ≤ st.line + cs.count '\n' → p l)
    (hq : '[' ∈ cs → ∀ l, st.line ≤ l → l ≤ st.line + cs.count '\n' → q l) :
    Blames p (State.Lines p q) (st.run cs) := by
  induction cs generalizing st with
  | nil => exact h
  | cons c cs ih =>
    have hc : st.line ≤ st.line + (c :: cs).count '\n' := Nat.le_add_right ..
    have he := blames_step (c := c) h (hp _ (Nat.le_refl _) hc)
      fun hb => hq (hb ▸ List.mem_cons_self) _ (Nat.le_refl _) hc
    rw [run_cons]
    cases h₁ : st.step c with
    | error m => rwa [h₁] at he
    | ok st₁ =>
      rw [h₁] at he
      have h₂ : st₁.line = st.line + [c].count '\n' := line_step_eq hs st₁ h₁
      have hm : st.line ≤ st₁.line := by omega
      have hl : st₁.line + cs.count '\n' = st.line + (c :: cs).count '\n' := by
        rw [h₂, Nat.add_assoc, ← List.count_append]
        rfl
      exact ih (keepsSound_step hs st₁ h₁) he
        (fun l hn hg => hp l (Nat.le_trans hm hn) (hl ▸ hg))
        fun hb l hn hg => hq (List.mem_cons_of_mem c hb) l (Nat.le_trans hm hn) (hl ▸ hg)

theorem blames_finishSlot {x : Except Malformed (List Assignment)} (hqp : ∀ l, q l → p l)
    (hs : slot.Lines q) (hx : Blames p (fun _ => True) x) :
    Blames p (fun _ => True) (State.finishSlot slot x) := by
  unfold State.finishSlot
  split
  · exact hx
  · next l ls ho => exact hqp _ (hs l (ho ▸ List.mem_cons_self))

theorem blames_finishEnded {v : Literal} (hqp : ∀ l, q l → p l) (hs : slot.Lines q) :
    Blames p (fun _ => True) (st.put slot v).finishEnded := by
  obtain ⟨key, keyLine, _ | ⟨l, ls⟩⟩ := slot
  · trivial
  · exact hqp _ (hs l List.mem_cons_self)

theorem blames_finish (hqp : ∀ l, q l → p l) (h : st.Lines p q) (hp : p st.line) :
    Blames p (fun _ => True) st.finish := by
  obtain ⟨line, done, mode⟩ := st
  cases mode with
  | idle => trivial
  | comment => trivial
  | key l text => exact h
  | afterKey l key => exact h
  | before slot => exact blames_finishSlot hqp h hp
  | word slot text => exact blames_endWord hp fun _ => blames_finishEnded hqp h
  | integer slot sign digits => exact blames_endInteger hp fun _ => blames_finishEnded hqp h
  | string slot quote l text => exact h.1
  | escape slot quote l text => exact h.1
  | after slot => exact blames_finishSlot hqp h trivial
  | innerComment slot isAfter => exact blames_finishSlot hqp h trivial

/-- A text is at fault on one of its lines, and no line of a sequence comes into it if there is none. -/
theorem blames_readChars (hqp : ∀ l, q l → p l) (hp : ∀ l, 1 ≤ l → l ≤ 1 + cs.count '\n' → p l)
    (hq : '[' ∈ cs → ∀ l, 1 ≤ l → l ≤ 1 + cs.count '\n' → q l) :
    Blames p (fun _ => True) (readChars cs) := by
  have hr : Blames p (State.Lines p q) (State.start.run cs) := blames_run isSound_start trivial hp hq
  cases hs : State.start.run cs with
  | error m =>
    rw [hs] at hr
    rwa [readChars, hs]
  | ok st =>
    rw [hs] at hr
    have hl : st.line = 1 + cs.count '\n' := line_run isSound_start st hs
    rw [readChars, hs]
    exact blames_finish hqp hr (hp _ (by omega) (Nat.le_of_eq hl))

theorem line_of_readChars (h : readChars cs = .error m) :
    1 ≤ m.line ∧ m.line ≤ 1 + cs.count '\n' := by
  have hl : ∀ l, 1 ≤ l → l ≤ 1 + cs.count '\n' → 1 ≤ l ∧ l ≤ 1 + cs.count '\n' :=
    fun l hn hg => ⟨hn, hg⟩
  have hr := blames_readChars (fun _ => id) hl fun _ => hl
  rwa [h] at hr

/-! ### First lines -/

/-- At the start of a line that no sequence is open on, nothing is missing. -/
theorem finish_of_lines (hb : st.mode.IsBreak) (h : st.Lines p fun _ => False) :
    st.finish = .ok st.done := by
  have hn : ∀ slot : Slot, slot.sequences ≠ [] → ¬ slot.Lines fun _ => False := by
    intro slot hs hl
    obtain ⟨l, ls, ho⟩ := List.exists_cons_of_ne_nil hs
    exact hl l (ho ▸ List.mem_cons_self)
  obtain ⟨line, done, mode⟩ := st
  cases mode with
  | idle => rfl
  | before slot => exact absurd h (hn slot hb)
  | after slot => exact absurd h (hn slot hb)
  | _ => exact hb.elim

theorem blames_run_first (hn : '\n' ∉ t) (hb : '[' ∉ t) :
    Blames (· = 1) (State.Lines (· = 1) fun _ => False) (State.start.run t) := by
  refine blames_run isSound_start trivial (fun l hl hg => ?_) fun hm => absurd hm hb
  rw [List.count_eq_zero.mpr hn] at hg
  exact Nat.le_antisymm hg hl

theorem finish_of_first (hn : '\n' ∉ t) (hb : '[' ∉ t) :
    Blames (· = 1) (fun st => st.finish = .ok st.done) (State.start.run (t ++ ['\n'])) := by
  rw [State.run_append]
  refine blames_bind (P := fun st =>
    st.mode.IsSound ∧ st.Lines (· = 1) (fun _ => False) ∧ st.line = 1) ?_ fun st hs => ?_
  · have hr := blames_run_first hn hb
    cases ht : State.start.run t with
    | error m => rwa [ht] at hr
    | ok st =>
      rw [ht] at hr
      refine ⟨isSound_run isSound_start st ht, hr, ?_⟩
      rw [line_run isSound_start st ht, List.count_eq_zero.mpr hn]
      rfl
  · obtain ⟨hs, hl, h₁⟩ := hs
    have hr := blames_step (c := '\n') hl h₁ nofun
    rw [run_cons]
    cases hc : st.step '\n' with
    | error m => rwa [hc] at hr
    | ok st' =>
      rw [hc] at hr
      exact finish_of_lines (break_step hs st' hc).2 hr

/-- A text is at fault on its first line, if that opens no sequence and is not read by itself. -/
theorem line_of_first (hn : '\n' ∉ t) (hb : '[' ∉ t)
    (hu : u = [] ∨ u.head? = some '\n' ∧ ∀ as, readChars (t ++ ['\n']) ≠ .ok as)
    (h : readChars (t ++ u) = .error m) : m.line = 1 := by
  rcases hu with rfl | ⟨hu, ha⟩
  · have hp : ∀ l, 1 ≤ l → l ≤ 1 + (t ++ []).count '\n' → l = 1 := by
      intro l hl hg
      rw [List.append_nil, List.count_eq_zero.mpr hn] at hg
      exact Nat.le_antisymm hg hl
    have hr := blames_readChars (q := fun _ => False) (fun _ => False.elim) hp
      fun hm => absurd (List.append_nil t ▸ hm) hb
    rwa [h] at hr
  · obtain ⟨ds, rfl⟩ := List.head?_eq_some_iff.mp hu
    have hr := finish_of_first hn hb
    rw [List.append_cons, readChars, State.run_append] at h
    cases hs : State.start.run (t ++ ['\n']) with
    | error m' =>
      rw [hs] at h hr
      obtain rfl : m' = m := Except.error.inj h
      exact hr
    | ok st =>
      rw [hs] at hr
      refine absurd ?_ (ha st.done)
      rw [readChars, hs]
      exact hr

/-! ### Texts -/

/-- Before a line only its own byte order mark can be left out, and that if nothing is before it. -/
theorem exists_dropMark_append (cs t : List Char) : ∃ t', (∀ c ∈ t', c ∈ t) ∧
    ∀ u : List Char, u.head? ≠ some '\uFEFF' → dropMark (cs ++ (t ++ u)) = dropMark cs ++ (t' ++ u) := by
  by_cases hc : cs = []
  · refine ⟨dropMark t, fun c hm => ?_, fun u hu => ?_⟩
    · rcases dropMark_eq_or t with h | h
      · rwa [h]
      · rw [h]
        exact List.mem_cons_of_mem _ hm
    · subst hc
      by_cases ht : t = []
      · subst ht
        exact dropMark_of_head hu
      · exact dropMark_append_of_ne_nil ht
  · exact ⟨t, fun _ => id, fun _ _ => dropMark_append_of_ne_nil hc⟩

/-- After a text that is read, a fault is on the lines of what follows, and on the first of them if
that opens no sequence and cannot be read on its own. -/
theorem line_after {as : List Assignment} (hl : EndsLine cs) (ha : readChars (dropMark cs) = .ok as)
    (hn : '\n' ∉ t) (hu : u = [] ∨ u.head? = some '\n' ∧
      ∀ bs, readChars (dropMark (cs ++ (t ++ ['\n']))) ≠ .ok bs)
    (h : readChars (dropMark (cs ++ (t ++ u))) = .error m) :
    (cs.count '\n' + 1 ≤ m.line ∧ m.line ≤ 1 + (cs ++ (t ++ u)).count '\n') ∧
      ('[' ∉ t → m.line = cs.count '\n' + 1) := by
  obtain ⟨t', ht, hd⟩ := exists_dropMark_append cs t
  have hk := count_newline_dropMark cs
  have ho : ∀ v : List Char, readChars (dropMark cs ++ (t' ++ v)) = outcomeDown _ _ _ :=
    fun v => readChars_append_of_ok (endsLine_dropMark hl) ha
  have hb : u.head? ≠ some '\uFEFF' := by
    rcases hu with rfl | ⟨hu, -⟩
    · exact nofun
    · rw [hu]
      decide
  rw [hd u hb, ho, hk] at h
  cases hr : readChars (t' ++ u) with
  | ok bs =>
    rw [hr] at h
    cases h
  | error m' =>
    rw [hr] at h
    obtain rfl : m'.down (cs.count '\n') = m := Except.error.inj h
    have ht₀ : t'.count '\n' = 0 := List.count_eq_zero.mpr fun hm => hn (ht _ hm)
    have hm := line_of_readChars hr
    rw [List.count_append, ht₀] at hm
    simp only [Malformed.down, List.count_append, List.count_eq_zero.mpr hn]
    refine ⟨by omega, fun hf => ?_⟩
    have h₁ : m'.line = 1 := by
      refine line_of_first (fun hm => hn (ht _ hm)) (fun hm => hf (ht _ hm)) ?_ hr
      refine hu.imp_right fun hu => ⟨hu.1, fun bs hbs => ?_⟩
      refine hu.2 (State.assignmentsBelow as (cs.count '\n') bs) ?_
      rw [hd ['\n'] (by decide), ho, hbs, hk]
      rfl
    rw [h₁, Nat.add_comm]

/-- Of the starts of a text that are empty or end with a line break, the longest that is read. -/
structure LongestRead (text start : String) : Prop where
  isStart : start.toList <+: text.toList
  endsLine : EndsLine start.toList
  isRead : ∃ as, read start = .ok as
  isLongest : ∀ s : String, s.toList <+: text.toList → EndsLine s.toList →
    (∃ as, read s = .ok as) → s.length ≤ start.length

theorem exists_longest {q : List Char → Prop} (h : q []) (cs : List Char) :
    ∃ s, s <+: cs ∧ q s ∧ ∀ s', s' <+: cs → q s' → s'.length ≤ s.length := by
  classical
  induction cs using List.reverseRecOn with
  | nil => exact ⟨[], List.prefix_rfl, h, fun s' hs _ => hs.length_le⟩
  | append_singleton cs c ih =>
    by_cases hq : q (cs ++ [c])
    · exact ⟨cs ++ [c], List.prefix_rfl, hq, fun s' hs _ => hs.length_le⟩
    · obtain ⟨s, hs, hqs, hm⟩ := ih
      refine ⟨s, hs.trans (List.prefix_append cs [c]), hqs, fun s' hs' hq' => ?_⟩
      rcases List.prefix_concat_iff.mp hs' with rfl | hs'
      · exact absurd hq' hq
      · exact hm s' hs' hq'

theorem exists_longestRead (text : String) : ∃ start, LongestRead text start := by
  have he : EndsLine "".toList ∧ ∃ as, read "" = .ok as := ⟨.inl rfl, [], rfl⟩
  obtain ⟨s, hs, ⟨hl, ha⟩, hm⟩ :=
    exists_longest (q := fun s => EndsLine s ∧ ∃ as, read (String.ofList s) = .ok as) he text.toList
  refine ⟨String.ofList s, ?_, ?_, ha, fun s' hs' hl' ha' => ?_⟩
  · rwa [String.toList_ofList]
  · rwa [String.toList_ofList]
  · rw [String.length_ofList, ← String.length_toList]
    exact hm s'.toList hs' ⟨hl', by rwa [String.ofList_toList]⟩

theorem getElem?_pieces_append (h : EndsLine cs) (u : List Char) :
    (Text.pieces '\n' (cs ++ u))[cs.count '\n']? = (Text.pieces '\n' u)[0]? := by
  rcases h with rfl | h
  · rfl
  · obtain ⟨ds, rfl⟩ := List.getLast?_eq_some_iff.mp h
    have hl : (ds ++ ['\n']).count '\n' = (Text.pieces '\n' ds).length := by
      rw [Text.length_pieces, List.count_append, List.count_cons_self, List.count_nil]
    rw [List.append_assoc, List.singleton_append, Text.pieces_append, hl,
      List.getElem?_append_right (Nat.le_refl _), Nat.sub_self]

theorem LongestRead.not_read {text start : String} (h : LongestRead text start)
    (hu : start.toList ++ (t ++ u) = text.toList) (hn : u.head? = some '\n') (as : List Assignment) :
    readChars (dropMark (start.toList ++ (t ++ ['\n']))) ≠ .ok as := by
  intro ha
  obtain ⟨ds, rfl⟩ := List.head?_eq_some_iff.mp hn
  have hl := h.isLongest (String.ofList (start.toList ++ (t ++ ['\n'])))
  rw [String.toList_ofList] at hl
  have hs := hl ⟨ds, by rw [← hu]; simp⟩ (.inr (by simp))
    ⟨as, by rw [read, String.toList_ofList, ha]⟩
  rw [String.length_ofList, ← String.length_toList] at hs
  simp only [List.length_append, List.length_singleton] at hs
  omega

/-- A text that is not read fails for its syntax. Its fault is on a line after those of the longest
start that is read, up to the last line; and if no sequence is opened on the first of them, that is
the line of the fault. -/
theorem line_of_read_error (text : String) (m : Malformed) (h : read text = .error m) :
    (∀ d : Draft, (d.addText text .assignments).result =
      .error (.malformed m.line m.cause.message)) ∧
    (∃ start, LongestRead text start) ∧
    ∀ start, LongestRead text start →
      (start.toList.count '\n' + 1 ≤ m.line ∧ m.line ≤ 1 + text.toList.count '\n') ∧
      ∃ line, (Text.pieces '\n' text.toList)[start.toList.count '\n']? = some line ∧
        ('[' ∉ line → m.line = start.toList.count '\n' + 1) := by
  refine ⟨fun d => ?_, exists_longestRead text, fun start hs => ?_⟩
  · rw [Draft.addText, h]
    rfl
  · obtain ⟨v, hv⟩ := hs.isStart
    obtain ⟨t, u, hp, hn, rfl, hu⟩ := Text.exists_first_piece '\n' v
    obtain ⟨as, ha⟩ := hs.isRead
    have hr : u = [] ∨ u.head? = some '\n' ∧
        ∀ bs, readChars (dropMark (start.toList ++ (t ++ ['\n']))) ≠ .ok bs :=
      hu.imp_right fun hu => ⟨hu, hs.not_read hv hu⟩
    rw [read, ← hv] at h
    obtain ⟨hb, hf⟩ := line_after hs.endsLine ha hn hr h
    rw [← hv, getElem?_pieces_append hs.endsLine]
    exact ⟨hb, t, hp, hf⟩

/-- The fault of a missing sign is on the line that is not read, the one of a sequence can be on a
line of its own. -/
theorem line_of_read_error_sequence :
    (read "a = 1\nb\n" = .error ⟨2, .expectedEquals "b"⟩ ∧
      ∃ start, LongestRead "a = 1\nb\n" start ∧ start.toList.count '\n' + 1 = 2) ∧
    read "a = 1\nb = [1,\n2\nc]\n" = .error ⟨4, .expectedSeparator 'c'⟩ ∧
      ∃ start, LongestRead "a = 1\nb = [1,\n2\nc]\n" start ∧ start.toList.count '\n' + 1 ≤ 4 := by
  constructor
  · obtain ⟨-, ⟨start, hs⟩, hl⟩ := line_of_read_error "a = 1\nb\n" ⟨2, .expectedEquals "b"⟩ rfl
    obtain ⟨-, line, hp, hf⟩ := hl start hs
    have hb : ∀ line ∈ Text.pieces '\n' "a = 1\nb\n".toList, '[' ∉ line := by decide
    exact ⟨rfl, start, hs, (hf (hb line (List.mem_of_getElem? hp))).symm⟩
  · obtain ⟨-, ⟨start, hs⟩, hl⟩ :=
      line_of_read_error "a = 1\nb = [1,\n2\nc]\n" ⟨4, .expectedSeparator 'c'⟩ rfl
    exact ⟨rfl, start, hs, (hl start hs).1.1⟩

end ListfileSettings.Assignment
