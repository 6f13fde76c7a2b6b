import ListfileSettings.Proofs.Draft.Files
import Mathlib.Data.Finset.Card
import Mathlib.Data.Finset.Dedup

/-!
# Warnings

Adding a settings text warns of each assignment to a key that was assigned before in the same text,
and of each key that is left out, in the order of the text. What was added before the text plays no
part in it. When the text cannot be read nothing is warned of, and when an assignment is refused
nothing is warned of from then on, except that its key was assigned before.
-/
namespace ListfileSettings

/-! ### What there is to warn of -/

namespace Assignment

def rebinding (before : List Assignment) (a : Assignment) : List Event :=
  if a.key ∈ before.map (·.key) then [.rebound a.key a.line] else []

def ignoring (a : Assignment) : List Event :=
  if a.key ∈ Key.all.map Key.text then [] else [.ignored a.key (some a.line)]

/-- What there is to warn of if all assignments are made. -/
def warnings (as : List Assignment) : List Event :=
  as.zipIdx.flatMap fun p => p.1.rebinding (as.take p.2) ++ p.1.ignoring

variable {as : List Assignment} {a : Assignment}

theorem warnings_concat : warnings (as ++ [a]) = warnings as ++ (a.rebinding as ++ a.ignoring) := by
  have ht : ∀ p ∈ as.zipIdx, p.1.rebinding ((as ++ [a]).take p.2) ++ p.1.ignoring =
      p.1.rebinding (as.take p.2) ++ p.1.ignoring := by
    intro p hp
    have hl : p.2 < as.length := by simpa using (List.mem_zipIdx hp).2.1
    rw [List.take_append_of_le_length (Nat.le_of_lt hl)]
  rw [warnings, List.zipIdx_append, List.flatMap_append, List.flatMap_congr ht, warnings]
  simp

example : warnings [⟨"sort", .boolean true, 1⟩, ⟨"autosort", .boolean true, 2⟩,
    ⟨"sort", .boolean false, 5⟩] =
      [.ignored "sort" (some 1), .rebound "sort" 5, .ignored "sort" (some 5)] := by decide

theorem ignoring_of_key {k : Key} (h : a.key = k.text) : a.ignoring = [] := by
  rw [ignoring, if_pos]
  rw [h]
  exact List.mem_map_of_mem (Named.mem_all k)

theorem ignoring_of_unknown (h : ∀ k : Key, a.key ≠ k.text) :
    a.ignoring = [.ignored a.key (some a.line)] := by
  rw [ignoring, if_neg]
  intro hm
  obtain ⟨k, -, hk⟩ := List.mem_map.mp hm
  exact h k hk.symm

theorem level_of_mem_rebinding {e : Event} {before : List Assignment} (h : e ∈ a.rebinding before) :
    e.level = .warn := by
  unfold rebinding at h
  split at h
  · obtain rfl := List.mem_singleton.mp h
    rfl
  · cases h

theorem level_of_mem_ignoring {e : Event} (h : e ∈ a.ignoring) : e.level = .warn := by
  unfold ignoring at h
  split at h
  · cases h
  · obtain rfl := List.mem_singleton.mp h
    rfl

theorem level_of_mem_warnings {e : Event} (h : e ∈ warnings as) : e.level = .warn := by
  obtain ⟨p, -, hp⟩ := List.mem_flatMap.mp h
  rcases List.mem_append.mp hp with hp | hp
  · exact level_of_mem_rebinding hp
  · exact level_of_mem_ignoring hp

end Assignment

/-! ### How many keys are assigned again -/

def Event.isRebound : Event → Bool
  | rebound .. => true
  | _ => false

namespace Assignment

variable {as before : List Assignment} {a : Assignment}

theorem countP_ignoring : a.ignoring.countP Event.isRebound = 0 := by
  unfold ignoring
  split <;> rfl

theorem countP_rebinding : (a.rebinding before).countP Event.isRebound =
    if a.key ∈ before.map (·.key) then 1 else 0 := by
  unfold rebinding
  split <;> rfl

theorem countP_warnings (as : List Assignment) :
    (warnings as).countP Event.isRebound + (as.map (·.key)).toFinset.card = as.length := by
  induction as using List.reverseRecOn with
  | nil => rfl
  | append_singleton as a ih =>
    have hk : ((as ++ [a]).map (·.key)).toFinset = insert a.key (as.map (·.key)).toFinset := by
      ext key
      simp
    rw [warnings_concat, List.countP_append, List.countP_append, countP_ignoring, countP_rebinding, hk,
      List.length_append, List.length_singleton]
    by_cases h : a.key ∈ as.map (·.key)
    · rw [if_pos h, Finset.insert_eq_of_mem (List.mem_toFinset.mpr h)]
      omega
    · rw [if_neg h, Finset.card_insert_of_notMem (mt List.mem_toFinset.mp h)]
      omega

end Assignment

/-! ### What is warned of -/

def Logged.warnings {ε α : Type} (x : Logged ε α) : List Event :=
  x.events.filter fun e => e.level = .warn

namespace Draft

open Settings

variable {d d' : Draft} {f : Failure} {earlier : List String} {as : List Assignment} {a : Assignment}

theorem events_addAssignment_of_key {k : Key} (hk : Key.ofText? a.key = some k) :
    (d.addAssignment a).events = [] := by
  unfold addAssignment
  cases ha : d.settings.assign a.key a.value (some a.line) with
  | ok r => rfl
  | error f =>
    obtain ⟨reason, rfl⟩ := exists_reason_of_assign hk ha
    rfl

theorem addAssignment_of_unknown (hk : Key.ofText? a.key = none) :
    d.addAssignment a = d.ignore a.key (some a.line) := by
  unfold addAssignment Settings.assign
  rw [hk]

theorem events_addAssignment_of_ok (h : (d.addAssignment a).result = .ok d') :
    (d.addAssignment a).events = a.ignoring := by
  cases hk : Key.ofText? a.key with
  | some k =>
    rw [events_addAssignment_of_key hk,
      Assignment.ignoring_of_key (Key.ofText?_eq_some_iff.mp hk).symm]
  | none =>
    rw [addAssignment_of_unknown hk] at h ⊢
    have hp := (result_ignore_iff.mp h).1
    rw [ignore, hp, Assignment.ignoring_of_unknown (Key.ofText?_eq_none_iff.mp hk)]
    rfl

theorem events_addAssignment_of_error (h : (d.addAssignment a).result = .error f) :
    (d.addAssignment a).events = [] := by
  cases hk : Key.ofText? a.key with
  | some k => exact events_addAssignment_of_key hk
  | none =>
    rw [addAssignment_of_unknown hk] at h ⊢
    have hp := (result_ignore_error_iff.mp h).1
    rw [ignore, hp]
    rfl

theorem failsAs_of_addAssignment (h : (d.addAssignment a).result = .error f) : a.FailsAs f := by
  cases hk : Key.ofText? a.key with
  | some k =>
    unfold addAssignment at h
    cases ha : d.settings.assign a.key a.value (some a.line) with
    | ok r =>
      rw [ha] at h
      cases h
    | error f' =>
      obtain ⟨reason, rfl⟩ := exists_reason_of_assign hk ha
      rw [ha] at h
      obtain rfl := Except.error.inj h
      exact failsAs_of_assign ha
  | none =>
    rw [addAssignment_of_unknown hk] at h
    rw [(result_ignore_error_iff.mp h).2]
    exact .unknownKey (Key.ofText?_eq_none_iff.mp hk)

/-- The last assignment is made after the others, which have assigned their keys. -/
theorem addAssignments_concat : d.addAssignments earlier (as ++ [a]) =
    d.addAssignments earlier as >>= fun d =>
      (⟨if a.key ∈ earlier ∨ a.key ∈ as.map (·.key) then [.rebound a.key a.line] else [], .ok ()⟩ :
        Logged Failure Unit) >>= fun () => d.addAssignment a := by
  induction as generalizing d earlier with
  | nil =>
    rw [List.nil_append, addAssignments_cons]
    simp [addAssignments]
  | cons b as ih =>
    rw [List.cons_append, addAssignments_cons, addAssignments_cons]
    simp only [ih, bind_assoc, List.map_cons, List.mem_cons, or_left_comm, or_assoc]

theorem addAssignments_concat_nil : d.addAssignments [] (as ++ [a]) =
    d.addAssignments [] as >>= fun d =>
      (⟨a.rebinding as, .ok ()⟩ : Logged Failure Unit) >>= fun () => d.addAssignment a := by
  rw [addAssignments_concat]
  simp [Assignment.rebinding]

/-- All assignments are made, or the first that is refused ends it. -/
theorem addAssignments_cases (d : Draft) (as : List Assignment) :
    (∃ d', d.addAssignments [] as = ⟨Assignment.warnings as, .ok d'⟩) ∨
      ∃ before a after f, as = before ++ a :: after ∧
        (∀ b ∈ before, d.policy.Accepts (b.key, .literal b.value)) ∧
        ¬ d.policy.Accepts (a.key, .literal a.value) ∧ a.FailsAs f ∧
        d.addAssignments [] as = ⟨Assignment.warnings before ++ a.rebinding before, .error f⟩ := by
  induction as using List.reverseRecOn with
  | nil => exact .inl ⟨d, rfl⟩
  | append_singleton as a ih =>
    rw [addAssignments_concat_nil]
    rcases ih with ⟨d', hd⟩ | ⟨before, b, after, f, rfl, hb, hn, hf, hd⟩
    · rw [hd, Logged.bind_ok, Logged.bind_ok]
      obtain ⟨r, hr, rfl⟩ := result_addAssignments_iff.mp (congrArg Logged.result hd)
      have ha := (of_steps hr).1
      cases hr' : (addAssignment { d with settings := r } a).result with
      | ok d'' =>
        rw [events_addAssignment_of_ok hr', Assignment.warnings_concat]
        exact .inl ⟨d'', rfl⟩
      | error f =>
        rw [events_addAssignment_of_error hr', List.append_nil]
        refine .inr ⟨as, a, [], f, rfl, fun b hb => ha _ (List.mem_map_of_mem hb), fun hp => ?_,
          failsAs_of_addAssignment hr', rfl⟩
        obtain ⟨r', hs⟩ := exists_step (r := r) hp
        have ho := (result_addAssignment_iff (d := { d with settings := r })).mpr ⟨r', hs, rfl⟩
        cases hr'.symm.trans ho
    · rw [hd, Logged.bind_error]
      exact .inr ⟨before, b, after ++ [a], f, by simp, hb, hn, hf, rfl⟩

end Draft

/-! ### Texts -/

/-- What is warned of when a text is added, by how that ends. -/
inductive Warns (policy : UnknownKeys) (text : String) : Except Failure Draft → List Event → Prop
  | malformed {m : Assignment.Malformed} (h : Assignment.read text = .error m) :
      Warns policy text (.error (.malformed m.line m.cause.message)) []
  | added {as : List Assignment} {d : Draft} (h : Assignment.read text = .ok as) :
      Warns policy text (.ok d) (Assignment.warnings as)
  | refused {before after : List Assignment} {a : Assignment} {f : Failure}
      (h : Assignment.read text = .ok (before ++ a :: after))
      (hb : ∀ b ∈ before, policy.Accepts (b.key, .literal b.value))
      (ha : ¬ policy.Accepts (a.key, .literal a.value)) (hf : a.FailsAs f) :
      Warns policy text (.error f) (Assignment.warnings before ++ a.rebinding before)

/-- What there is to warn of in a text that can be read. -/
def Assignment.warningsOf (text : String) : List Event :=
  match read text with
  | .ok as => warnings as
  | .error _ => []

theorem Warns.eq_of_ok {policy : UnknownKeys} {text : String} {d : Draft} {es : List Event}
    (h : Warns policy text (.ok d) es) : es = Assignment.warningsOf text := by
  cases h with
  | added hr => rw [Assignment.warningsOf, hr]

namespace Logged

variable {ε α β : Type} {es : List Event} {r : Except ε α} {x : Logged ε α} {f : α → Logged ε β}

theorem warnings_of_level (h : ∀ e ∈ es, e.level = .warn) :
    (⟨es, r⟩ : Logged ε α).warnings = es := by
  rw [warnings, List.filter_eq_self]
  intro e he
  exact decide_eq_true (h e he)

theorem warnings_bind_of_ok {a : α} (h : x.result = .ok a) :
    (x >>= f).warnings = x.warnings ++ (f a).warnings := by
  obtain ⟨es, r⟩ := x
  subst h
  rw [bind_ok, warnings, List.filter_append]
  rfl

end Logged

namespace Draft

variable {d d' : Draft} {text : String}

theorem warns_addText_result (d : Draft) (text : String) :
    Warns d.policy text (d.addText text .assignments).result
      (d.addText text .assignments).warnings := by
  unfold addText
  cases hr : Assignment.read text with
  | error m => exact .malformed hr
  | ok as =>
    dsimp only
    rcases addAssignments_cases d as with ⟨d', hd⟩ | ⟨before, a, after, f, rfl, hb, hn, hf, hd⟩
    · rw [hd, Logged.warnings_of_level fun e => Assignment.level_of_mem_warnings]
      exact .added hr
    · have hl : ∀ e ∈ Assignment.warnings before ++ a.rebinding before, e.level = .warn := by
        intro e he
        rcases List.mem_append.mp he with he | he
        · exact Assignment.level_of_mem_warnings he
        · exact Assignment.level_of_mem_rebinding he
      rw [hd, Logged.warnings_of_level hl]
      exact .refused hr hb hn hf

theorem warnings_addText_of_ok (h : (d.addText text .assignments).result = .ok d') :
    (d.addText text .assignments).warnings = Assignment.warningsOf text := by
  have hw := warns_addText_result d text
  rw [h] at hw
  exact hw.eq_of_ok

def addTexts (d : Draft) (texts : List String) : Logged Failure Draft :=
  texts.foldlM (fun d text => addText d text .assignments) d

theorem warnings_addTexts {texts : List String} (h : (d.addTexts texts).result = .ok d') :
    (d.addTexts texts).warnings = texts.flatMap Assignment.warningsOf := by
  induction texts generalizing d with
  | nil => rfl
  | cons text texts ih =>
    rw [addTexts, List.foldlM_cons] at h ⊢
    rw [Logged.result_bind, bind_eq_ok] at h
    obtain ⟨d₁, ht, h⟩ := h
    rw [Logged.warnings_bind_of_ok ht, warnings_addText_of_ok ht, List.flatMap_cons]
    exact congrArg _ (ih h)

theorem warnings_addFile {w : World} {path : String} {bytes : List UInt8}
    (hw : w.entry? path = some (.file bytes)) (ht : text.toUTF8 = bytes.toByteArray)
    (he : Encoding.ofPath path = .assignments) :
    (d.addFile w path).warnings = (d.addText text .assignments).warnings := by
  rw [addFile_of_encodes hw ht, he]
  rfl

/-- Adding a text warns of exactly the assignments to keys that were assigned before in the text and
of the keys that are not known, up to the assignment that is refused. So as many assignments are
warned of as there are more assignments than keys. Texts that are added one after the other are warned
of one after the other, and files are warned of as their texts. -/
theorem warns_addText (d : Draft) (text : String) :
    Warns d.policy text (d.addText text .assignments).result
        (d.addText text .assignments).warnings ∧
      (∀ as : List Assignment, (Assignment.warnings as).countP Event.isRebound +
        (as.map (·.key)).toFinset.card = as.length) ∧
      (∀ (texts : List String) (d' : Draft), (d.addTexts texts).result = .ok d' →
        (d.addTexts texts).warnings = texts.flatMap Assignment.warningsOf) ∧
      ∀ (w : World) (path : String) (bytes : List UInt8), w.entry? path = some (.file bytes) →
        text.toUTF8 = bytes.toByteArray → Encoding.ofPath path = .assignments →
          (d.addFile w path).warnings = (d.addText text .assignments).warnings :=
  ⟨warns_addText_result d text, Assignment.countP_warnings, fun _ _ => warnings_addTexts,
    fun _ _ _ => warnings_addFile⟩

end Draft

end ListfileSettings
