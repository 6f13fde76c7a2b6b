import ListfileSettings.Proofs.Draft.Sources
import ListfileSettings.Proofs.Draft.Stem
import Mathlib.Data.List.DropRight

/-!
# Sequences of calls

A draft is made by a sequence of calls, in any order and number, and then loaded. What comes of it
is said by the calls alone: which settings they give, which policy and stem they set last.
-/
namespace ListfileSettings

/-- A call that adds to a draft or changes how it is made. -/
inductive Call where
  | defaults
  | policy (policy : UnknownKeys)
  | text (content : String) (encoding : Encoding)
  | file (path : String)
  | optionalFile (path : String)
  | nearest (start : String)
  | stem (stem : String)
  deriving DecidableEq

namespace Call

def apply (w : World) (d : Draft) : Call → Logged Failure Draft
  | defaults => pure d.reset
  | policy p => pure (d.withPolicy p)
  | text content encoding => d.addText content encoding
  | file path => d.addFile w path
  | optionalFile path => d.addOptionalFile w path
  | nearest start => d.addNearest w start
  | stem s => pure (d.withStem s)

/-! ### What a call gives -/

def policy? : Call → Option UnknownKeys
  | policy p => some p
  | _ => none

def stem? : Call → Option String
  | stem s => some s
  | _ => none

def path? (w : World) : Call → Option String
  | file path => some path
  | optionalFile path => if w.exists? path then some path else none
  | nearest start => Search.nearest w (Path.fold w.cwd start)
  | _ => none

/-- The settings that the call adds, if what it adds is there and can be read. -/
def settings? (w : World) : Call → Option (List Setting)
  | text content encoding => Given.settings? content encoding
  | file path => Given.fileSettings? w path
  | optionalFile path => if w.exists? path then Given.fileSettings? w path else some []
  | nearest start => (Search.nearest w (Path.fold w.cwd start)).bind (Given.fileSettings? w)
  | _ => some []

end Call

namespace Draft

open Settings

def build (w : World) (cs : List Call) : Logged Failure Draft := cs.foldlM (Call.apply w) {}

/-! ### The meaning of a sequence -/

section Meaning

variable (w : World) (cs : List Call)

def policyOf : UnknownKeys := (cs.filterMap Call.policy?).getLast?.getD .reject

def stemOf : Option String := (cs.filterMap Call.stem?).getLast?

/-- The settings of all sources after the last start from the defaults, in their order. -/
def given : List Setting := (cs.rtakeWhile (· ≠ .defaults)).flatMap fun c => (c.settings? w).getD []

/-- Each source can be read and is accepted under the policy in force when it is added. -/
def SourcesFit : Prop := ∀ cs₁ c, cs₁ ++ [c] <+: cs →
  ∃ es, c.settings? w = some es ∧ ∀ e ∈ es, (policyOf cs₁).Accepts e

/-- Each variable under the last stem, taken in upper case, is accepted under the last policy. -/
def OverridesFit : Prop := ∀ stem, stemOf cs = some stem → ∀ v ∈ w.texts, ∀ name,
  Override.Sets (Text.upper stem) v name → (policyOf cs).Accepts (name, .text v.2)

def NotOverridden (k : Key) : Prop := ∀ stem, stemOf cs = some stem → ∀ v ∈ w.texts,
  ¬ Override.Sets (Text.upper stem) v k.text

/-- The value of a key in the end: what the last variable that sets it denotes, else what is given
last for it by the sources, else its default. -/
inductive Holds (k : Key) : k.kind.Value → Prop
  | override {stem : String} {v : String × String} {x : k.kind.Value} (hs : stemOf cs = some stem)
      (hv : Override.IsLast (Text.upper stem) w.texts k.text v)
      (hx : (Given.text v.2).Denotes k.kind x) : Holds k x
  | source {es₁ es₂ : List Setting} {g : Given} {x : k.kind.Value} (ho : NotOverridden w cs k)
      (hg : given w cs = es₁ ++ (k.text, g) :: es₂) (hl : ∀ e ∈ es₂, e.1 ≠ k.text)
      (hx : g.Denotes k.kind x) : Holds k x
  | default (ho : NotOverridden w cs k) (hn : ∀ e ∈ given w cs, e.1 ≠ k.text) :
      Holds k (({} : Settings).get k)

def Merged (r : Settings) : Prop := ∀ k, Holds w cs k (r.get k)

end Meaning

variable {w : World} {cs cs' : List Call} {c : Call} {d d' : Draft} {r : Settings}

/-! ### One call -/

theorem result_pure_iff {d₁ : Draft} {policy : UnknownKeys} {r : Settings} {f : Settings → Draft}
    (h : f r = d₁) : (pure d₁ : Logged Failure Draft).result = .ok d' ↔
      ∃ es r', some [] = some es ∧ Steps policy r es r' ∧ d' = f r' := by
  subst h
  simp [Logged.pure_eq, steps_nil_iff, eq_comm]

theorem result_apply_iff : (c.apply w d).result = .ok d' ↔ ∃ es r, c.settings? w = some es ∧
    Steps d.policy (if c = .defaults then {} else d.settings) es r ∧
      d' = ⟨r, c.policy?.getD d.policy, (c.stem?.map Text.upper).or d.stem,
        (c.path? w).or d.source⟩ := by
  cases c with
  | defaults => exact result_pure_iff rfl
  | policy p => exact result_pure_iff rfl
  | stem s => exact result_pure_iff rfl
  | text content encoding => exact result_addText_iff
  | file path => exact result_addFile_iff
  | optionalFile path =>
    simp only [Call.apply, addOptionalFile, Call.settings?, Call.path?]
    split
    · exact result_addFile_iff
    · exact result_pure_iff rfl
  | nearest start =>
    simp only [Call.apply, result_addNearest, Call.settings?, Call.path?]
    cases Search.nearest w (Path.fold w.cwd start) with
    | none => simp
    | some path => exact result_addFile_iff

/-! ### All calls -/

theorem build_concat : build w (cs ++ [c]) = build w cs >>= fun d => c.apply w d := by
  rw [build, List.foldlM_append]
  simp [build]

theorem getLast?_filterMap_concat {α β : Type} (f : α → Option β) (as : List α) (a : α) :
    ((as ++ [a]).filterMap f).getLast? = (f a).or (as.filterMap f).getLast? := by
  cases h : f a <;> simp [h]

theorem policyOf_concat : policyOf (cs ++ [c]) = c.policy?.getD (policyOf cs) := by
  rw [policyOf, getLast?_filterMap_concat, policyOf]
  cases c.policy? <;> rfl

theorem stemOf_concat : stemOf (cs ++ [c]) = c.stem?.or (stemOf cs) :=
  getLast?_filterMap_concat Call.stem? cs c

theorem given_concat {es : List Setting} (h : c.settings? w = some es) :
    given w (cs ++ [c]) = if c = .defaults then es else given w cs ++ es := by
  by_cases hc : c = .defaults
  · subst hc
    obtain rfl := Option.some.inj h
    simp [given]
  · simp [given, hc, h]

theorem sourcesFit_concat_iff : SourcesFit w (cs ++ [c]) ↔
    SourcesFit w cs ∧ ∃ es, c.settings? w = some es ∧ ∀ e ∈ es, (policyOf cs).Accepts e := by
  unfold SourcesFit
  constructor
  · intro h
    refine ⟨fun cs₁ c₁ hp => h cs₁ c₁ (hp.trans (List.prefix_append cs [c])), ?_⟩
    exact h cs c (List.prefix_refl _)
  · intro h cs₁ c₁ hp
    obtain ⟨hs, he⟩ := h
    rcases List.prefix_concat_iff.mp hp with hp | hp
    · obtain ⟨rfl, hc⟩ := List.append_inj' hp rfl
      obtain rfl := List.singleton_inj.mp hc
      exact he
    · exact hs cs₁ c₁ hp

structure Describes (w : World) (cs : List Call) (d : Draft) : Prop where
  policy : d.policy = policyOf cs
  stem : d.stem = (stemOf cs).map Text.upper
  settings : Updates {} (given w cs) d.settings

theorem describes_nil : Describes w [] {} := ⟨rfl, rfl, updates_nil⟩

/-- A call takes a draft that the calls before it describe to one that they describe with it. -/
theorem describes_concat (h : Describes w cs d) (ha : (c.apply w d).result = .ok d') :
    Describes w (cs ++ [c]) d' := by
  obtain ⟨es, r, he, hs, rfl⟩ := result_apply_iff.mp ha
  have hu := (steps_iff.mp hs).2
  refine ⟨?_, ?_, ?_⟩
  · rw [policyOf_concat, h.policy]
  · rw [stemOf_concat, h.stem]
    cases c.stem? <;> rfl
  · rw [given_concat he]
    split at hu
    · next hc =>
      rw [if_pos hc]
      exact hu
    · next hc =>
      rw [if_neg hc]
      exact h.settings.append hu

theorem exists_apply_iff (h : Describes w cs d) : (∃ d', (c.apply w d).result = .ok d') ↔
    ∃ es, c.settings? w = some es ∧ ∀ e ∈ es, (policyOf cs).Accepts e := by
  simp only [result_apply_iff, h.policy]
  constructor
  · intro h
    obtain ⟨d', es, r, he, hs, -⟩ := h
    exact ⟨es, he, (of_steps hs).1⟩
  · intro h
    obtain ⟨es, he, ha⟩ := h
    obtain ⟨r, hs⟩ := exists_steps ha
    exact ⟨_, es, r, he, hs, rfl⟩

theorem describes_of_build (h : (build w cs).result = .ok d) : Describes w cs d := by
  induction cs using List.reverseRecOn generalizing d with
  | nil =>
    obtain rfl := Except.ok.inj h
    exact describes_nil
  | append_singleton cs c ih =>
    rw [build_concat, Logged.result_bind] at h
    obtain ⟨d₁, hd, ha⟩ := bind_eq_ok.mp h
    exact describes_concat (ih hd) ha

theorem exists_build_iff : (∃ d, (build w cs).result = .ok d) ↔ SourcesFit w cs := by
  induction cs using List.reverseRecOn with
  | nil =>
    refine iff_of_true ⟨{}, rfl⟩ fun cs₁ c hp => ?_
    simp at hp
  | append_singleton cs c ih =>
    rw [sourcesFit_concat_iff, ← ih, build_concat]
    simp only [Logged.result_bind, bind_eq_ok]
    constructor
    · intro h
      obtain ⟨d', d, hd, ha⟩ := h
      exact ⟨⟨d, hd⟩, (exists_apply_iff (describes_of_build hd)).mp ⟨d', ha⟩⟩
    · intro h
      obtain ⟨⟨d, hd⟩, he⟩ := h
      obtain ⟨d', ha⟩ := (exists_apply_iff (describes_of_build hd)).mpr he
      exact ⟨d', d, hd, ha⟩

/-! ### Overrides and the end -/

theorem overridesFit_iff : OverridesFit w cs ↔
    ∀ e ∈ overrides w.texts ((stemOf cs).map Text.upper), (policyOf cs).Accepts e := by
  unfold OverridesFit
  cases stemOf cs with
  | none => simp [overrides]
  | some stem =>
    simp only [Option.some.injEq, forall_eq', Option.map_some, overrides, Override.settings,
      List.forall_mem_map]
    constructor
    · intro h v hv
      have hm := Override.mem_under_iff.mp hv
      exact h v hm.1 _ hm.2
    · intro h v hv name hs
      have hk := Override.keyText_of_sets hs
      have hm := h v (Override.mem_under_iff.mpr ⟨hv, hk ▸ hs⟩)
      rwa [hk] at hm

theorem lookup_overrides_eq_none_iff {k : Key} :
    (overrides w.texts ((stemOf cs).map Text.upper)).reverse.lookup k.text = none ↔
      NotOverridden w cs k := by
  unfold NotOverridden
  cases stemOf cs with
  | none => simp [overrides]
  | some stem =>
    simp only [Option.some.injEq, forall_eq']
    exact Override.lookup_settings_eq_none_iff

theorem lookup_overrides_eq_some_iff {k : Key} {g : Given} :
    (overrides w.texts ((stemOf cs).map Text.upper)).reverse.lookup k.text = some g ↔
      ∃ stem v, stemOf cs = some stem ∧
        Override.IsLast (Text.upper stem) w.texts k.text v ∧ g = .text v.2 := by
  cases stemOf cs with
  | none => simp [overrides]
  | some stem => simp [overrides, Override.lookup_settings_eq_some_iff]

theorem holds_iff {k : Key} {x : k.kind.Value} : Holds w cs k x ↔
    match (given w cs ++ overrides w.texts ((stemOf cs).map Text.upper)).reverse.lookup k.text with
    | some g => g.Denotes k.kind x
    | none => x = ({} : Settings).get k := by
  rw [List.reverse_append, List.lookup_append]
  constructor
  · intro h
    cases h with
    | override hs hv hx =>
      rw [lookup_overrides_eq_some_iff.mpr ⟨_, _, hs, hv, rfl⟩]
      exact hx
    | source ho hg hl hx =>
      rw [lookup_overrides_eq_none_iff.mpr ho, Option.none_or,
        lookup_reverse_eq_some_iff.mpr ⟨_, _, hg, hl⟩]
      exact hx
    | default ho hn =>
      rw [lookup_overrides_eq_none_iff.mpr ho, lookup_reverse_eq_none_iff.mpr hn]
      rfl
  · intro h
    cases ho : (overrides w.texts ((stemOf cs).map Text.upper)).reverse.lookup k.text with
    | some g =>
      rw [ho] at h
      obtain ⟨stem, v, hs, hv, rfl⟩ := lookup_overrides_eq_some_iff.mp ho
      exact .override hs hv h
    | none =>
      rw [ho, Option.none_or] at h
      have hn := lookup_overrides_eq_none_iff.mp ho
      cases hg : (given w cs).reverse.lookup k.text with
      | some g =>
        rw [hg] at h
        obtain ⟨es₁, es₂, he, hl⟩ := lookup_reverse_eq_some_iff.mp hg
        exact .source hn he hl h
      | none =>
        rw [hg] at h
        subst h
        exact .default hn (lookup_reverse_eq_none_iff.mp hg)

theorem merged_iff : Merged w cs r ↔
    Updates {} (given w cs ++ overrides w.texts ((stemOf cs).map Text.upper)) r :=
  forall_congr' fun _ => holds_iff

theorem steps_overrides_iff (h : Describes w cs d) :
    Steps d.policy d.settings (overrides w.texts d.stem) r ↔ OverridesFit w cs ∧ Merged w cs r := by
  rw [steps_iff, overridesFit_iff, merged_iff, h.policy, h.stem]
  refine and_congr_right fun ha => ?_
  constructor
  · intro hu
    exact h.settings.append hu
  · intro hu
    obtain ⟨r', hs⟩ := exists_steps (r := d.settings) ha
    have hu' := (steps_iff.mp hs).2
    rw [updates_unique hu (h.settings.append hu')]
    exact hu'

theorem findsText_iff (h : Describes w cs d) : d.FindsText w ↔ stemOf cs = none ∨ w.IsText := by
  rw [FindsText, h.stem, Option.map_eq_none_iff]

theorem result_load_build_iff (h : Describes w cs d) : (d.load w).result = .ok r ↔
    (stemOf cs = none ∨ w.IsText) ∧ OverridesFit w cs ∧ Merged w cs r ∧ r.validate = .ok () := by
  rw [result_load_iff, findsText_iff h, steps_overrides_iff h, and_assoc]

theorem exists_merged (h : Describes w cs d) (ho : OverridesFit w cs) : ∃ r, Merged w cs r := by
  have ha := overridesFit_iff.mp ho
  rw [← h.policy, ← h.stem] at ha
  obtain ⟨r, hs⟩ := exists_steps ha
  exact ⟨r, ((steps_overrides_iff h).mp hs).2⟩

/-! ### Where the stem is set -/

theorem keepsStem_apply (hc : c.stem? = none) : KeepsStem fun d => c.apply w d := by
  cases c with
  | defaults => exact fun _ _ => rfl
  | policy p => exact fun _ _ => rfl
  | text content encoding => exact keepsStem_addText content encoding
  | file path => exact keepsStem_addFile w path
  | optionalFile path => exact keepsStem_addOptionalFile w path
  | nearest start => exact keepsStem_addNearest w start
  | stem s => cases hc

def otherCalls (cs : List Call) : List Call := cs.filter fun c => c.stem?.isNone

theorem otherCalls_concat_of_none (hc : c.stem? = none) :
    otherCalls (cs ++ [c]) = otherCalls cs ++ [c] := by
  simp [otherCalls, hc]

theorem otherCalls_concat_of_some {s : String} (hc : c.stem? = some s) :
    otherCalls (cs ++ [c]) = otherCalls cs := by
  simp [otherCalls, hc]

theorem eq_stem_of_some {s : String} (hc : c.stem? = some s) : c = .stem s := by
  cases c with
  | stem s' => rw [Option.some.inj hc]
  | _ => cases hc

/-- The draft is the one that the other calls make, with the stem that is set last. -/
theorem build_eq : build w cs = relabel ((stemOf cs).map Text.upper) <$> build w (otherCalls cs) := by
  induction cs using List.reverseRecOn with
  | nil => rfl
  | append_singleton cs c ih =>
    rw [build_concat, ih, stemOf_concat, bind_map_left]
    cases hc : c.stem? with
    | none =>
      have hk := keepsStem_apply (w := w) hc
      rw [otherCalls_concat_of_none hc, build_concat, map_bind]
      exact congrArg _ (funext fun d => hk _ d)
    | some s =>
      rw [otherCalls_concat_of_some hc, map_eq_pure_bind, eq_stem_of_some hc]
      rfl

theorem build_congr (ho : otherCalls cs' = otherCalls cs) (hs : stemOf cs' = stemOf cs) :
    build w cs' = build w cs := by
  rw [build_eq, ho, hs, ← build_eq]

/-- What a sequence of calls comes to. It makes a draft exactly if each source fits. Loading the draft is
broken off exactly if there is a stem and some variable, whatever its name is, is no text. Else the draft
is loaded as a record exactly if the overrides fit and the record has the value of each key and is valid
as a whole; if the overrides fit, there is a record to be checked. Where the stem is set makes no
difference. -/
theorem load_build_reference (w : World) (cs : List Call) :
    ((∃ d, (build w cs).result = .ok d) ↔ SourcesFit w cs) ∧
      (∀ d, (build w cs).result = .ok d →
        ((d.load w).result = .error .crash ↔ ¬ (stemOf cs = none ∨ w.IsText)) ∧
        (∀ r, (d.load w).result = .ok r ↔ (stemOf cs = none ∨ w.IsText) ∧
          OverridesFit w cs ∧ Merged w cs r ∧ r.validate = .ok ()) ∧
        (OverridesFit w cs → ∃ r, Merged w cs r)) ∧
      ∀ cs', otherCalls cs' = otherCalls cs → stemOf cs' = stemOf cs →
        build w cs' = build w cs := by
  refine ⟨exists_build_iff, fun d hd => ?_, fun _ => build_congr⟩
  have h := describes_of_build hd
  refine ⟨?_, fun r => result_load_build_iff h, exists_merged h⟩
  rw [result_load_crash_iff, findsText_iff h]

/-- A variable that is no text breaks loading off, though no variable is under the stem and the defaults,
which are valid, have the value of each key. -/
theorem load_broken_off : ∃ d, (build .notText [.stem "FMTRC"]).result = .ok d ∧
    SourcesFit .notText [.stem "FMTRC"] ∧ OverridesFit .notText [.stem "FMTRC"] ∧
    Merged .notText [.stem "FMTRC"] {} ∧ ({} : Settings).validate = .ok () ∧
    (d.load .notText).result = .error .crash := by
  have hb : (build .notText [.stem "FMTRC"]).result = .ok (({} : Draft).withStem "FMTRC") := rfl
  have hn : ∀ v, v ∉ World.notText.texts := by
    rw [World.texts_notText]
    exact fun _ => List.not_mem_nil
  refine ⟨_, hb, exists_build_iff.mp ⟨_, hb⟩, fun _ _ v hv => absurd hv (hn v),
    fun k => .default (fun _ _ v hv => absurd hv (hn v)) nofun, rfl, ?_⟩
  rw [result_load_crash_iff]
  exact fun h => World.not_isText_notText (h.resolve_left nofun)

end Draft

end ListfileSettings
