import ListfileSettings.Proofs.CommandLine.Reload
import ListfileSettings.Proofs.Draft.Environment

/-!
# What a command sees of the environment

A command reads files without looking at the environment. It looks at the environment only to load
settings, and there at the variables under its stem alone.
-/
namespace ListfileSettings

namespace CommandLine

open Override

variable {o : Options} {origin : Origin} {w w' : World} {d : Draft}

/-! ### Reading files -/

theorem upwards_congr {ε : Type} (hf : w.files = w'.files) (hc : w.cwd = w'.cwd) (start : String) :
    (Search.upwards w start : Logged ε (Option String)) = Search.upwards w' start := by
  obtain ⟨files, cwd, environment⟩ := w
  obtain ⟨files', cwd', environment'⟩ := w'
  subst hf hc
  rfl

theorem draft_congr (hf : w.files = w'.files) (hc : w.cwd = w'.cwd) :
    draft o origin w = draft o origin w' := by
  obtain ⟨files, cwd, environment⟩ := w
  obtain ⟨files', cwd', environment'⟩ := w'
  subst hf hc
  rfl

theorem stem_of_draft (h : (draft o origin w).result = .ok d) : d.stem = none := by
  have hs : ∀ path, ((({ policy := o.unknownKeys } : Draft).addFile w path).result = .ok d) →
      d.stem = none := by
    intro path ha
    obtain ⟨es, r, -, -, rfl⟩ := Draft.result_addFile_iff.mp ha
    rfl
  unfold draft at h
  cases hf : origin.file with
  | some path =>
    rw [hf] at h
    exact hs path (Logged.result_mapFailure_iff.mp h)
  | none =>
    rw [hf] at h
    have ha := Logged.result_mapFailure_iff.mp h
    rw [Draft.result_addNearest] at ha
    split at ha
    · next path _ => exact hs path ha
    · cases ha

/-- The stem of a draft that has been read is the one that overrides are asked for under. -/
theorem stem_toLoad {stem : String} (hd : (draft o origin w).result = .ok d)
    (hs : (toLoad o d).stem = some stem) :
    o.ignoresOverrides = false ∧ stem = Text.upper o.stem := by
  unfold toLoad at hs
  split at hs
  · rw [stem_of_draft hd] at hs
    cases hs
  · next hi => exact ⟨Bool.eq_false_of_not_eq_true hi, (Option.some.inj hs).symm⟩

/-! ### Running commands -/

theorem load_congr (hf : w.files = w'.files) (hc : w.cwd = w'.cwd)
    (he : o.ignoresOverrides = true ∨ SameUnder (Text.upper o.stem) w w') :
    load o origin w = load o origin w' := by
  unfold load
  rw [draft_congr hf hc]
  refine Logged.bind_congr_of_result fun d hd => ?_
  have hl : (toLoad o d).load w = (toLoad o d).load w' := by
    refine Draft.load_congr fun stem hs => ?_
    obtain ⟨hi, rfl⟩ := stem_toLoad (Logged.result_lift_iff.mp hd) hs
    exact he.resolve_left (Bool.not_eq_true _ ▸ hi)
  unfold toLoad at hl
  dsimp only
  rw [hl]

theorem result_load_congr (hf : w.files = w'.files) (hc : w.cwd = w'.cwd)
    (he : SameSetUnder (Text.upper o.stem) w w') :
    (load o origin w).result = (load o origin w').result := by
  unfold load
  rw [draft_congr hf hc, Logged.result_bind, Logged.result_bind]
  refine bind_congr_of_ok fun d hd => ?_
  have hl : ((toLoad o d).load w).result = ((toLoad o d).load w').result := by
    refine Draft.result_load_congr fun stem hs => ?_
    obtain ⟨-, rfl⟩ := stem_toLoad (Logged.result_lift_iff.mp hd) hs
    exact he
  unfold toLoad at hl
  dsimp only
  rw [Logged.result_bind, Logged.result_bind, Logged.mapFailure, Logged.mapFailure, hl]

/-- The command is told to ignore overrides, or it loads no settings. -/
def IgnoresEnvironment (o : Options) : Prop :=
  o.ignoresOverrides = true ∨ (∃ start, o.command = .locate start) ∨
    ∃ encoding, o.command = .defaults encoding

theorem run_congr (hf : w.files = w'.files) (hc : w.cwd = w'.cwd)
    (he : IgnoresEnvironment o ∨ SameUnder (Text.upper o.stem) w w') : o.run w = o.run w' := by
  unfold Options.run
  cases ho : o.command with
  | check origin =>
    have hi : o.ignoresOverrides = true ∨ SameUnder (Text.upper o.stem) w w' := by
      simpa [IgnoresEnvironment, ho] using he
    dsimp only
    rw [load_congr hf hc hi]
  | print origin encoding =>
    have hi : o.ignoresOverrides = true ∨ SameUnder (Text.upper o.stem) w w' := by
      simpa [IgnoresEnvironment, ho] using he
    dsimp only
    rw [load_congr hf hc hi]
  | locate start =>
    dsimp only
    rw [upwards_congr hf hc]
  | defaults encoding => rfl

theorem result_run_congr (hf : w.files = w'.files) (hc : w.cwd = w'.cwd)
    (he : SameSetUnder (Text.upper o.stem) w w') : (o.run w).result = (o.run w').result := by
  unfold Options.run
  cases ho : o.command with
  | check origin =>
    dsimp only
    rw [Logged.result_bind, Logged.result_bind, result_load_congr hf hc he]
  | print origin encoding =>
    dsimp only
    rw [Logged.result_bind, Logged.result_bind, result_load_congr hf hc he]
  | locate start =>
    dsimp only
    rw [upwards_congr hf hc]
  | defaults encoding => rfl

/-- In an environment of texts, loading depends on nothing but the variables under the stem: neither on
their order nor on other variables. What comes of it depends on which ones there are; what is reported
depends, beside that, on how often each is listed. No name that is looked at is without a key. A command
depends on no more, and on nothing, be it text or not, if it ignores overrides or loads no settings. -/
theorem environment_noninterference :
    (∀ (d : Draft) (w w' : World),
      ((∀ stem, d.stem = some stem → SameUnder stem w w') → d.load w = d.load w') ∧
      ((∀ stem, d.stem = some stem → SameSetUnder stem w w') →
        (d.load w).result = (d.load w').result)) ∧
    (∀ stem (w w' : World), w.IsText → w.environment.Perm w'.environment → SameUnder stem w w') ∧
    (∀ stem (w w' : World), SameSetUnder stem w w' → (under stem w.texts).Nodup →
      (under stem w'.texts).Nodup → SameUnder stem w w') ∧
    (∀ stem (w w' : World) (before others others' after : List Variable), w.IsText → w'.IsText →
      w.environment = before ++ others ++ after → w'.environment = before ++ others' ++ after →
      (∀ v ∈ others ++ others', ∀ rest value, v.texts? ≠ some (stem ++ "__" ++ rest, value)) →
        SameUnder stem w w') ∧
    (∀ (d : Draft) (w : World) (name : String),
      (d.load w).result ≠ .error (.failure (.environment name "invalid key format"))) ∧
    ∀ (o : Options) (w w' : World), w.files = w'.files → w.cwd = w'.cwd →
      (IgnoresEnvironment o ∨ SameUnder (Text.upper o.stem) w w' → o.run w = o.run w') ∧
      (SameSetUnder (Text.upper o.stem) w w' → (o.run w).result = (o.run w').result) :=
  ⟨fun _ _ _ => ⟨Draft.load_congr, Draft.result_load_congr⟩, fun _ _ _ => sameUnder_of_perm,
    fun _ _ _ => SameSetUnder.sameUnder, fun _ _ _ _ _ _ _ => sameUnder_replace,
    Draft.load_ne_invalid_key, fun _ _ _ hf hc => ⟨run_congr hf hc, result_run_congr hf hc⟩⟩

/-- Which variables there are under the stem does not decide what is reported: one that is listed twice
and has no key is reported twice. Nor does it decide what comes of loading: a variable that is no text
breaks it off, though it is not under the stem. -/
theorem environment_interference :
    (SameSetUnder "P" ⟨.empty, [], [.ofTexts "P__X" "1"]⟩
        ⟨.empty, [], [.ofTexts "P__X" "1", .ofTexts "P__X" "1"]⟩ ∧
      (({ policy := .warn, stem := some "P" } : Draft).load
          ⟨.empty, [], [.ofTexts "P__X" "1"]⟩).events = [.ignored "x" none, .loaded none] ∧
      (({ policy := .warn, stem := some "P" } : Draft).load
          ⟨.empty, [], [.ofTexts "P__X" "1", .ofTexts "P__X" "1"]⟩).events =
        [.ignored "x" none, .ignored "x" none, .loaded none]) ∧
    (({ stem := some "P" } : Draft).load ⟨.empty, [], []⟩).result = .ok {} ∧
      (({ stem := some "P" } : Draft).load .notText).result = .error .crash := by
  refine ⟨⟨⟨World.isText_of_texts [("P__X", "1")] rfl,
    World.isText_of_texts [("P__X", "1"), ("P__X", "1")] rfl, fun rest value => ?_⟩, ?_, ?_⟩, ?_, ?_⟩
  · rw [World.texts_of_texts [("P__X", "1")] rfl,
      World.texts_of_texts [("P__X", "1"), ("P__X", "1")] rfl]
    simp
  · rw [Draft.load_of_pairwise [("P__X", "1")] rfl rfl (by decide) (by decide)]
    rfl
  · rw [Draft.load_of_pairwise [("P__X", "1"), ("P__X", "1")] rfl rfl (by decide) (by decide)]
    rfl
  · rw [Draft.load_of_pairwise [] rfl rfl (by decide) (by decide)]
    rfl
  · rw [Draft.result_load_crash_iff]
    exact fun h => World.not_isText_notText (h.resolve_left nofun)

end CommandLine

end ListfileSettings
