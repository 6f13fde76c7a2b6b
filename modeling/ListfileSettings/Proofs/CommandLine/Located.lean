import ListfileSettings.Proofs.CommandLine.Reload
import ListfileSettings.Proofs.Draft.Nearest

/-!
# The file that commands agree on

The file that is located is the one that the other commands load when they are given none. They come
to what they come to when they are told to load it; only a failure to read it is put in a context then.
-/
namespace ListfileSettings.CommandLine

variable {α β : Type} {o : Options} {w : World} {x y : Except (Halt CommandFailure) α}
  {path start directory : String} {f : Failure}

def Options.outcome (o : Options) (command : Command) (w : World) :
    Except (Halt CommandFailure) String :=
  ({ o with command }.run w).result

/-! ### Outcomes up to a context -/

/-- Both end with the same value, or for the same failure of settings, which the second one can put in
the context of loading the file, or both are broken off. -/
inductive SameButContext (path : String) {α : Type} :
    Except (Halt CommandFailure) α → Except (Halt CommandFailure) α → Prop
  | ok (a : α) : SameButContext path (.ok a) (.ok a)
  | error (context : Option String) (f : Failure) : SameButContext path
      (.error (.failure (.settings context f))) (.error (.failure (.settings context f)))
  | context (f : Failure) : SameButContext path (.error (.failure (.settings none f)))
      (.error (.failure (.settings (some ("failed to load " ++ path)) f)))
  | crash : SameButContext path (.error .crash) (.error .crash)

theorem sameButContext_mapError {x : Except (Halt Failure) α} {context : Option String} :
    SameButContext path (x.mapError (Halt.map (.settings context)))
      (x.mapError (Halt.map (.settings context))) := by
  cases x with
  | error h =>
    cases h with
    | failure f => exact .error context f
    | crash => exact .crash
  | ok a => exact .ok a

theorem sameButContext_loading {x : Except Failure α} : SameButContext path
    ((x.mapError (.settings none)).mapError .failure)
    ((x.mapError (.settings (some ("failed to load " ++ path)))).mapError .failure) := by
  cases x with
  | error f => exact .context f
  | ok a => exact .ok a

theorem SameButContext.bind {g : α → Except (Halt CommandFailure) β} (h : SameButContext path x y)
    (hg : ∀ a, SameButContext path (g a) (g a)) : SameButContext path (x >>= g) (y >>= g) := by
  cases h with
  | ok a => exact hg a
  | error context f => exact .error context f
  | context f => exact .context f
  | crash => exact .crash

theorem message_loading (path : String) (f : Failure) :
    (CommandFailure.settings (some ("failed to load " ++ path)) f).message =
      "failed to load " ++ path ++ ": " ++ (CommandFailure.settings none f).message :=
  String.intercalate_cons_cons

/-! ### Loading the file -/

theorem result_draft_nearest (h : Search.nearest w (Path.fold w.cwd start) = some path) :
    (draft o { directory := start } w).lift.result =
      ((({ policy := o.unknownKeys } : Draft).addFile w path).result.mapError
        (.settings none)).mapError .failure := by
  change Except.mapError _ (Except.mapError _ (Draft.addNearest _ w start).result) = _
  rw [Draft.result_addNearest, h]

/-- What comes after the file has been read is the same in both. -/
theorem sameButContext_load (o : Options) (directory : String)
    (h : Search.nearest w (Path.fold w.cwd start) = some path) :
    SameButContext path (load o { directory := start } w).result
      (load o { file := some path, directory } w).result := by
  rw [load, load, Logged.result_bind, Logged.result_bind, result_draft_nearest h]
  refine SameButContext.bind sameButContext_loading fun d => ?_
  dsimp only
  rw [Logged.result_bind]
  exact SameButContext.bind sameButContext_mapError fun r => .ok _

theorem source_of_load_nearest {r : Settings} {source : Option String}
    (h : Search.nearest w (Path.fold w.cwd start) = some path)
    (hl : (load o { directory := start } w).result = .ok (r, source)) : source = some path := by
  obtain ⟨d, hd, -, rfl⟩ := result_load_iff.mp hl
  rw [← Logged.result_lift_iff, result_draft_nearest h, mapError_eq_ok, mapError_eq_ok] at hd
  exact Draft.source_of_addFile hd

/-- A file that is found is there to be loaded. -/
theorem kind_of_load_nearest {context : Option String}
    (h : Search.nearest w (Path.fold w.cwd start) = some path)
    (hl : (load o { directory := start } w).result = .error (.failure (.settings context f))) :
    f.kind ≠ .inputOutput := by
  rw [load, Logged.result_bind_eq_error_iff, result_draft_nearest h] at hl
  rcases hl with hl | ⟨d, -, hl⟩
  · obtain ⟨e, hl, he⟩ := mapError_eq_error_iff.mp hl
    obtain rfl := Halt.failure.inj he
    obtain ⟨f', hf, he⟩ := mapError_eq_error_iff.mp hl
    obtain ⟨-, rfl⟩ := CommandFailure.settings.inj he
    exact Draft.kind_of_addFile (Draft.isFile_of_nearest h) hf
  · dsimp only at hl
    rw [Logged.result_bind_eq_error_iff] at hl
    rcases hl with hl | ⟨r, -, hl⟩
    · obtain ⟨e, hf, he⟩ := mapError_eq_error_iff.mp hl
      cases e with
      | failure f' =>
        obtain ⟨-, rfl⟩ := CommandFailure.settings.inj (Halt.failure.inj he)
        exact Draft.kind_of_load_ne hf
      | crash => cases he
    · cases hl

theorem result_load_of_nearest_none (h : Search.nearest w (Path.fold w.cwd start) = none) :
    (load o { directory := start } w).result =
      .error (.failure (.settings none (.notDiscovered start))) := by
  have hd : (draft o { directory := start } w).lift.result =
      .error (.failure (.settings none (.notDiscovered start))) := by
    change Except.mapError _ (Except.mapError _ (Draft.addNearest _ w start).result) = _
    rw [Draft.result_addNearest, h]
    rfl
  rw [load, Logged.result_bind, hd]
  rfl

/-! ### Commands -/

theorem outcome_locate : Options.outcome o (.locate start) w =
    match Search.nearest w (Path.fold w.cwd start) with
    | some path => .ok (path ++ "\n")
    | none => .error (.failure (.nothingFound start)) := by
  unfold Options.outcome Options.run
  dsimp only
  rw [Logged.result_bind, Search.result_upwards]
  cases Search.nearest w (Path.fold w.cwd start) <;> rfl

theorem outcome_check {origin : Origin} : Options.outcome o (.check origin) w =
    (load o origin w).result >>= fun loaded =>
      .ok (match loaded.2 with | some path => path ++ ": ok\n" | none => "ok\n") := by
  change (load o origin w >>= _).result = _
  rw [Logged.result_bind]
  refine congrArg _ (funext fun loaded => ?_)
  obtain ⟨r, _ | path⟩ := loaded <;> rfl

theorem outcome_print {origin : Origin} {encoding : Encoding} :
    Options.outcome o (.print origin encoding) w =
      (load o origin w).result >>= fun loaded => .ok (printed loaded.1 encoding) := by
  change (load o origin w >>= _).result = _
  rw [Logged.result_bind]
  rfl

/-- Locating fails exactly if the commands that load settings find no file, and a file that it prints
is the one that they load: they come to the same as with the file itself, but for the context of a
failure to read it, which is put before the message. -/
theorem located_is_loaded (o : Options) (w : World) (start : String) :
    (∀ e, o.outcome (.locate start) w = .error e →
      o.outcome (.check { directory := start }) w =
          .error (.failure (.settings none (.notDiscovered start))) ∧
        ∀ encoding, o.outcome (.print { directory := start } encoding) w =
          .error (.failure (.settings none (.notDiscovered start)))) ∧
    (∀ context s, o.outcome (.check { directory := start }) w =
        .error (.failure (.settings context (.notDiscovered s))) →
      ∃ e, o.outcome (.locate start) w = .error e) ∧
    (∀ encoding context s, o.outcome (.print { directory := start } encoding) w =
        .error (.failure (.settings context (.notDiscovered s))) →
      ∃ e, o.outcome (.locate start) w = .error e) ∧
    ∀ line, o.outcome (.locate start) w = .ok line → ∃ path, line = path ++ "\n" ∧ ∀ directory,
      SameButContext path (o.outcome (.check { directory := start }) w)
          (o.outcome (.check { file := some path, directory }) w) ∧
        (∀ text, o.outcome (.check { directory := start }) w = .ok text →
          text = path ++ ": ok\n") ∧
        (∀ encoding, SameButContext path (o.outcome (.print { directory := start } encoding) w)
          (o.outcome (.print { file := some path, directory } encoding) w)) ∧
        ∀ f, (CommandFailure.settings (some ("failed to load " ++ path)) f).message =
          "failed to load " ++ path ++ ": " ++ (CommandFailure.settings none f).message := by
  rw [outcome_locate]
  simp only [outcome_check, outcome_print]
  cases h : Search.nearest w (Path.fold w.cwd start) with
  | none =>
    dsimp only
    rw [result_load_of_nearest_none h]
    exact ⟨fun e _ => ⟨rfl, fun _ => rfl⟩, fun _ _ _ => ⟨_, rfl⟩, fun _ _ _ _ => ⟨_, rfl⟩,
      fun _ he => nomatch he⟩
  | some found =>
    dsimp only
    have hn : ∀ {β : Type} {g : Settings × Option String → β} {context : Option String} {s : String},
        ((load o { directory := start } w).result >>= fun loaded => .ok (g loaded)) ≠
          .error (.failure (.settings context (.notDiscovered s))) := by
      intro β g context s he
      rcases bind_eq_error_iff.mp he with he | ⟨loaded, -, he⟩
      · exact kind_of_load_nearest h he rfl
      · cases he
    refine ⟨nofun, fun _ _ he => absurd he hn, fun _ _ _ he => absurd he hn,
      fun line hp => ⟨found, (Except.ok.inj hp).symm, fun directory => ?_⟩⟩
    have hl := sameButContext_load o directory h
    refine ⟨hl.bind fun loaded => .ok _, fun text ht => ?_, fun encoding => hl.bind fun loaded => .ok _,
      message_loading found⟩
    obtain ⟨⟨r, source⟩, ha, ht⟩ := bind_eq_ok.mp ht
    obtain rfl := source_of_load_nearest h ha
    exact (Except.ok.inj ht).symm

end ListfileSettings.CommandLine
