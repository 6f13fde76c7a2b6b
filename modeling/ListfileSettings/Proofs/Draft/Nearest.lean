import ListfileSettings.Proofs.Draft.Files
import ListfileSettings.Proofs.Search.Nearest

/-!
# Adding the nearest settings file

The file that looking upwards finds is there and is no directory. So adding it fails only if there is
none to be found or for what it says.
-/
namespace ListfileSettings.Draft

open Search

variable {d d' : Draft} {w : World} {start path : String} {f : Failure}

theorem exists_bytes_of_isFile (h : w.isFile path = true) :
    ∃ bytes, w.entry? path = some (.file bytes) := by
  unfold World.isFile at h
  split at h
  · next bytes he => exact ⟨bytes, he⟩
  · cases h

theorem kind_of_addFile (hf : w.isFile path = true) (h : (d.addFile w path).result = .error f) :
    f.kind ≠ .inputOutput := by
  obtain ⟨bytes, he⟩ := exists_bytes_of_isFile hf
  rw [addFile_eq he, Logged.result_bind_eq_error_iff] at h
  rcases h with h | ⟨text, -, h⟩
  · change decode bytes = .error f at h
    unfold decode at h
    split at h
    · cases h
    · obtain rfl := Except.error.inj h
      intro hk
      cases hk
  · rw [Logged.map_eq] at h
    exact kind_of_addText (map_eq_error_iff.mp h)

theorem isFile_of_nearest {p : Place} (h : nearest w p = some path) : w.isFile path = true := by
  obtain ⟨q, -, hq⟩ := List.exists_of_findSome?_eq_some h
  exact List.find?_some hq

theorem source_of_addFile (h : (d.addFile w path).result = .ok d') : d'.source = some path := by
  obtain ⟨es, r, -, -, rfl⟩ := result_addFile_iff.mp h
  rfl

/-- Looking upwards from a path finds the file that is nearest to where the path folds to, and the
file that it finds is the one that is added: only what the file says can then be at fault. -/
theorem addNearest_reference (w : World) (h : w.cwd.IsFolded) (start : String) :
    ∃ found, (upwards w start : Logged Failure (Option String)).result = .ok found ∧
      (∀ path, found = some path ↔ ∃ q name,
        IsNearest w.files (Path.fold w.cwd start) q name ∧ path = Place.path (q ++ [name])) ∧
      (found = none ↔ ∀ q, q <+: Path.fold w.cwd start → HasNone w.files q) ∧
      ∀ d : Draft,
        (∀ s, (d.addNearest w start).result = .error (.notDiscovered s) ↔
          s = start ∧ found = none) ∧
        (∀ path, (d.addNearest w start).result ≠ .error (.fileNotFound path)) ∧
        (∀ path cause, (d.addNearest w start).result ≠ .error (.unreadable path cause)) ∧
        ∀ d', (d.addNearest w start).result = .ok d' → found.isSome ∧ d'.source = found := by
  have hp := Path.isFolded_fold h start
  refine ⟨nearest w (Path.fold w.cwd start), result_upwards, fun path => nearest_eq_some_iff hp,
    nearest_eq_none_iff hp, fun d => ?_⟩
  simp only [result_addNearest]
  cases hn : nearest w (Path.fold w.cwd start) with
  | none =>
    dsimp only
    refine ⟨fun s => ?_, fun p he => ?_, fun p cause he => ?_, fun d' he => ?_⟩
    · simp [eq_comm]
    · cases he
    · cases he
    · cases he
  | some path =>
    dsimp only
    have hk : ∀ f, f.kind = .inputOutput → (d.addFile w path).result ≠ .error f :=
      fun f hf he => kind_of_addFile (isFile_of_nearest hn) he hf
    refine ⟨fun s => ?_, fun p => hk (.fileNotFound p) rfl,
      fun p cause => hk (.unreadable p cause) rfl, fun d' hd => ?_⟩
    · refine iff_of_false (hk (.notDiscovered s) rfl) fun he => ?_
      cases he.2
    · exact ⟨rfl, source_of_addFile hd⟩

/-- A file of a less wanted name that is nearer comes before one of a more wanted name that is farther
away, and a directory is no file whatever it is called. -/
theorem addNearest_nearer : ∃ q name,
    IsNearest ⟨[(["a"], .directory), (["a", ".cmake-format.py"], .file []),
        (["a", "b"], .directory), (["a", "b", ".cmake-format"], .directory),
        (["a", "b", "cmake-format.json"], .file [])]⟩
      (Path.fold ["a"] "x/../b//./c") q name ∧
      "/a/b/cmake-format.json" = Place.path (q ++ [name]) := by
  have hc : Place.IsFolded ["a"] := by decide
  obtain ⟨found, hu, hs, -⟩ := addNearest_reference ⟨⟨[(["a"], .directory),
    (["a", ".cmake-format.py"], .file []), (["a", "b"], .directory),
    (["a", "b", ".cmake-format"], .directory), (["a", "b", "cmake-format.json"], .file [])]⟩,
    ["a"], []⟩ hc "x/../b//./c"
  refine (hs _).mp ?_
  exact Except.ok.inj (hu.symm.trans rfl)

end ListfileSettings.Draft
