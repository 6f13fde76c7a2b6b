import ListfileSettings.Proofs.Path.Places

/-!
# The nearest settings file

Looking upwards from a path finds the settings file that is nearest to it: in no directory on the way
is there another one, and in its own directory none of a better name. What counts is where the path
folds to, whether or not anything is there.
-/
namespace ListfileSettings

/-! ### Directories above a place -/

namespace Place

variable {α : Type} {f : Place → Option α} {p d : Place} {s : String} {a : α}

theorem ancestors_nil : ancestors [] = [[]] := rfl

theorem ancestors_concat : ancestors (p ++ [s]) = (p ++ [s]) :: ancestors p := by
  have ht : (List.range (p.length + 1)).reverse.map (p ++ [s]).take =
      (List.range (p.length + 1)).reverse.map p.take := by
    refine List.map_congr_left fun i hi => ?_
    rw [List.mem_reverse, List.mem_range] at hi
    exact List.take_append_of_le_length (by omega)
  rw [ancestors, ancestors, List.length_append, List.length_singleton, List.range_succ,
    List.reverse_append, List.reverse_singleton, List.singleton_append, List.map_cons, ht]
  congr 1
  exact List.take_of_length_le (by simp)

theorem mem_ancestors_iff : d ∈ p.ancestors ↔ d <+: p := by
  induction p using List.reverseRecOn with
  | nil => simp [ancestors_nil]
  | append_singleton p s ih => rw [ancestors_concat, List.mem_cons, ih, List.prefix_concat_iff]

/-- The nearest directory that has something has it, and no directory on the way does. -/
theorem findSome?_ancestors_eq_some_iff : p.ancestors.findSome? f = some a ↔
    ∃ d, d <+: p ∧ f d = some a ∧ ∀ q, d <+: q → q <+: p → q ≠ d → f q = none := by
  induction p using List.reverseRecOn with
  | nil =>
    simp only [ancestors_nil, List.findSome?_singleton, List.prefix_nil, exists_eq_left]
    constructor
    · intro h
      exact ⟨h, fun q _ hq hn => absurd hq hn⟩
    · intro h
      exact h.1
  | append_singleton p s ih =>
    rw [ancestors_concat, List.findSome?_cons]
    cases hf : f (p ++ [s]) with
    | some b =>
      constructor
      · intro h
        obtain rfl := Option.some.inj h
        exact ⟨_, List.prefix_rfl, hf, fun q hd hq hn =>
          absurd (hq.eq_of_length_le hd.length_le) hn⟩
      · intro h
        obtain ⟨d, hd, ha, hn⟩ := h
        by_cases he : p ++ [s] = d
        · subst he
          exact hf.symm.trans ha
        · rw [hn _ hd List.prefix_rfl he] at hf
          cases hf
    | none =>
      rw [ih]
      constructor
      · intro h
        obtain ⟨d, hd, ha, hn⟩ := h
        refine ⟨d, hd.trans (List.prefix_append p [s]), ha, fun q hdq hq hne => ?_⟩
        rcases List.prefix_concat_iff.mp hq with rfl | hq
        · exact hf
        · exact hn q hdq hq hne
      · intro h
        obtain ⟨d, hd, ha, hn⟩ := h
        rcases List.prefix_concat_iff.mp hd with rfl | hd
        · rw [hf] at ha
          cases ha
        · exact ⟨d, hd, ha, fun q hdq hq => hn q hdq (hq.trans (List.prefix_append p [s]))⟩

end Place

/-! ### The first file of a directory -/

namespace Search

variable {w : World} {p d : Place} {path name : String}

theorem isName_of_mem_fileNames (h : name ∈ fileNames) : Place.IsName name := by
  have hn : Place.IsFolded fileNames := by decide
  exact hn name h

/-- The file of this name is the settings file of the directory: no name that is more wanted leads
to a file there. -/
structure IsFirst (fs : FileSystem) (d : Place) (name : String) : Prop where
  isFile : fs.IsFile (d ++ [name])
  first : ∃ before after, fileNames = before ++ name :: after ∧
    ∀ s ∈ before, ¬ fs.IsFile (d ++ [s])

/-- No name of a settings file leads to a file in the directory. -/
def HasNone (fs : FileSystem) (d : Place) : Prop := ∀ s ∈ fileNames, ¬ fs.IsFile (d ++ [s])

/-- The file of this name in `d` is the settings file that is nearest to the place. -/
structure IsNearest (fs : FileSystem) (place d : Place) (name : String) : Prop where
  above : d <+: place
  first : IsFirst fs d name
  noneNearer : ∀ q, d <+: q → q <+: place → q ≠ d → HasNone fs q

theorem isFile_join (h : d.IsFolded) (hs : name ∈ fileNames) :
    w.isFile (Path.join d.path name) = true ↔ w.files.IsFile (d ++ [name]) := by
  rw [Place.join_path h]
  exact World.isFile_path (Place.isFolded_concat.mpr ⟨h, isName_of_mem_fileNames hs⟩)

theorem inDirectory_eq_none_iff (h : d.IsFolded) :
    inDirectory w d.path = none ↔ HasNone w.files d := by
  rw [inDirectory, List.find?_eq_none, List.forall_mem_map]
  exact forall₂_congr fun s hs => not_congr (isFile_join h hs)

theorem find?_fileNames_iff (h : d.IsFolded) :
    fileNames.find? (fun s => w.isFile (Path.join d.path s)) = some name ↔
      IsFirst w.files d name := by
  have hf : ∀ {before after : List String}, fileNames = before ++ name :: after →
      (w.isFile (Path.join d.path name) = true ↔ w.files.IsFile (d ++ [name])) ∧
        ∀ s ∈ before, (w.isFile (Path.join d.path s) = true ↔ w.files.IsFile (d ++ [s])) := by
    intro before after hl
    refine ⟨isFile_join h ?_, fun s hs => isFile_join h ?_⟩
    · simp [hl]
    · simp [hl, hs]
  rw [List.find?_eq_some_iff_append]
  constructor
  · intro hi
    obtain ⟨hi, before, after, hl, hb⟩ := hi
    obtain ⟨hn, hs⟩ := hf hl
    refine ⟨hn.mp hi, before, after, hl, fun s hm hi => ?_⟩
    have hb := hb s hm
    rw [(hs s hm).mpr hi] at hb
    cases hb
  · intro hi
    obtain ⟨hi, before, after, hl, hb⟩ := hi
    obtain ⟨hn, hs⟩ := hf hl
    refine ⟨hn.mpr hi, before, after, hl, fun s hm => ?_⟩
    rw [Bool.not_eq_true', Bool.eq_false_iff]
    exact fun hi => hb s hm ((hs s hm).mp hi)

theorem inDirectory_eq_some_iff (h : d.IsFolded) : inDirectory w d.path = some path ↔
    ∃ name, IsFirst w.files d name ∧ path = Place.path (d ++ [name]) := by
  rw [inDirectory, List.find?_map, Option.map_eq_some_iff]
  refine exists_congr fun name => and_congr (find?_fileNames_iff h) ?_
  rw [Place.join_path h]
  exact eq_comm

/-! ### Looking upwards -/

theorem nearest_eq_some_iff (h : p.IsFolded) : nearest w p = some path ↔
    ∃ d name, IsNearest w.files p d name ∧ path = Place.path (d ++ [name]) := by
  rw [nearest, Place.findSome?_ancestors_eq_some_iff]
  constructor
  · intro hd
    obtain ⟨d, hd, hi, hn⟩ := hd
    obtain ⟨name, hf, rfl⟩ := (inDirectory_eq_some_iff (h.of_prefix hd)).mp hi
    exact ⟨d, name, ⟨hd, hf, fun q hdq hq hne =>
      (inDirectory_eq_none_iff (h.of_prefix hq)).mp (hn q hdq hq hne)⟩, rfl⟩
  · intro hd
    obtain ⟨d, name, ⟨hd, hf, hn⟩, rfl⟩ := hd
    exact ⟨d, hd, (inDirectory_eq_some_iff (h.of_prefix hd)).mpr ⟨name, hf, rfl⟩,
      fun q hdq hq hne => (inDirectory_eq_none_iff (h.of_prefix hq)).mpr (hn q hdq hq hne)⟩

theorem nearest_eq_none_iff (h : p.IsFolded) :
    nearest w p = none ↔ ∀ d, d <+: p → HasNone w.files d := by
  rw [nearest, List.findSome?_eq_none_iff]
  simp only [Place.mem_ancestors_iff]
  exact forall₂_congr fun d hd => inDirectory_eq_none_iff (h.of_prefix hd)

theorem result_upwards {ε : Type} {start : String} :
    (upwards w start : Logged ε (Option String)).result =
      .ok (nearest w (Path.fold w.cwd start)) := by
  rw [upwards]
  cases nearest w (Path.fold w.cwd start) <;> rfl

end Search

end ListfileSettings
