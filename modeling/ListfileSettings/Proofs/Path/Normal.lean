import ListfileSettings.Proofs.Path.Places

/-!
# Paths in normal form

A path in normal form starts at the root and has a name after each slash. Folding brings every path
into this form and leaves a path alone that has it. On the way a detour can be left out: pieces that
lead back to where they start. Folding is the only function that leaves out detours and keeps what is
in normal form. The directory that it starts in is known by the place that its own path folds to.
-/
namespace ListfileSettings

namespace Place

theorem ofList_chars_concat (r : Place) (x : String) :
    String.ofList (chars (r ++ [x])) = String.ofList r.chars ++ "/" ++ x :=
  String.toList_inj.mp (by simp [chars])

end Place

namespace Path

variable {cwd r : Place} {p q s x directory : String} {f : String → String}

/-! ### Pieces and slashes -/

theorem pieces_injective : Function.Injective pieces := by
  intro p q h
  have hl := (List.map_inj_right fun _ _ => String.ofList_inj.mp).mp h
  have hp := Text.intercalate_pieces '/' p.toList
  rw [hl, Text.intercalate_pieces] at hp
  exact String.toList_inj.mp hp.symm

theorem pieces_of_not_mem (h : '/' ∉ s.toList) : pieces s = [s] := by
  simp [pieces, Text.split, Text.pieces_of_not_mem h]

theorem pieces_slash (p q : String) : pieces (p ++ "/" ++ q) = pieces p ++ pieces q := by
  have ht : (p ++ "/" ++ q).toList = p.toList ++ '/' :: q.toList := by simp
  rw [pieces, Text.split, ht, Text.pieces_append, List.map_append]
  rfl

theorem pieces_trailing (p : String) : pieces (p ++ "/") = pieces p ++ [""] := by
  have hp := pieces_slash p ""
  rwa [String.append_empty] at hp

theorem join_pieces (p : String) : String.join ((pieces p).map (· ++ "/")) = p ++ "/" := by
  have hp := Text.flatMap_pieces '/' p.toList
  refine String.toList_inj.mp ?_
  simpa [pieces, Text.split, String.toList_join, List.flatMap_map] using hp

theorem isAbsolute_append (h : p ≠ "") (q : String) : isAbsolute (p ++ q) = isAbsolute p := by
  have hn : p.toList ≠ [] := fun hn => h (String.toList_eq_nil_iff.mp hn)
  obtain ⟨c, cs, hc⟩ := List.exists_cons_of_ne_nil hn
  simp [isAbsolute, hc]

theorem exists_rest (h : isAbsolute p = true) : ∃ q, p = "" ++ "/" ++ q := by
  have hp := of_decide_eq_true h
  obtain ⟨cs, hc⟩ := List.head?_eq_some_iff.mp hp
  exact ⟨String.ofList cs, String.toList_inj.mp (by simp [hc])⟩

/-! ### Folding what follows a slash -/

/-- What follows a slash is folded from where the text up to the slash leads. -/
theorem fold_slash (cwd : Place) (p q : String) :
    fold cwd (p ++ "/" ++ q) = (pieces q).foldl Place.step (fold cwd (p ++ "/")) := by
  have hn : p ++ "/" ≠ "" := by simp
  have ho : origin cwd (p ++ "/" ++ q) = origin cwd (p ++ "/") := by
    rw [origin, origin, isAbsolute_append hn]
  rw [fold, fold, ho, pieces_slash, pieces_trailing, List.foldl_append, List.foldl_append]
  rfl

theorem fold_trailing (h : p ≠ "") : fold cwd (p ++ "/") = fold cwd p := by
  rw [fold, fold, pieces_trailing, origin, origin, isAbsolute_append h, List.foldl_append]
  rfl

/-- What leads back to where it starts can be left out. -/
theorem fold_detour
    (h : (pieces s).foldl Place.step (fold cwd (p ++ "/")) = fold cwd (p ++ "/")) (q : String) :
    fold cwd (p ++ "/" ++ s ++ "/" ++ q) = fold cwd (p ++ "/" ++ q) := by
  have ha : p ++ "/" ++ s ++ "/" ++ q = p ++ "/" ++ (s ++ "/" ++ q) := by
    simp only [String.append_assoc]
  rw [ha, fold_slash, pieces_slash, List.foldl_append, h, ← fold_slash]

theorem fold_slashes (cwd : Place) (p q : String) :
    fold cwd (p ++ "//" ++ q) = fold cwd (p ++ "/" ++ q) := by
  have ht : p ++ "//" ++ q = p ++ "/" ++ "" ++ "/" ++ q := String.toList_inj.mp (by simp)
  rw [ht, fold_detour rfl]

theorem fold_dot (cwd : Place) (p q : String) :
    fold cwd (p ++ "/./" ++ q) = fold cwd (p ++ "/" ++ q) := by
  have ht : p ++ "/./" ++ q = p ++ "/" ++ "." ++ "/" ++ q := String.toList_inj.mp (by simp)
  rw [ht, fold_detour rfl]

/-- Two dots take back the name before them, wherever the way to the name leads. -/
theorem fold_up (h : Place.IsName x) (cwd : Place) (p q : String) :
    fold cwd (p ++ "/" ++ x ++ "/../" ++ q) = fold cwd (p ++ "/" ++ q) := by
  have ht : p ++ "/" ++ x ++ "/../" ++ q = p ++ "/" ++ (x ++ "/" ++ "..") ++ "/" ++ q :=
    String.toList_inj.mp (by simp)
  have hx : pieces (x ++ "/" ++ "..") = [x, ".."] := by
    rw [pieces_slash, pieces_of_not_mem h.2.2.2]
    rfl
  rw [ht, fold_detour]
  simp [hx, Place.step_name h]

theorem fold_above_root (cwd : Place) (q : String) :
    fold cwd ("/../" ++ q) = fold cwd ("/" ++ q) := by
  have ht : "/../" ++ q = "" ++ "/" ++ ".." ++ "/" ++ q := String.toList_inj.mp (by simp)
  rw [ht, fold_detour rfl, String.empty_append]

/-! ### Folding in a directory -/

theorem fold_of_isAbsolute (h : isAbsolute p = true) (cwd r : Place) : fold cwd p = fold r p := by
  rw [fold, fold, origin, origin, if_pos h, if_pos h]

theorem isAbsolute_join (h : directory ≠ "") (p : String) :
    isAbsolute (join directory p) = isAbsolute directory := by
  unfold join
  split
  · next hl => exact absurd (String.toList_eq_nil_iff.mp (List.getLast?_eq_none_iff.mp hl)) h
  · rw [isAbsolute_append h]
  · rw [String.append_assoc, isAbsolute_append h]

theorem fold_join (h : directory ≠ "") (p : String) :
    fold cwd (join directory p) = fold cwd (directory ++ "/" ++ p) := by
  unfold join
  split
  · next hl => exact absurd (String.toList_eq_nil_iff.mp (List.getLast?_eq_none_iff.mp hl)) h
  · next hl =>
    -- the directory has its slash already, and one more makes no difference
    obtain ⟨cs, hc⟩ := List.getLast?_eq_some_iff.mp hl
    have hd : directory = String.ofList cs ++ "/" := String.toList_inj.mp (by simp [hc])
    have ht : directory ++ "/" ++ p = String.ofList cs ++ "//" ++ p :=
      String.toList_inj.mp (by simp [hc])
    rw [ht, fold_slashes, hd]
  · rfl

theorem fold_relative (hd : isAbsolute directory = true) (hp : isAbsolute p = false) :
    fold (fold [] directory) p = fold (fold [] directory) (join directory p) := by
  have hn := ne_empty_of_isAbsolute hd
  have hf : fold (fold [] directory) p = (pieces p).foldl Place.step (fold [] directory) := by
    simp [fold, origin, hp]
  have hc : fold (fold [] directory) directory = fold [] directory := fold_of_isAbsolute hd _ _
  rw [fold_join hn, fold_slash, fold_trailing hn, hc, hf]

/-! ### Normal form -/

/-- The path starts at the root and has a name after each slash. The root itself has no name. -/
def IsNormal (p : String) : Prop :=
  isAbsolute p = true ∧ (p = "/" ∨ ∀ s ∈ (pieces p).tail, Place.IsName s)

instance : DecidablePred IsNormal := fun _ => inferInstanceAs (Decidable (_ ∧ _))

theorem isNormal_path (h : r.IsFolded) : IsNormal r.path := by
  refine ⟨r.isAbsolute_path, ?_⟩
  cases r with
  | nil => exact .inl rfl
  | cons s r =>
    rw [Place.pieces_path h (List.cons_ne_nil s r)]
    exact .inr h

theorem exists_place (h : IsNormal p) : ∃ r : Place, r.IsFolded ∧ r.path = p := by
  obtain ⟨ha, rfl | hs⟩ := h
  · exact ⟨[], Place.isFolded_nil, rfl⟩
  · obtain ⟨q, rfl⟩ := exists_rest ha
    have hp : pieces ("" ++ "/" ++ q) = "" :: pieces q := pieces_slash "" q
    have hn : pieces q ≠ [] := fun hn => Text.pieces_ne_nil '/' q.toList (List.map_eq_nil_iff.mp hn)
    rw [hp] at hs
    exact ⟨pieces q, hs, pieces_injective ((Place.pieces_path hs hn).trans hp.symm)⟩

theorem fold_path (h : r.IsFolded) (cwd : Place) : fold cwd r.path = r := by
  rw [fold, origin, if_pos r.isAbsolute_path]
  cases r with
  | nil => rfl
  | cons s r =>
    rw [Place.pieces_path h (List.cons_ne_nil s r), List.foldl_cons, Place.step_empty,
      Place.foldl_step_names h, List.nil_append]

theorem path_fold_of_isNormal (h : IsNormal p) (cwd : Place) : (fold cwd p).path = p := by
  obtain ⟨r, hr, rfl⟩ := exists_place h
  rw [fold_path hr]

/-! ### The laws of folding -/

/-- What a function does to paths that folds them in a directory: its results are in normal form, and
what is in normal form it keeps, so to fold twice is to fold once. A relative path stands for the path
that starts in the directory. A name and the two dots after it can be left out, and so can a dot, a
second slash and a slash at the end. Above the root there is only the root. -/
structure IsFolding (directory : String) (f : String → String) : Prop where
  isNormal (p : String) : IsNormal (f p)
  eq_self (p : String) : IsNormal p → f p = p
  idempotent (p : String) : f (f p) = f p
  relative (p : String) : isAbsolute p = false → f p = f (join directory p)
  up (p x q : String) : Place.IsName x → f (p ++ "/" ++ x ++ "/../" ++ q) = f (p ++ "/" ++ q)
  dot (p q : String) : f (p ++ "/./" ++ q) = f (p ++ "/" ++ q)
  slashes (p q : String) : f (p ++ "//" ++ q) = f (p ++ "/" ++ q)
  trailing (p : String) : p ≠ "" → f (p ++ "/") = f p
  aboveRoot (q : String) : f ("/../" ++ q) = f ("/" ++ q)

theorem isFolding_fold (h : isAbsolute directory = true) :
    IsFolding directory fun p => (fold (fold [] directory) p).path := by
  have hc := isFolded_fold Place.isFolded_nil directory
  exact {
    isNormal := fun p => isNormal_path (isFolded_fold hc p)
    eq_self := fun p hp => path_fold_of_isNormal hp _
    idempotent := fun p => path_fold_of_isNormal (isNormal_path (isFolded_fold hc p)) _
    relative := fun p hp => by rw [← fold_relative h hp]
    up := fun p x q hx => by rw [fold_up hx]
    dot := fun p q => by rw [fold_dot]
    slashes := fun p q => by rw [fold_slashes]
    trailing := fun p hp => by rw [fold_trailing hp]
    aboveRoot := fun q => by rw [fold_above_root] }

namespace IsFolding

/-- Two dots after the names of a place take back the last of them, if there is one. -/
theorem piece_up (h : IsFolding directory f) (hr : r.IsFolded) (q : String) :
    f (String.ofList r.chars ++ "/" ++ ".." ++ "/" ++ q) =
      f (String.ofList (Place.chars r.dropLast) ++ "/" ++ q) := by
  cases r using List.reverseRecOn with
  | nil =>
    have hq := h.aboveRoot q
    simpa [Place.chars] using hq
  | append_singleton r x =>
    have hx := (Place.isFolded_concat.mp hr).2
    have hu := h.up (String.ofList (Place.chars r)) x q hx
    have ht : "/../" ++ q = "/" ++ (".." ++ ("/" ++ q)) := String.toList_inj.mp (by simp)
    rw [Place.ofList_chars_concat, List.dropLast_concat, ← hu]
    simp only [String.append_assoc, ht]

/-- After the names of a place, a piece can be left out for the step that it is. -/
theorem piece (h : IsFolding directory f) (hr : r.IsFolded) (hs : '/' ∉ s.toList) (q : String) :
    f (String.ofList r.chars ++ "/" ++ s ++ "/" ++ q) =
      f (String.ofList (r.step s).chars ++ "/" ++ q) := by
  by_cases he : s = ""
  · have ht : String.ofList r.chars ++ "/" ++ s ++ "/" ++ q = String.ofList r.chars ++ "//" ++ q :=
      String.toList_inj.mp (by simp [he])
    rw [ht, h.slashes, he, Place.step_empty]
  by_cases hd : s = "."
  · have ht : String.ofList r.chars ++ "/" ++ s ++ "/" ++ q = String.ofList r.chars ++ "/./" ++ q :=
      String.toList_inj.mp (by simp [hd])
    rw [ht, h.dot, hd, Place.step_dot]
  by_cases hu : s = ".."
  · rw [hu, h.piece_up hr, Place.step_up]
  · rw [Place.step_name ⟨he, hd, hu, hs⟩, Place.ofList_chars_concat]

/-- So all pieces that follow lead from place to place. -/
theorem pieces_foldl (h : IsFolding directory f) {ps : List String} (hr : r.IsFolded)
    (hs : ∀ s ∈ ps, '/' ∉ s.toList) :
    f (String.ofList r.chars ++ "/" ++ String.join (ps.map (· ++ "/"))) =
      f (String.ofList (ps.foldl Place.step r).chars ++ "/") := by
  induction ps generalizing r with
  | nil => simp
  | cons s ps ih =>
    obtain ⟨hd, ht⟩ := List.forall_mem_cons.mp hs
    have hi := ih (Place.isFolded_step hr hd) ht
    have hp := h.piece hr hd (String.join (ps.map (· ++ "/")))
    rw [List.foldl_cons, ← hi, ← hp]
    simp [String.append_assoc]

theorem chars_slash (h : IsFolding directory f) (hr : r.IsFolded) :
    f (String.ofList r.chars ++ "/") = r.path := by
  have he := h.eq_self r.path (isNormal_path hr)
  by_cases hn : r = []
  · subst hn
    exact he
  · have ht : String.ofList r.chars = r.path := by rw [← Place.toList_path hn, String.ofList_toList]
    rw [ht, h.trailing _ (ne_empty_of_isAbsolute r.isAbsolute_path), he]

theorem eq_of_isAbsolute (h : IsFolding directory f) (hp : isAbsolute p = true) (cwd : Place) :
    f p = (fold cwd p).path := by
  obtain ⟨q, rfl⟩ := exists_rest hp
  have hs : ∀ s ∈ pieces q, '/' ∉ s.toList := fun s => slash_not_mem_pieces
  have hr : ((pieces q).foldl Place.step []).IsFolded :=
    Place.isFolded_foldl Place.isFolded_nil hs
  have hf : fold cwd ("" ++ "/" ++ q) = (pieces q).foldl Place.step [] := fold_slash cwd "" q
  calc f ("" ++ "/" ++ q)
      = f ("" ++ "/" ++ q ++ "/") := (h.trailing _ (ne_empty_of_isAbsolute hp)).symm
    _ = f (String.ofList (Place.chars []) ++ "/" ++ String.join ((pieces q).map (· ++ "/"))) := by
        rw [join_pieces]
        simp [Place.chars, String.append_assoc]
    _ = f (String.ofList ((pieces q).foldl Place.step []).chars ++ "/") :=
        h.pieces_foldl Place.isFolded_nil hs
    _ = ((pieces q).foldl Place.step []).path := h.chars_slash hr
    _ = (fold cwd ("" ++ "/" ++ q)).path := by rw [hf]

end IsFolding

/-- A function obeys the laws in a directory exactly if it gives the path of the place that each path
folds to from there. -/
theorem isFolding_iff (h : isAbsolute directory = true) (f : String → String) :
    IsFolding directory f ↔ ∀ p, f p = (fold (fold [] directory) p).path := by
  constructor
  · intro hf p
    cases hp : isAbsolute p with
    | true => exact hf.eq_of_isAbsolute hp _
    | false =>
      have hj : isAbsolute (join directory p) = true :=
        (isAbsolute_join (ne_empty_of_isAbsolute h) p).trans h
      rw [hf.relative p hp, hf.eq_of_isAbsolute hj, fold_relative h hp]
  · intro hf
    obtain rfl : f = _ := funext hf
    exact isFolding_fold h

/-- Two dots go up to the root and no further, from a directory with a second slash in its path. -/
theorem isFolding_home : isAbsolute "/home//me" = true ∧
    IsFolding "/home//me" (fun p => (fold ["home", "me"] p).path) ∧
      (fold ["home", "me"] "../../..//.config/.././a/").path = "/a" := by
  have ha : isAbsolute "/home//me" = true := by decide
  have hf : fold [] "/home//me" = ["home", "me"] := by decide
  exact ⟨ha, (isFolding_iff ha _).mpr fun p => by rw [hf], by decide⟩

end Path

end ListfileSettings
