import ListfileSettings.Proofs.Text.Pieces
import ListfileSettings.World
import Mathlib.Data.List.Induction

/-!
# Places and their paths

Folding a path leaves a place that names lead to. The path that is written for such a place has
just these names between its slashes, so it leads back to the place, through each directory above
it.
-/
namespace ListfileSettings

/-! ### Folded places -/

namespace Place

/-- What an entry of a directory can be called. -/
def IsName (s : String) : Prop := s ≠ "" ∧ s ≠ "." ∧ s ≠ ".." ∧ '/' ∉ s.toList

instance : DecidablePred IsName := fun _ => inferInstanceAs (Decidable (_ ∧ _ ∧ _ ∧ _))

/-- A place that only names lead to. -/
def IsFolded (p : Place) : Prop := ∀ s ∈ p, IsName s

instance : DecidablePred IsFolded := fun p => inferInstanceAs (Decidable (∀ s ∈ p, IsName s))

variable {p q : Place} {s : String}

theorem isFolded_nil : IsFolded [] := nofun

theorem IsFolded.of_prefix (h : IsFolded p) (hq : q <+: p) : IsFolded q :=
  fun s hs => h s (hq.subset hs)

theorem isFolded_append : IsFolded (p ++ q) ↔ IsFolded p ∧ IsFolded q := List.forall_mem_append

theorem isFolded_concat : IsFolded (p ++ [s]) ↔ IsFolded p ∧ IsName s := by
  rw [isFolded_append, IsFolded, IsFolded, List.forall_mem_singleton]

@[simp] theorem step_empty : p.step "" = p := rfl

@[simp] theorem step_dot : p.step "." = p := rfl

@[simp] theorem step_up : p.step ".." = p.dropLast := rfl

theorem step_name (h : IsName s) : p.step s = p ++ [s] := by
  obtain ⟨he, hd, hu, -⟩ := h
  simp [step, he, hd, hu]

theorem foldl_step_names (h : IsFolded q) : q.foldl step p = p ++ q := by
  induction q generalizing p with
  | nil => simp
  | cons s q ih =>
    obtain ⟨hs, hq⟩ := List.forall_mem_cons.mp h
    simp [step_name hs, ih hq]

theorem isFolded_step (h : IsFolded p) (hs : '/' ∉ s.toList) : IsFolded (p.step s) := by
  unfold step
  split
  · exact h
  · next hd =>
    split
    · exact h.of_prefix (List.dropLast_prefix p)
    · next hu =>
      simp only [Bool.or_eq_true, decide_eq_true_eq, not_or] at hd
      exact isFolded_concat.mpr ⟨h, hd.1, hd.2, hu, hs⟩

theorem isFolded_foldl {pieces : List String} (h : IsFolded p)
    (hs : ∀ s ∈ pieces, '/' ∉ s.toList) : IsFolded (pieces.foldl step p) := by
  induction pieces generalizing p with
  | nil => exact h
  | cons s pieces ih =>
    obtain ⟨hd, ht⟩ := List.forall_mem_cons.mp hs
    exact ih (isFolded_step h hd) ht

end Place

namespace Path

variable {p : Place} {s : String}

theorem slash_not_mem_pieces {path : String} (h : s ∈ pieces path) : '/' ∉ s.toList := by
  obtain ⟨cs, hc, rfl⟩ := List.mem_map.mp h
  rw [String.toList_ofList]
  exact Text.not_mem_of_mem_pieces hc

theorem ne_empty_of_isAbsolute {path : String} (h : isAbsolute path = true) : path ≠ "" := by
  rintro rfl
  cases h

/-- Whatever a path is made of, it folds to a place that names lead to. -/
theorem isFolded_fold {cwd : Place} (h : cwd.IsFolded) (path : String) : (fold cwd path).IsFolded := by
  have ho : (origin cwd path).IsFolded := by
    unfold origin
    split
    · exact Place.isFolded_nil
    · exact h
  exact Place.isFolded_foldl ho fun s => slash_not_mem_pieces

end Path

/-! ### The path of a place -/

namespace Place

variable {p : Place} {s : String}

def chars (p : Place) : List Char := p.flatMap fun s => '/' :: s.toList

theorem toList_path (h : p ≠ []) : p.path.toList = p.chars := by
  simp [path, h, String.toList_join, chars, List.flatMap_map]

theorem isAbsolute_path (p : Place) : Path.isAbsolute p.path := by
  cases p with
  | nil => rfl
  | cons s p => simp [Path.isAbsolute, toList_path, chars]

theorem pieces_chars (h : IsFolded p) (hp : p ≠ []) :
    Text.pieces '/' p.chars = [] :: p.map String.toList := by
  induction p with
  | nil => exact absurd rfl hp
  | cons s p ih =>
    obtain ⟨⟨-, -, -, hs⟩, ht⟩ := List.forall_mem_cons.mp h
    have hc : chars (s :: p) = [] ++ '/' :: (s.toList ++ chars p) := rfl
    rw [hc, Text.pieces_append_cons List.not_mem_nil]
    cases p with
    | nil => simp [chars, Text.pieces_of_not_mem hs]
    | cons t p =>
      have hi := ih ht (List.cons_ne_nil t p)
      have hc : chars (t :: p) = [] ++ '/' :: (t.toList ++ chars p) := rfl
      rw [hc, Text.pieces_append_cons List.not_mem_nil, List.cons.injEq] at hi
      rw [hc, List.nil_append, Text.pieces_append_cons hs, hi.2]
      rfl

theorem pieces_path (h : IsFolded p) (hp : p ≠ []) : Path.pieces p.path = "" :: p := by
  rw [Path.pieces, Text.split, toList_path hp, pieces_chars h hp]
  simp

/-- The last character of a path is that of its last name, which is no slash. -/
theorem join_path (h : IsFolded p) (s : String) : Path.join p.path s = path (p ++ [s]) := by
  cases p using List.reverseRecOn with
  | nil => simp [Path.join, path]
  | append_singleton p t =>
    obtain ⟨-, he, -, -, ht⟩ := isFolded_concat.mp h
    have hn : t.toList ≠ [] := fun hn => he (String.toList_eq_nil_iff.mp hn)
    have hl : (path (p ++ [t])).toList.getLast? = some (t.toList.getLast hn) := by
      rw [toList_path (by simp), chars, List.flatMap_append]
      simp [List.getLast?_append, List.getLast?_cons, List.getLast?_eq_some_getLast hn]
    have hs : t.toList.getLast hn ≠ '/' := fun hs => ht (hs ▸ List.getLast_mem hn)
    unfold Path.join
    rw [hl]
    split
    · next hc => cases hc
    · next hc => exact absurd (Option.some.inj hc) hs
    · rw [← String.toList_inj]
      simp [toList_path, chars]

end Place

/-! ### What is at a place -/

namespace FileSystem

variable {fs : FileSystem} {p q : Place} {e : Entry}

/-- Each place above this one is a directory. -/
def LeadsTo (fs : FileSystem) (p : Place) : Prop :=
  ∀ q, q <+: p → q ≠ p → fs.at? q = some .directory

/-- There is a regular file at the place, and the way there goes through directories. -/
def IsFile (fs : FileSystem) (p : Place) : Prop :=
  fs.LeadsTo p ∧ ∃ bytes, fs.at? p = some (.file bytes)

theorem walk_iff (h : q.IsFolded) {r : Place} : fs.walk p q = some r ↔
    r = p ++ q ∧ ∀ t, t <+: q → t ≠ q → fs.at? (p ++ t) = some .directory := by
  induction q generalizing p with
  | nil =>
    rw [walk, List.append_nil, Option.some.injEq]
    refine ⟨fun hr => ⟨hr.symm, fun t ht hn => ?_⟩, fun hr => hr.1.symm⟩
    exact absurd (List.prefix_nil.mp ht) hn
  | cons s q ih =>
    obtain ⟨hs, hq⟩ := List.forall_mem_cons.mp h
    rw [walk, Place.step_name hs]
    constructor
    · intro hw
      split at hw
      · next hd =>
        obtain ⟨rfl, ha⟩ := (ih hq).mp hw
        refine ⟨by simp, fun t ht hn => ?_⟩
        rcases List.prefix_cons_iff.mp ht with rfl | ⟨u, rfl, hu⟩
        · rwa [List.append_nil]
        · have hn' : u ≠ q := fun he => hn (he ▸ rfl)
          simpa using ha u hu hn'
      · cases hw
    · intro hw
      obtain ⟨rfl, ha⟩ := hw
      have hd := ha [] List.nil_prefix (List.cons_ne_nil s q).symm
      rw [List.append_nil] at hd
      rw [hd]
      refine (ih hq).mpr ⟨by simp, fun t ht hn => ?_⟩
      have hn' : s :: t ≠ s :: q := fun he => hn (List.cons.inj he).2
      simpa using ha (s :: t) (List.cons_prefix_cons.mpr ⟨rfl, ht⟩) hn'

end FileSystem

namespace World

variable {w : World} {p : Place} {e : Entry}

theorem entry?_path (h : p.IsFolded) :
    w.entry? p.path = some e ↔ w.files.LeadsTo p ∧ w.files.at? p = some e := by
  have ho : Path.origin w.cwd p.path = [] := if_pos p.isAbsolute_path
  have hw : w.files.walk [] (Path.pieces p.path) = w.files.walk [] p := by
    cases p with
    | nil => rfl
    | cons s p => rw [Place.pieces_path h (List.cons_ne_nil s p)]; rfl
  have hn : p.path ≠ "" := Path.ne_empty_of_isAbsolute p.isAbsolute_path
  unfold entry?
  rw [if_neg hn, ho, hw]
  change (w.files.walk [] p).bind w.files.at? = some e ↔ _
  rw [Option.bind_eq_some_iff]
  simp only [FileSystem.walk_iff h, List.nil_append, and_assoc, exists_eq_left]
  rfl

theorem isFile_path (h : p.IsFolded) : w.isFile p.path = true ↔ w.files.IsFile p := by
  unfold isFile FileSystem.IsFile
  constructor
  · intro hf
    split at hf
    · next bytes he =>
      obtain ⟨hl, ha⟩ := (entry?_path h).mp he
      exact ⟨hl, bytes, ha⟩
    · cases hf
  · intro hf
    obtain ⟨hl, bytes, ha⟩ := hf
    rw [(entry?_path h).mpr ⟨hl, ha⟩]

end World

end ListfileSettings
