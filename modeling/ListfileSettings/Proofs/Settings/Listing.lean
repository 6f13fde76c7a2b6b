import ListfileSettings.Proofs.Assignment.Acceptance
import ListfileSettings.Proofs.Assignment.Printing
import ListfileSettings.Settings.Listing

/-!
# Listed settings are read back

The listing of a record is a settings text. It assigns each key once, in the canonical order, and
each key stands on a line that does not depend on the record.
-/
namespace ListfileSettings.Settings

open Assignment.Grammar

variable (r : Settings) {n : Nat}

/-! ### One key -/

def assignment (k : Key) (line : Nat) : Assignment := ⟨k.text, r.literal k, line⟩

theorem identifier_text (k : Key) : Identifier k.text.toList := by
  have h : ∃ c cs, k.text = String.ofList (c :: cs) ∧ Assignment.isKeyStart c = true ∧
      cs.all Assignment.isKeyPart = true := by
    cases k <;> exact ⟨_, _, rfl, rfl, rfl⟩
  obtain ⟨c, cs, he, hc, hs⟩ := h
  rw [he]
  exact identifier_ofList hc hs

theorem newline_not_mem_text (k : Key) : '\n' ∉ k.text.toList :=
  List.count_eq_zero.mp (count_newline_of_identifier (identifier_text k))

theorem newline_not_mem_help (k : Key) : '\n' ∉ k.help.toList := by
  have h : ∃ cs, k.help = String.ofList cs ∧ '\n' ∉ cs := by
    cases k <;> exact ⟨_, rfl, by decide⟩
  obtain ⟨cs, he, hn⟩ := h
  rwa [he, String.toList_ofList]

/-- What stands between the value of a key and the end of its line. -/
def filler (k : Key) : List Char :=
  List.replicate (commentColumn - (r.assignmentChars k).length) ' ' ++ [' ']

theorem lineChars_eq (k : Key) : r.lineChars k = k.text.toList ++ ([' '] ++ '=' :: ([' '] ++
    ((r.literal k).chars ++ (r.filler k ++ '#' :: ' ' :: k.help.toList)))) ++ ['\n'] := by
  simp [lineChars, padded, filler, assignmentChars]

theorem blanks_filler (k : Key) : Blanks (r.filler k) := by
  intro c hc
  refine .inl ?_
  simp only [filler, List.mem_append, List.mem_singleton, List.mem_replicate] at hc
  exact hc.elim And.right id

theorem wholeLines_lineChars (k : Key) : WholeLines n (r.lineChars k) [r.assignment k n] := by
  have hb : Blanks [] := by simp [Blanks]
  have hc : Comment ('#' :: ' ' :: k.help.toList) := ⟨by simp [newline_not_mem_help]⟩
  have h := Line.assignment (n := n) hb (identifier_text k) blanks_space blanks_space
    (value_chars (r.literal k)) (.comment (r.blanks_filler k) hc)
  rw [String.ofList_toList] at h
  rw [lineChars_eq]
  exact wholeLines_of_line h

theorem count_newline_lineChars (k : Key) : (r.lineChars k).count '\n' = 1 := by
  simp only [lineChars_eq, List.count_append, List.count_cons]
  rw [List.count_eq_zero.mpr (newline_not_mem_text k),
    List.count_eq_zero.mpr (newline_not_mem_help k),
    List.count_eq_zero.mpr (newline_not_mem_chars (r.literal k)),
    count_newline_of_blanks (r.blanks_filler k)]
  rfl

/-! ### Sections -/

def assignmentsOn (ps : List (Key × Nat)) : List Assignment := ps.map fun p => r.assignment p.1 p.2

theorem wholeLines_keys (ks : List Key) :
    WholeLines n (ks.flatMap r.lineChars) (r.assignmentsOn (ks.zipIdx n)) := by
  induction ks generalizing n with
  | nil => exact wholeLines_nil
  | cons k ks ih =>
    refine (r.wholeLines_lineChars k).append ?_
    rw [count_newline_lineChars]
    exact ih

theorem count_newline_keys (ks : List Key) : (ks.flatMap r.lineChars).count '\n' = ks.length := by
  induction ks with
  | nil => rfl
  | cons k ks ih =>
    rw [List.flatMap_cons, List.count_append, count_newline_lineChars, ih, List.length_cons,
      Nat.add_comm]

theorem banner_eq : ∃ t, banner = '#' :: (t ++ ['\n']) ∧ '\n' ∉ t := by
  have h : ∃ cs, "# ---------------------------------------------\n" = String.ofList cs ∧
      cs = '#' :: (' ' :: List.replicate 45 '-' ++ ['\n']) := ⟨_, rfl, rfl⟩
  obtain ⟨cs, he, hc⟩ := h
  refine ⟨' ' :: List.replicate 45 '-', ?_, by decide⟩
  rw [← hc]
  exact (congrArg String.toList he).trans String.toList_ofList

theorem newline_not_mem_title (s : Section) : '\n' ∉ s.title.toList := by
  have h : ∃ cs, s.title = String.ofList cs ∧ '\n' ∉ cs := by
    cases s <;> exact ⟨_, rfl, by decide⟩
  obtain ⟨cs, he, hn⟩ := h
  rwa [he, String.toList_ofList]

theorem wholeLines_title (s : Section) : WholeLines n (titleChars s) [] := by
  obtain ⟨t, hb, hn⟩ := banner_eq
  have hr : ∀ {n}, WholeLines n banner [] := hb ▸ wholeLines_comment hn
  have ht : WholeLines (n + banner.count '\n') ('#' :: (' ' :: s.title.toList ++ ['\n'])) [] :=
    wholeLines_comment (by simp [newline_not_mem_title])
  have h := (hr.append ht).append hr
  simpa [titleChars] using h

theorem count_newline_title (s : Section) : (titleChars s).count '\n' = 3 := by
  obtain ⟨t, hb, hn⟩ := banner_eq
  have hs := List.count_eq_zero.mpr (newline_not_mem_title s)
  have ht := List.count_eq_zero.mpr hn
  simp [titleChars, hb, hs, ht]

/-- The lines of the keys of sections that begin on line `n`, with an empty line between two
sections and three lines of title before each. -/
def sectionLines : Nat → List Section → List (Key × Nat)
  | _, [] => []
  | n, s :: ss => (sectionKeys s).zipIdx (n + 3) ++
    sectionLines (n + 3 + (sectionKeys s).length + 1) ss

theorem wholeLines_section (s : Section) :
    WholeLines n (r.sectionChars s) (r.assignmentsOn ((sectionKeys s).zipIdx (n + 3))) := by
  refine (wholeLines_title s).append ?_
  rw [count_newline_title]
  exact r.wholeLines_keys (sectionKeys s)

theorem count_newline_section (s : Section) :
    (r.sectionChars s).count '\n' = 3 + (sectionKeys s).length := by
  rw [sectionChars, List.count_append, count_newline_title, count_newline_keys]

theorem wholeLines_sections (ss : List Section) :
    WholeLines n (['\n'].intercalate (ss.map r.sectionChars))
      (r.assignmentsOn (sectionLines n ss)) := by
  induction ss generalizing n with
  | nil => exact wholeLines_nil
  | cons s ss ih =>
    cases ss with
    | nil => simpa [sectionLines] using r.wholeLines_section s
    | cons s' ss =>
      have hn : WholeLines (n + (r.sectionChars s).count '\n') ['\n'] [] :=
        wholeLines_of_line (.empty trailer_nil)
      have h := ((r.wholeLines_section s).append hn).append ih
      rw [List.count_append, count_newline_section, List.append_nil] at h
      rw [List.map_cons, List.map_cons, List.intercalate_cons_cons]
      simpa [sectionLines, assignmentsOn, Nat.add_assoc] using h

/-! ### The whole listing -/

/-- The line of a key in every listing: what is above it are the keys before it, the titles up to
that of its section and the empty lines between the sections. -/
def listedLine (k : Key) : Nat := Key.all.idxOf k + 4 * (Section.all.idxOf k.listedIn + 1)

theorem sectionLines_all : sectionLines 1 Section.all = Key.all.map fun k => (k, listedLine k) := rfl

/-- The assignments that a listing stands for. -/
def listed : List Assignment := Key.all.map fun k => r.assignment k (listedLine k)

theorem lines_chars : Lines 1 r.chars r.listed := by
  have h := (r.wholeLines_sections (n := 1) Section.all).lines
  rw [sectionLines_all, assignmentsOn, List.map_map] at h
  exact h

/-- A listing is read back as one assignment for each key. -/
theorem read_text : Assignment.read r.text = .ok r.listed :=
  Assignment.read_of_lines r.lines_chars

end ListfileSettings.Settings
