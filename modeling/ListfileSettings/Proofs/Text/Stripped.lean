import ListfileSettings.Proofs.Text.Pieces
import Mathlib.Data.List.Forall2
import Mathlib.Data.List.TakeWhile

/-!
# Texts without the blanks around them

A text has one inner text that is left when blanks are taken off both its ends. Blanks around a text
that is cut into pieces are blanks around its first and its last piece.
-/
namespace ListfileSettings.Text

variable {b b' s t u : List Char} {c : Char} {sep : Char}

def AllBlank (b : List Char) : Prop := ∀ c ∈ b, isBlank c = true

/-- The text is `inner` with blanks around it, and `inner` has no blank at either end. -/
structure Stripped (text inner : List Char) : Prop where
  around : ∃ b b', AllBlank b ∧ AllBlank b' ∧ text = b ++ (inner ++ b')
  first : ∀ c ∈ inner.head?, isBlank c = false
  last : ∀ c ∈ inner.getLast?, isBlank c = false

theorem allBlank_nil : AllBlank [] := nofun

theorem AllBlank.append (h : AllBlank b) (h' : AllBlank b') : AllBlank (b ++ b') :=
  List.forall_mem_append.mpr ⟨h, h'⟩

theorem AllBlank.reverse (h : AllBlank b) : AllBlank b.reverse := fun c hc =>
  h c (List.mem_reverse.mp hc)

/-! ### The inner text -/

theorem dropWhile_blanks (hb : AllBlank b) (ht : ∀ c ∈ t.head?, isBlank c = false) :
    (b ++ t).dropWhile isBlank = t := by
  rw [List.dropWhile_append_of_pos hb]
  cases t with
  | nil => rfl
  | cons c t => rw [List.dropWhile_cons, ht c rfl, if_neg Bool.false_ne_true]

theorem exists_blanks (s : List Char) : ∃ b, AllBlank b ∧ s = b ++ s.dropWhile isBlank :=
  ⟨s.takeWhile isBlank, fun _ => List.mem_takeWhile_imp, List.takeWhile_append_dropWhile.symm⟩

theorem first_dropWhile (s : List Char) : ∀ c ∈ (s.dropWhile isBlank).head?, isBlank c = false := by
  intro c hc
  have h := List.head?_dropWhile_not isBlank s
  rw [Option.mem_def.mp hc] at h
  exact h

theorem stripped_trim (s : List Char) : Stripped s (trimEnd (trimStart s)) := by
  obtain ⟨b, hb, hs⟩ := exists_blanks s
  obtain ⟨b', hb', ht⟩ := exists_blanks (s.dropWhile isBlank).reverse
  have he : s.dropWhile isBlank = trimEnd (trimStart s) ++ b'.reverse := by
    rw [← List.reverse_inj, List.reverse_append, List.reverse_reverse, trimEnd, List.reverse_reverse]
    exact ht
  refine ⟨⟨b, b'.reverse, hb, hb'.reverse, he ▸ hs⟩, fun c hc => ?_, fun c hc => ?_⟩
  · refine first_dropWhile s c ?_
    rw [he]
    exact List.mem_head?_append_of_mem_head? hc
  · rw [trimEnd, List.getLast?_reverse] at hc
    exact first_dropWhile _ c hc

theorem stripped_iff : Stripped s t ↔ trimEnd (trimStart s) = t := by
  constructor
  · intro h
    obtain ⟨⟨b, b', hb, hb', rfl⟩, hf, hl⟩ := h
    by_cases ht : t = []
    · subst ht
      have hd : (b ++ ([] ++ b')).dropWhile isBlank = [] := by
        have := dropWhile_blanks (hb.append hb') (t := []) nofun
        simpa using this
      rw [trimStart, hd]
      rfl
    · have hs : (b ++ (t ++ b')).dropWhile isBlank = t ++ b' := by
        refine dropWhile_blanks hb ?_
        rw [List.head?_append_of_ne_nil _ ht]
        exact hf
      rw [trimStart, hs, trimEnd, List.reverse_append, dropWhile_blanks hb'.reverse,
        List.reverse_reverse]
      rw [List.head?_reverse]
      exact hl
  · rintro rfl
    exact stripped_trim s

theorem stripped_toList {s : String} : Stripped s.toList t ↔ (trim s).toList = t := by
  rw [stripped_iff, trim, String.toList_ofList]

theorem stripped_of_not_blank (hb : AllBlank b) (hb' : AllBlank b')
    (ht : ∀ c ∈ t, isBlank c = false) : Stripped (b ++ (t ++ b')) t :=
  ⟨⟨b, b', hb, hb', rfl⟩, fun c hc => ht c (List.mem_of_mem_head? hc),
    fun c hc => ht c (List.mem_of_mem_getLast? hc)⟩

theorem Stripped.unique (h : Stripped s t) (h' : Stripped s u) : t = u :=
  (stripped_iff.mp h).symm.trans (stripped_iff.mp h')

theorem stripped_append_iff (hb : AllBlank b) (hb' : AllBlank b') :
    Stripped (b ++ (s ++ b')) t ↔ Stripped s t := by
  have hs : ∀ {u : List Char}, Stripped s u → Stripped (b ++ (s ++ b')) u := by
    intro u h
    obtain ⟨⟨c, c', hc, hc', rfl⟩, hf, hl⟩ := h
    exact ⟨⟨b ++ c, c' ++ b', hb.append hc, hc'.append hb', by simp⟩, hf, hl⟩
  constructor
  · intro h
    rw [h.unique (hs (stripped_trim s))]
    exact stripped_trim s
  · exact hs

/-! ### Texts with separators -/

/-- The texts between separators, each without the blanks around it. -/
structure Separated (sep : Char) (text : List Char) (inners : List (List Char)) : Prop where
  exists_pieces : ∃ ps, ps ≠ [] ∧ (∀ p ∈ ps, sep ∉ p) ∧ text = [sep].intercalate ps ∧
    List.Forall₂ Stripped ps inners

theorem separated_iff {ts : List (List Char)} :
    Separated sep s ts ↔ (pieces sep s).map (fun p => trimEnd (trimStart p)) = ts := by
  have hf : ∀ ps : List (List Char),
      List.Forall₂ Stripped ps ts ↔ ps.map (fun p => trimEnd (trimStart p)) = ts := by
    intro ps
    have he : Stripped = fun p t => trimEnd (trimStart p) = t :=
      funext₂ fun p t => propext stripped_iff
    rw [← List.forall₂_eq_eq_eq, List.forall₂_map_left_iff, he]
  constructor
  · intro h
    obtain ⟨ps, hn, hs, rfl, hp⟩ := h
    rw [pieces_intercalate hn hs]
    exact (hf ps).mp hp
  · intro h
    exact ⟨pieces sep s, pieces_ne_nil sep s, fun p => not_mem_of_mem_pieces,
      (intercalate_pieces sep s).symm, (hf _).mpr h⟩

theorem pieces_append_left (hb : sep ∉ b) (s : List Char) :
    ∃ p ps, pieces sep s = p :: ps ∧ pieces sep (b ++ s) = (b ++ p) :: ps := by
  induction b with
  | nil =>
    obtain ⟨p, ps, hp⟩ := List.exists_cons_of_ne_nil (pieces_ne_nil sep s)
    exact ⟨p, ps, hp, hp⟩
  | cons c b ih =>
    obtain ⟨hc, hb⟩ := List.ne_and_not_mem_of_not_mem_cons hb
    obtain ⟨p, ps, hp, ha⟩ := ih hb
    refine ⟨p, ps, hp, ?_⟩
    rw [List.cons_append, pieces, if_neg (Ne.symm hc), ha]
    rfl

theorem pieces_append_right (hb : sep ∉ b) (s : List Char) :
    ∃ ps p, pieces sep s = ps ++ [p] ∧ pieces sep (s ++ b) = ps ++ [p ++ b] := by
  induction s with
  | nil => exact ⟨[], [], rfl, pieces_of_not_mem hb⟩
  | cons c s ih =>
    obtain ⟨ps, p, hp, ha⟩ := ih
    by_cases hc : c = sep
    · exact ⟨[] :: ps, p, by simp [pieces, hc, hp], by simp [pieces, hc, ha]⟩
    · cases ps with
      | nil => exact ⟨[], c :: p, by simp [pieces, hc, hp], by simp [pieces, hc, ha]⟩
      | cons q qs => exact ⟨(c :: q) :: qs, p, by simp [pieces, hc, hp], by simp [pieces, hc, ha]⟩

theorem separated_append_iff {ts : List (List Char)} (hs : isBlank sep = false) (hb : AllBlank b)
    (hb' : AllBlank b') : Separated sep (b ++ (s ++ b')) ts ↔ Separated sep s ts := by
  have hm : ∀ {b : List Char}, AllBlank b → sep ∉ b := by
    intro b hb hm
    rw [hb sep hm] at hs
    cases hs
  have ht : ∀ {b p b' : List Char}, AllBlank b → AllBlank b' →
      trimEnd (trimStart (b ++ (p ++ b'))) = trimEnd (trimStart p) := fun hb hb' =>
    stripped_iff.mp ((stripped_append_iff hb hb').mpr (stripped_trim _))
  obtain ⟨q, qs, hq, hl⟩ := pieces_append_left (hm hb) (s ++ b')
  obtain ⟨ps, p, hp, hr⟩ := pieces_append_right (hm hb') s
  have hl' : (pieces sep (b ++ (s ++ b'))).map (fun p => trimEnd (trimStart p)) =
      (pieces sep (s ++ b')).map fun p => trimEnd (trimStart p) := by
    have := ht (p := q) hb allBlank_nil
    rw [List.append_nil] at this
    rw [hl, hq, List.map_cons, List.map_cons, this]
  have hr' : (pieces sep (s ++ b')).map (fun p => trimEnd (trimStart p)) =
      (pieces sep s).map fun p => trimEnd (trimStart p) := by
    rw [hr, hp, List.map_append, List.map_append, List.map_singleton, List.map_singleton,
      ← List.nil_append (p ++ b'), ht allBlank_nil hb']
  rw [separated_iff, separated_iff, hl', hr']

end ListfileSettings.Text
