import ListfileSettings.Text.Blank

/-!
# Pieces of a text

The pieces between separators hold all of the text but the separators, and no list of pieces other
than them makes up the text.
-/
namespace ListfileSettings.Text

theorem pieces_eq_splitOn (sep : Char) (cs : List Char) : pieces sep cs = cs.splitOn sep := by
  induction cs with
  | nil => rfl
  | cons c cs ih =>
    rw [pieces, ih, List.splitOn_cons_eq_if_modifyHead]
    obtain ⟨p, ps, hp⟩ := List.exists_cons_of_ne_nil (List.splitOn_ne_nil sep cs)
    by_cases h : c = sep <;> simp [h, hp]

theorem intercalate_pieces (sep : Char) (cs : List Char) :
    [sep].intercalate (pieces sep cs) = cs := by
  rw [pieces_eq_splitOn, List.intercalate_splitOn]

theorem pieces_intercalate {sep : Char} {ps : List (List Char)} (h : ps ≠ [])
    (hs : ∀ p ∈ ps, sep ∉ p) : pieces sep ([sep].intercalate ps) = ps := by
  rw [pieces_eq_splitOn, List.splitOn_intercalate sep hs h]

theorem not_mem_of_mem_pieces {sep : Char} {cs p : List Char} (h : p ∈ pieces sep cs) : sep ∉ p := by
  induction cs generalizing p with
  | nil => simp_all [pieces]
  | cons c cs ih =>
    obtain ⟨q, qs, hq⟩ := List.exists_cons_of_ne_nil (pieces_ne_nil sep cs)
    rw [hq] at ih
    obtain ⟨hp, hps⟩ := List.forall_mem_cons.mp fun p => ih (p := p)
    rw [pieces, hq] at h
    split at h
    · rcases List.mem_cons.mp h with rfl | h
      · exact List.not_mem_nil
      · exact ih h
    · next hc =>
      rcases List.mem_cons.mp h with rfl | h
      · exact List.not_mem_cons_of_ne_of_not_mem (Ne.symm hc) hp
      · exact hps p h

theorem flatten_pieces (sep : Char) (cs : List Char) :
    (pieces sep cs).flatten = cs.filter (· ≠ sep) := by
  induction cs with
  | nil => rfl
  | cons c cs ih =>
    obtain ⟨p, ps, hp⟩ := List.exists_cons_of_ne_nil (pieces_ne_nil sep cs)
    by_cases h : c = sep
    · simp [pieces, h, ih]
    · simp only [hp, List.flatten_cons] at ih
      simp [pieces, hp, h, ih]

theorem flatMap_pieces (sep : Char) (cs : List Char) :
    (pieces sep cs).flatMap (· ++ [sep]) = cs ++ [sep] := by
  induction cs with
  | nil => rfl
  | cons c cs ih =>
    obtain ⟨p, ps, hp⟩ := List.exists_cons_of_ne_nil (pieces_ne_nil sep cs)
    by_cases h : c = sep
    · simp [pieces, h, ih]
    · rw [hp, List.flatMap_cons] at ih
      simp [pieces, hp, h, ← ih]

variable {sep : Char} {s cs : List Char}

theorem pieces_of_not_mem (h : sep ∉ s) : pieces sep s = [s] := by
  rw [pieces_eq_splitOn]
  exact List.splitOn_eq_singleton h

theorem pieces_append (sep : Char) (s cs : List Char) :
    pieces sep (s ++ sep :: cs) = pieces sep s ++ pieces sep cs := by
  induction s with
  | nil => simp [pieces]
  | cons c s ih =>
    obtain ⟨p, ps, hp⟩ := List.exists_cons_of_ne_nil (pieces_ne_nil sep s)
    by_cases h : c = sep <;> simp [pieces, h, ih, hp]

theorem pieces_append_cons (h : sep ∉ s) : pieces sep (s ++ sep :: cs) = s :: pieces sep cs := by
  rw [pieces_append, pieces_of_not_mem h]
  rfl

theorem exists_first_piece (sep : Char) (cs : List Char) :
    ∃ p r, (pieces sep cs)[0]? = some p ∧ sep ∉ p ∧ cs = p ++ r ∧
      (r = [] ∨ r.head? = some sep) := by
  obtain ⟨p, ps, hp⟩ := List.exists_cons_of_ne_nil (pieces_ne_nil sep cs)
  have hn : sep ∉ p := not_mem_of_mem_pieces (hp ▸ List.mem_cons_self)
  have hc := intercalate_pieces sep cs
  rw [hp] at hc ⊢
  cases ps with
  | nil => exact ⟨p, [], rfl, hn, by simpa using hc.symm, .inl rfl⟩
  | cons q qs =>
    rw [List.intercalate_cons_cons, List.append_assoc] at hc
    exact ⟨p, _, rfl, hn, hc.symm, .inr rfl⟩

end ListfileSettings.Text
