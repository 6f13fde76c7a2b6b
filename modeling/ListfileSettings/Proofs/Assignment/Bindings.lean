import ListfileSettings.Proofs.Assignment.Acceptance
import ListfileSettings.Proofs.Assignment.Printing

/-!
# Printed bindings are read back

A binding is a key with a literal. Bindings that are printed one a line make a settings text, which
is read back as the same bindings, each on the line that it was printed on.
-/
namespace ListfileSettings.Assignment

open Grammar

variable {bs : List (String × Literal)} {n : Nat}

def bindingChars (b : String × Literal) : List Char :=
  b.1.toList ++ [' ', '=', ' '] ++ b.2.chars ++ ['\n']

/-- The text that has a line for each binding. -/
def bindingsText (bs : List (String × Literal)) : String :=
  String.ofList (bs.flatMap bindingChars)

/-- The assignments of bindings that stand on the lines from `n` on. -/
def ofBindings (n : Nat) (bs : List (String × Literal)) : List Assignment :=
  (bs.zipIdx n).map fun b => ⟨b.1.1, b.1.2, b.2⟩

theorem ofBindings_cons (b : String × Literal) :
    ofBindings n (b :: bs) = ⟨b.1, b.2, n⟩ :: ofBindings (n + 1) bs := rfl

theorem wholeLines_bindingChars {b : String × Literal} (h : Identifier b.1.toList) :
    WholeLines n (bindingChars b) [⟨b.1, b.2, n⟩] := by
  have hb : Blanks [] := by simp [Blanks]
  have hl := Line.assignment (n := n) hb h blanks_space blanks_space (value_chars b.2) trailer_nil
  rw [String.ofList_toList] at hl
  have hw := wholeLines_of_line hl
  simpa [bindingChars] using hw

/-- No literal brings a line break of its own, so each binding takes one line. -/
theorem count_newline_bindingChars {b : String × Literal} (h : Identifier b.1.toList) :
    (bindingChars b).count '\n' = 1 := by
  have hk := count_newline_of_identifier h
  have hv := List.count_eq_zero.mpr (newline_not_mem_chars b.2)
  simp [bindingChars, List.count_append, hk, hv]

theorem wholeLines_bindings (h : ∀ b ∈ bs, Identifier b.1.toList) :
    WholeLines n (bs.flatMap bindingChars) (ofBindings n bs) := by
  induction bs generalizing n with
  | nil => exact wholeLines_nil
  | cons b bs ih =>
    obtain ⟨hb, hs⟩ := List.forall_mem_cons.mp h
    rw [List.flatMap_cons, ofBindings_cons]
    apply (wholeLines_bindingChars hb).append
    rw [count_newline_bindingChars hb]
    exact ih hs

/-- Bindings are read back from the text that they are printed as. -/
theorem read_bindingsText (h : ∀ b ∈ bs, Identifier b.1.toList) :
    read (bindingsText bs) = .ok (ofBindings 1 bs) :=
  read_of_lines (wholeLines_bindings h).lines

theorem read_nested_bindings :
    read (bindingsText [("a", .sequence [.sequence [], .string "it's\n\\n"]),
        ("_b2", .integer ⟨Decimal.leastWide, by decide, by decide⟩)]) =
      .ok [⟨"a", .sequence [.sequence [], .string "it's\n\\n"], 1⟩,
        ⟨"_b2", .integer ⟨Decimal.leastWide, by decide, by decide⟩, 2⟩] := by
  have ha : Identifier "a".toList := identifier_ofList (c := 'a') (s := []) rfl rfl
  have hb : Identifier "_b2".toList := identifier_ofList (c := '_') (s := ['b', '2']) rfl rfl
  refine read_bindingsText fun b hb' => ?_
  simp only [List.mem_cons, List.not_mem_nil, or_false] at hb'
  rcases hb' with rfl | rfl
  · exact ha
  · exact hb

end ListfileSettings.Assignment
