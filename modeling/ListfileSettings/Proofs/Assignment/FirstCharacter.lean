import ListfileSettings.Assignment.Reader
import ListfileSettings.Proofs.Assignment.Grammar
import ListfileSettings.Proofs.Text.Pieces

/-!
# First characters

The first character of a part of a settings text decides how the part goes on. Each part has one
lemma that says so; the reader's classes of characters are those of the grammar.
-/
namespace ListfileSettings.Assignment.Grammar

variable {c q : Char} {t : List Char}

/-! ### Classes of characters -/

theorem isBlank_iff : isBlank c = true ↔ Blank c := by
  simp [isBlank, Blank, or_assoc]

theorem isDigit_iff : c.isDigit = true ↔ Digit c := by
  simp [Char.isDigit, Digit, Char.le_def]

theorem isUpper_iff : c.isUpper = true ↔ 'A' ≤ c ∧ c ≤ 'Z' := decide_eq_true_iff

theorem isLower_iff : c.isLower = true ↔ 'a' ≤ c ∧ c ≤ 'z' := by
  have h : c.isLower = (decide ('a'.val ≤ c.val) && decide (c.val ≤ 'z'.val)) := rfl
  rw [h, Bool.and_eq_true, decide_eq_true_iff, decide_eq_true_iff]
  exact Iff.rfl

theorem isKeyStart_iff : isKeyStart c = true ↔ Letter c := by
  have h : c.isAlpha = (c.isUpper || c.isLower) := rfl
  rw [isKeyStart, Bool.or_eq_true, h, Bool.or_eq_true, isUpper_iff, isLower_iff,
    decide_eq_true_iff, Letter, or_assoc, or_left_comm]

theorem isKeyPart_iff : isKeyPart c = true ↔ Letter c ∨ Digit c := by
  rw [← isKeyStart_iff, ← isDigit_iff]
  simp only [isKeyPart, isKeyStart, Char.isAlphanum, Bool.or_eq_true, decide_eq_true_eq]
  exact or_right_comm

theorem escape_iff {e : List Char} : Escape c e ↔ c ≠ '\n' ∧ e = State.escapeText c := by
  constructor
  · intro h
    cases h with
    | newline => decide
    | tab => decide
    | itself h => rcases h with rfl | rfl | rfl <;> decide
    | kept h =>
      simp only [List.mem_cons, not_or, List.not_mem_nil, not_false_eq_true, and_true] at h
      refine ⟨h.2.2.2.2.2, ?_⟩
      unfold State.escapeText
      split <;> simp_all
  · intro h
    obtain ⟨h, rfl⟩ := h
    unfold State.escapeText
    split
    · exact .newline
    · exact .tab
    · exact .itself (by simp)
    · exact .itself (by simp)
    · exact .itself (by simp)
    · exact .kept (by simp_all)

/-! ### Parts of a line -/

theorem blanks_cons : Blanks (c :: t) ↔ Blank c ∧ Blanks t := List.forall_mem_cons

theorem not_newline_of_blank (h : Blank c) : c ≠ '\n' := by
  rcases h with rfl | rfl | rfl | rfl <;> decide

theorem count_newline_of_blanks (h : Blanks t) : t.count '\n' = 0 :=
  List.count_eq_zero.mpr fun hm => not_newline_of_blank (h _ hm) rfl

theorem count_newline_of_identifier (h : Identifier t) : t.count '\n' = 0 := by
  obtain @⟨c, t, h, hs⟩ := h
  refine List.count_eq_zero.mpr fun hm => ?_
  have hn : ¬ (Letter '\n' ∨ Digit '\n') := by
    rw [← isKeyPart_iff]
    decide
  rcases List.mem_cons.mp hm with rfl | hm
  · exact hn (.inl h)
  · exact hn (hs _ hm)

theorem trailer_nil : Trailer [] := .blanks (by simp [Blanks])

theorem trailer_cons : Trailer (c :: t) ↔ Blank c ∧ Trailer t ∨ c = '#' ∧ '\n' ∉ t := by
  constructor
  · intro h
    generalize ht : c :: t = u at h
    rcases h with h | @⟨b, u, h, ⟨hu⟩⟩
    · subst ht
      obtain ⟨hc, h⟩ := blanks_cons.mp h
      exact .inl ⟨hc, .blanks h⟩
    · rcases List.cons_eq_append_iff.mp ht with ⟨rfl, he⟩ | ⟨b', rfl, rfl⟩
      · obtain ⟨rfl, rfl⟩ := List.cons.inj he
        exact .inr ⟨rfl, hu⟩
      · obtain ⟨hc, h⟩ := blanks_cons.mp h
        exact .inl ⟨hc, .comment h ⟨hu⟩⟩
  · intro h
    rcases h with ⟨hc, h | @⟨b, u, h, hu⟩⟩ | ⟨rfl, h⟩
    · exact .blanks (blanks_cons.mpr ⟨hc, h⟩)
    · exact .comment (t := c :: b) (blanks_cons.mpr ⟨hc, h⟩) hu
    · exact .comment (t := []) (by simp [Blanks]) ⟨h⟩

theorem count_newline_of_trailer (h : Trailer t) : t.count '\n' = 0 := by
  rcases h with h | ⟨h, ⟨hu⟩⟩
  · exact count_newline_of_blanks h
  · simp [count_newline_of_blanks h, List.count_eq_zero.mpr hu]

theorem layout_cons : Layout (c :: t) ↔ Blank c ∧ Layout t ∨ c = '\n' ∧ Layout t ∨
    c = '#' ∧ ∃ u w, t = u ++ '\n' :: w ∧ '\n' ∉ u ∧ Layout w := by
  constructor
  · intro h
    generalize ht : c :: t = u at h
    cases h with
    | nil => cases ht
    | blank h hs =>
      obtain ⟨rfl, rfl⟩ := List.cons.inj ht
      exact .inl ⟨h, hs⟩
    | newline hs =>
      obtain ⟨rfl, rfl⟩ := List.cons.inj ht
      exact .inr (.inl ⟨rfl, hs⟩)
    | comment h hs =>
      obtain ⟨h⟩ := h
      obtain ⟨rfl, rfl⟩ := List.cons.inj ht
      exact .inr (.inr ⟨rfl, _, _, rfl, h, hs⟩)
  · intro h
    rcases h with ⟨h, hs⟩ | ⟨rfl, hs⟩ | ⟨rfl, u, w, rfl, h, hs⟩
    · exact .blank h hs
    · exact .newline hs
    · exact .comment ⟨h⟩ hs

/-! ### Values -/

theorem letters_of_word {b : Bool} (h : Word t b) : ∀ c ∈ t, Letter c := by
  intro c hc
  have hs : t.all isKeyStart = true := by cases h <;> rfl
  exact isKeyStart_iff.mp (List.all_eq_true.mp hs c hc)

theorem word_iff {b : Bool} {s : String} : Word s.toList b ↔
    (s = "True" ∨ s = "true") ∧ b = true ∨ (s = "False" ∨ s = "false") ∧ b = false := by
  constructor
  · intro h
    generalize hs : s.toList = u at h
    rw [← String.ofList_toList (s := s), hs]
    cases h <;> decide
  · intro h
    rcases h with ⟨rfl | rfl, rfl⟩ | ⟨rfl | rfl, rfl⟩
    · exact .trueUpper
    · exact .trueLower
    · exact .falseUpper
    · exact .falseLower

def isDigitPart (c : Char) : Bool := c.isDigit || c = '_'

theorem isGrouped_iff :
    State.isGrouped (String.ofList t) = true ↔ ∀ p ∈ Text.pieces '_' t, p ≠ [] := by
  simp [State.isGrouped]

theorem digits_iff {n : Nat} : Digits t n ↔ (∀ c ∈ t, isDigitPart c = true) ∧
    State.isGrouped (String.ofList t) = true ∧ n = Decimal.value (t.filter (· ≠ '_')) := by
  rw [isGrouped_iff]
  constructor
  · rintro @⟨gs, h, hs⟩
    have hp : Text.pieces '_' (['_'].intercalate gs) = gs := by
      refine Text.pieces_intercalate h fun g hg hm => ?_
      have := isDigit_iff.mpr ((hs g hg).2 _ hm)
      contradiction
    refine ⟨?_, ?_, ?_⟩
    · intro c hc
      by_cases hu : c = '_'
      · simp [isDigitPart, hu]
      · have hf : c ∈ (['_'].intercalate gs).filter (· ≠ '_') := by simp [hc, hu]
        rw [← Text.flatten_pieces, hp] at hf
        obtain ⟨g, hg, hc⟩ := List.mem_flatten.mp hf
        simp [isDigitPart, isDigit_iff.mpr ((hs g hg).2 c hc)]
    · rw [hp]
      exact fun g hg => (hs g hg).1
    · rw [← Text.flatten_pieces, hp]
  · intro h
    obtain ⟨h, hs, rfl⟩ := h
    rw [← Text.flatten_pieces]
    conv => arg 1; rw [← Text.intercalate_pieces '_' t]
    refine .mk (Text.pieces_ne_nil _ _) fun g hg => ⟨hs g hg, fun c hc => ?_⟩
    have hf : c ∈ t.filter (· ≠ '_') := by
      rw [← Text.flatten_pieces]
      exact List.mem_flatten.mpr ⟨g, hg, hc⟩
    obtain ⟨hm, hu⟩ := List.mem_filter.mp hf
    have := h c hm
    simp only [isDigitPart, Bool.or_eq_true, decide_eq_true_eq] at this hu
    exact isDigit_iff.mp (this.resolve_right hu)

theorem integerValue_of_digits {n : Nat} (h : Digits t n) (sign : String) :
    State.integerValue sign (String.ofList t) =
      Decimal.Wide.clamp (if sign = "-" then -n else n) := by
  simp [State.integerValue, (digits_iff.mp h).2.2]

theorem digit_of_digits {n : Nat} (h : Digits (c :: t) n) : Digit c := by
  obtain ⟨hc, hp, -⟩ := digits_iff.mp h
  have := hc c (by simp)
  simp only [isDigitPart, Bool.or_eq_true, decide_eq_true_eq] at this
  refine isDigit_iff.mp (this.resolve_right ?_)
  rintro rfl
  exact isGrouped_iff.mp hp [] (by simp [Text.pieces]) rfl

theorem integer_cons {n : Int} : Integer (c :: t) n ↔ Digit c ∧ (∃ m : Nat, Digits (c :: t) m ∧ n = m) ∨
    c = '+' ∧ (∃ m : Nat, Digits t m ∧ n = m) ∨ c = '-' ∧ ∃ m : Nat, Digits t m ∧ n = -m := by
  constructor
  · intro h
    generalize ht : c :: t = u at h
    cases h with
    | unsigned h =>
      subst ht
      exact .inl ⟨digit_of_digits h, _, h, rfl⟩
    | plus h =>
      obtain ⟨rfl, rfl⟩ := List.cons.inj ht
      exact .inr (.inl ⟨rfl, _, h, rfl⟩)
    | minus h =>
      obtain ⟨rfl, rfl⟩ := List.cons.inj ht
      exact .inr (.inr ⟨rfl, _, h, rfl⟩)
  · intro h
    rcases h with ⟨-, m, h, rfl⟩ | ⟨rfl, m, h, rfl⟩ | ⟨rfl, m, h, rfl⟩
    · exact .unsigned h
    · exact .plus h
    · exact .minus h

theorem quoted_nil {s : List Char} : Quoted q [] s ↔ s = [] := by
  constructor
  · intro h
    cases h
    rfl
  · rintro rfl
    exact .nil

theorem quoted_cons {s : List Char} : Quoted q (c :: t) s ↔
    (c ≠ q ∧ c ≠ '\\' ∧ c ≠ '\n') ∧ (∃ s', Quoted q t s' ∧ s = c :: s') ∨
    c = '\\' ∧ ∃ d e u s', t = d :: u ∧ Escape d e ∧ Quoted q u s' ∧ s = e ++ s' := by
  constructor
  · intro h
    generalize ht : c :: t = u at h
    cases h with
    | nil => cases ht
    | plain h hs =>
      obtain ⟨rfl, rfl⟩ := List.cons.inj ht
      exact .inl ⟨h, _, hs, rfl⟩
    | escape h hs =>
      obtain ⟨rfl, rfl⟩ := List.cons.inj ht
      exact .inr ⟨rfl, _, _, _, _, rfl, h, hs, rfl⟩
  · intro h
    rcases h with ⟨h, s', hs, rfl⟩ | ⟨rfl, d, e, u, s', rfl, h, hs, rfl⟩
    · exact .plain h hs
    · exact .escape h hs

theorem not_value_nil {v : Literal} : ¬ Value [] v := by
  intro h
  generalize ht : ([] : List Char) = t at h
  cases h with
  | word h => cases h <;> cases ht
  | integer h =>
    cases h with
    | unsigned h =>
      obtain ⟨-, hp, -⟩ := digits_iff.mp h
      exact isGrouped_iff.mp hp [] (by simp [← ht, Text.pieces]) rfl
    | plus => cases ht
    | minus => cases ht
  | string => cases ht
  | sequence => cases ht

theorem value_cons {v : Literal} : Value (c :: t) v ↔ (∃ b, Word (c :: t) b ∧ v = .boolean b) ∨
    (∃ n, Integer (c :: t) n ∧ v = .integer (Decimal.Wide.clamp n)) ∨
    (c = '\'' ∨ c = '"') ∧ (∃ u s, t = u ++ [c] ∧ Quoted c u s ∧ v = .string (String.ofList s)) ∨
    c = '[' ∧ ∃ u vs, t = u ++ [']'] ∧ Items u vs ∧ v = .sequence vs := by
  constructor
  · intro h
    generalize ht : c :: t = u at h
    cases h with
    | word h => exact .inl ⟨_, ht ▸ h, rfl⟩
    | integer h => exact .inr (.inl ⟨_, ht ▸ h, rfl⟩)
    | string hq h =>
      obtain ⟨rfl, rfl⟩ := List.cons.inj ht
      exact .inr (.inr (.inl ⟨hq, _, _, rfl, h, rfl⟩))
    | sequence h =>
      obtain ⟨rfl, rfl⟩ := List.cons.inj ht
      exact .inr (.inr (.inr ⟨rfl, _, _, rfl, h, rfl⟩))
  · intro h
    rcases h with ⟨b, h, rfl⟩ | ⟨n, h, rfl⟩ | ⟨hq, u, s, rfl, h, rfl⟩ | ⟨rfl, u, vs, rfl, h, rfl⟩
    · exact .word h
    · exact .integer h
    · exact .string hq h
    · exact .sequence h

theorem count_newline_of_word {b : Bool} (h : Word t b) : t.count '\n' = 0 := by
  cases h <;> decide

theorem count_newline_of_digits {n : Nat} (h : Digits t n) : t.count '\n' = 0 :=
  List.count_eq_zero.mpr fun hm => absurd ((digits_iff.mp h).1 _ hm) (by decide)

theorem count_newline_of_integer {n : Int} (h : Integer t n) : t.count '\n' = 0 := by
  cases h with
  | unsigned h => exact count_newline_of_digits h
  | plus h => simp [count_newline_of_digits h]
  | minus h => simp [count_newline_of_digits h]

theorem count_newline_of_quoted {s : List Char} (h : Quoted q t s) : t.count '\n' = 0 := by
  induction h with
  | nil => rfl
  | plain h _ ih => simp [h.2.2, ih]
  | escape h _ ih => simp [(escape_iff.mp h).1, ih]

end ListfileSettings.Assignment.Grammar
