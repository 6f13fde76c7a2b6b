import ListfileSettings.Proofs.Assignment.FirstCharacter

/-!
# Printed literals

The text of a literal denotes the literal, and whole lines can be put one after the other.
-/
namespace ListfileSettings.Assignment.Grammar

/-! ### Values -/

theorem quoted_escaped (s : List Char) : Quoted '\'' (s.flatMap Literal.escaped) s := by
  induction s with
  | nil => exact .nil
  | cons c s ih =>
    rw [List.flatMap_cons]
    unfold Literal.escaped
    split
    · exact .escape (.itself (by simp)) ih
    · exact .escape (.itself (by simp)) ih
    · exact .escape .newline ih
    · exact .escape .tab ih
    · next hb hq hn _ => exact .plain ⟨hq, hb, hn⟩ ih

theorem digits_digits (n : Nat) : Digits (Decimal.digits n) n := by
  have h : Digits (['_'].intercalate [Decimal.digits n]) (Decimal.value [Decimal.digits n].flatten) := by
    refine .mk (by simp) fun g hg => ?_
    obtain rfl := List.mem_singleton.mp hg
    exact ⟨Decimal.digits_ne_nil n, fun c hc => isDigit_iff.mp (Decimal.isDigit_of_mem_digits hc)⟩
  simpa [Decimal.value_digits] using h

theorem integer_integerDigits (i : Int) : Integer (Decimal.integerDigits i) i := by
  cases i with
  | ofNat n => exact .unsigned (digits_digits n)
  | negSucc n => exact .minus (digits_digits (n + 1))

theorem blanks_space : Blanks [' '] := by simp [Blanks, Blank]

theorem items_blank {c : Char} {t : List Char} {vs : List Literal} (hc : Blank c)
    (h : Items t vs) : Items (c :: t) vs := by
  cases h with
  | none h => exact .none (.blank hc h)
  | some h hv hs => exact .some (.blank hc h) hv hs

mutual

theorem value_chars : (v : Literal) → Value v.chars v
  | .integer n => by
    rw [Literal.chars]
    conv => arg 2; rw [← n.clamp_val]
    exact .integer (integer_integerDigits n.val)
  | .boolean true => .word .trueUpper
  | .boolean false => .word .falseUpper
  | .string s => by
    have h := Value.string (.inl rfl) (quoted_escaped s.toList)
    rwa [String.ofList_toList] at h
  | .sequence vs => .sequence (items_itemChars vs)

theorem items_itemChars : (vs : List Literal) → Items (Literal.itemChars vs) vs
  | [] => .none .nil
  | [v] => by
    have h := Items.some .nil (value_chars v) (.none .nil)
    simpa [Literal.itemChars] using h
  | v :: w :: vs => by
    have hs := items_blank (.inl rfl) (items_itemChars (w :: vs))
    have h := Items.some .nil (value_chars v) (.comma .nil hs)
    simpa [Literal.itemChars] using h

end

/-! ### Keys -/

theorem identifier_ofList {c : Char} {s : List Char} (hc : isKeyStart c = true)
    (hs : s.all isKeyPart = true) : Identifier (String.ofList (c :: s)).toList := by
  rw [String.toList_ofList]
  exact ⟨isKeyStart_iff.mp hc, fun d hd => isKeyPart_iff.mp (List.all_eq_true.mp hs d hd)⟩

/-! ### Line breaks -/

theorem newline_not_mem_integerDigits (i : Int) : '\n' ∉ Decimal.integerDigits i :=
  List.count_eq_zero.mp (count_newline_of_integer (integer_integerDigits i))

theorem newline_not_mem_stringChars (s : String) : '\n' ∉ Literal.stringChars s := by
  have h := count_newline_of_quoted (quoted_escaped s.toList)
  simpa [Literal.stringChars] using List.count_eq_zero.mp h

mutual

theorem newline_not_mem_chars : (v : Literal) → '\n' ∉ v.chars
  | .integer n => newline_not_mem_integerDigits n.val
  | .boolean true => by decide
  | .boolean false => by decide
  | .string s => newline_not_mem_stringChars s
  | .sequence vs => by simpa [Literal.chars] using newline_not_mem_itemChars vs

theorem newline_not_mem_itemChars : (vs : List Literal) → '\n' ∉ Literal.itemChars vs
  | [] => by simp [Literal.itemChars]
  | [v] => newline_not_mem_chars v
  | v :: w :: vs => by
    simpa [Literal.itemChars] using
      ⟨newline_not_mem_chars v, newline_not_mem_itemChars (w :: vs)⟩

end

/-! ### Whole lines -/

/-- Whole lines from line `n` on, each with its line break, that make these assignments: any lines
can follow them. -/
def WholeLines (n : Nat) (t : List Char) (as : List Assignment) : Prop :=
  ∀ u bs, Lines (n + t.count '\n') u bs → Lines n (t ++ u) (as ++ bs)

variable {n : Nat} {t u : List Char} {as bs : List Assignment}

theorem wholeLines_nil : WholeLines n [] [] := fun _ _ h => h

theorem wholeLines_of_line (h : Line n t as) : WholeLines n (t ++ ['\n']) as := by
  intro u bs hs
  rw [List.append_assoc]
  refine .more h ?_
  simpa [Nat.add_assoc] using hs

theorem WholeLines.append (h : WholeLines n t as) (hs : WholeLines (n + t.count '\n') u bs) :
    WholeLines n (t ++ u) (as ++ bs) := by
  intro w cs hw
  rw [List.append_assoc, List.append_assoc]
  refine h _ _ (hs _ _ ?_)
  rwa [List.count_append, ← Nat.add_assoc] at hw

theorem WholeLines.lines (h : WholeLines n t as) : Lines n t as := by
  have hs := h [] [] (.last (.empty trailer_nil))
  rwa [List.append_nil, List.append_nil] at hs

theorem wholeLines_comment (h : '\n' ∉ t) : WholeLines n ('#' :: (t ++ ['\n'])) [] :=
  wholeLines_of_line (.empty (trailer_cons.mpr (.inr ⟨rfl, h⟩)))

end ListfileSettings.Assignment.Grammar
