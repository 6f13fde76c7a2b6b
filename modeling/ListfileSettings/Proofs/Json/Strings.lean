import ListfileSettings.Json.Reader
import ListfileSettings.Proofs.Json.Grammar

/-!
# Strings are read as what they denote

Every escape is read as its character, and a string as its text, whatever comes after it.
-/
namespace ListfileSettings.Json

open Grammar

variable {t u s rest : List Char} {c : Char} {n : Nat}

/-! ### Digits in base sixteen -/

theorem hexValue?_digit : ∀ n < 10, hexValue? (Char.ofNat ('0'.toNat + n)) = some n := by decide

theorem hexValue?_small : ∀ n < 6, hexValue? (Char.ofNat ('a'.toNat + n)) = some (10 + n) := by
  decide

theorem hexValue?_large : ∀ n < 6, hexValue? (Char.ofNat ('A'.toNat + n)) = some (10 + n) := by
  decide

theorem hexValue?_of_hexDigit (h : HexDigit c n) : hexValue? c = some n := by
  cases h with
  | digit h => exact hexValue?_digit _ h
  | small h => exact hexValue?_small _ h
  | large h => exact hexValue?_large _ h

theorem length_le_size (s : List Char) : s.length ≤ Text.Utf8.size s := by
  induction s with
  | nil => exact Nat.le_refl 0
  | cons c s ih =>
    have hc := c.utf8Size_pos
    rw [List.length_cons, Text.Utf8.size]
    omega

theorem hexQuad_of_quad (h : Quad t n) : hexQuad (t ++ rest) = .ok (n, rest) := by
  cases h with
  | @mk a b c d i j k l ha hb hc hd =>
    have hs : ¬ Text.Utf8.size (a :: b :: c :: d :: rest) < 4 := by
      have hl := length_le_size (a :: b :: c :: d :: rest)
      simp only [List.length_cons] at hl
      omega
    change hexQuad (a :: b :: c :: d :: rest) = _
    rw [hexQuad, if_neg hs]
    simp [hexValue?_of_hexDigit ha, hexValue?_of_hexDigit hb, hexValue?_of_hexDigit hc,
      hexValue?_of_hexDigit hd]

/-! ### Escapes -/

theorem not_surrogate (c : Char) : c.toNat < 0xD800 ∨ 0xDFFF < c.toNat := by
  rcases c.valid with h | h
  · exact .inl h
  · exact .inr h.1

theorem escape_code (h : Quad t c.toNat) : escape ('u' :: (t ++ rest)) = .ok (c, rest) := by
  have hc := not_surrogate c
  have hl : ¬ (0xDC00 ≤ c.toNat ∧ c.toNat ≤ 0xDFFF) := by omega
  have hh : ¬ (0xD800 ≤ c.toNat ∧ c.toNat ≤ 0xDBFF) := by omega
  change (hexQuad (t ++ rest) >>= _) = _
  rw [hexQuad_of_quad h]
  simp [bind, Except.bind, hl, hh]

theorem escape_surrogates {high low : Nat} (ht : Quad t (0xD800 + high))
    (hu : Quad u (0xDC00 + low)) (hl : high < 0x400 ∧ low < 0x400)
    (hc : c.toNat = 0x10000 + high * 0x400 + low) :
    escape ('u' :: (t ++ '\\' :: 'u' :: (u ++ rest))) = .ok (c, rest) := by
  have hn : (high * 0x400 + low) + 0x10000 = c.toNat := by omega
  have hlow : lowSurrogate (0xD800 + high) ('\\' :: 'u' :: (u ++ rest)) = .ok (c, rest) := by
    have hr : ¬ (0xDFFF < 0xDC00 + low) := by omega
    change (hexQuad (u ++ rest) >>= _) = _
    rw [hexQuad_of_quad hu]
    simp [bind, Except.bind, hr, hn]
  have h₁ : ¬ (0xDC00 ≤ 0xD800 + high) := by omega
  have h₂ : 0xD800 + high ≤ 0xDBFF := by omega
  change (hexQuad (t ++ _) >>= _) = _
  rw [hexQuad_of_quad ht]
  simp [bind, Except.bind, h₁, h₂, hlow]

theorem escape_of_escape (h : Escape t c) (rest : List Char) :
    escape (t ++ rest) = .ok (c, rest) := by
  cases h with
  | itself h => rcases h with rfl | rfl | rfl <;> rfl
  | code h => exact escape_code h
  | surrogates ht hu hl hc =>
    rw [List.cons_append, List.append_assoc, List.cons_append, List.cons_append]
    exact escape_surrogates ht hu hl hc
  | _ => rfl

/-! ### Whole strings -/

theorem stringRest_of_quoted (h : Quoted t s) (hn : t.length < n) :
    stringRest n (t ++ '"' :: rest) = .ok (s, rest) := by
  induction h generalizing n with
  | nil =>
    obtain ⟨m, rfl⟩ := Nat.exists_eq_add_one_of_ne_zero (Nat.ne_zero_of_lt hn)
    rfl
  | @plain c t s hc _ ih =>
    obtain ⟨m, rfl⟩ := Nat.exists_eq_add_one_of_ne_zero (Nat.ne_zero_of_lt hn)
    obtain ⟨hq, hb, hp⟩ := hc
    have hs := ih (Nat.lt_of_succ_lt_succ hn)
    rw [List.cons_append, stringRest, if_neg hq, if_neg hb, if_neg (Nat.not_lt.mpr hp), hs]
    rfl
  | @escape e t s c he _ ih =>
    obtain ⟨m, rfl⟩ := Nat.exists_eq_add_one_of_ne_zero (Nat.ne_zero_of_lt hn)
    have hl : t.length < m := by
      simp only [List.length_cons, List.length_append] at hn
      omega
    have hs := escape_of_escape he (t ++ '"' :: rest)
    rw [List.cons_append, List.append_assoc, stringRest, if_neg (by decide), if_pos rfl, hs]
    change (stringRest m (t ++ '"' :: rest) >>= _) = _
    rw [ih hl]
    rfl

theorem stringAfterQuote_of_quoted (h : Quoted t s) (rest : List Char) :
    stringAfterQuote (t ++ '"' :: rest) = .ok (String.ofList s, rest) := by
  have hn : t.length < (t ++ '"' :: rest).length := by
    simp
  rw [stringAfterQuote, stringRest_of_quoted h hn]
  rfl

end ListfileSettings.Json
