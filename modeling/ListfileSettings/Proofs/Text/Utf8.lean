import ListfileSettings.Text.Utf8
import Mathlib.Tactic.SplitIfs

/-!
# Encoded texts

The octets of a text are read as the text, and texts are in the order of their octets. A character is
taken apart into digits to the base 64: the first octet shows how many there are, and its bounds for
the second leave out no character.
-/
namespace ListfileSettings.Text.Utf8

variable {valid read bits owed least greatest n : Nat} {bs : List UInt8} {begun : Begun}

/-! ### One octet -/

theorem decodeFrom_single (h : n < 0x80) : decodeFrom valid read none (.ofNat n :: bs) =
    (decodeFrom (valid + 1) 0 none bs).map (Char.ofNat n :: ·) := by
  have hn : (UInt8.ofNat n).toNat = n := UInt8.toNat_ofNat_of_lt' (Nat.lt_trans h (by decide))
  rw [decodeFrom, hn, if_pos h]

theorem decodeFrom_begin (hl : 0x80 ≤ n) (hg : n < 0x100) (hb : begin? n = some begun) :
    decodeFrom valid read none (.ofNat n :: bs) = decodeFrom valid 1 (some begun) bs := by
  have hn : (UInt8.ofNat n).toNat = n := UInt8.toNat_ofNat_of_lt' hg
  rw [decodeFrom, hn, if_neg (Nat.not_lt.mpr hl), hb]

theorem decodeFrom_tail (hl : least ≤ 0x80 + n) (hg : 0x80 + n ≤ greatest) (hn : n < 0x40) :
    decodeFrom valid read (some ⟨bits, owed, least, greatest⟩) (.ofNat (0x80 + n) :: bs) =
      if owed ≤ 1 then
        (decodeFrom (valid + read + 1) 0 none bs).map (Char.ofNat (bits * 0x40 + n) :: ·)
      else decodeFrom valid (read + 1) (some ⟨bits * 0x40 + n, owed - 1, 0x80, 0xBF⟩) bs := by
  have hb : (UInt8.ofNat (0x80 + n)).toNat = 0x80 + n :=
    UInt8.toNat_ofNat_of_lt' (by simp only [UInt8.size]; omega)
  have hi : ¬ ((decide (0x80 + n < least) || decide (greatest < 0x80 + n)) = true) := by
    rw [Bool.or_eq_true, decide_eq_true_iff, decide_eq_true_iff]
    omega
  rw [decodeFrom, hb, if_neg hi, Nat.add_sub_cancel_left]

theorem decodeFrom_last (hl : least ≤ 0x80 + n) (hg : 0x80 + n ≤ greatest) (hn : n < 0x40) :
    decodeFrom valid read (some ⟨bits, 1, least, greatest⟩) (.ofNat (0x80 + n) :: bs) =
      (decodeFrom (valid + read + 1) 0 none bs).map (Char.ofNat (bits * 0x40 + n) :: ·) := by
  rw [decodeFrom_tail hl hg hn, if_pos (Nat.le_refl 1)]

theorem decodeFrom_inner (hl : least ≤ 0x80 + n) (hg : 0x80 + n ≤ greatest) (hn : n < 0x40) :
    decodeFrom valid read (some ⟨bits, owed + 2, least, greatest⟩) (.ofNat (0x80 + n) :: bs) =
      decodeFrom valid (read + 1) (some ⟨bits * 0x40 + n, owed + 1, 0x80, 0xBF⟩) bs := by
  rw [decodeFrom_tail hl hg hn, if_neg (by omega)]
  rfl

/-! ### One character -/

theorem begin?_two (hl : 0x80 ≤ n) (hg : n < 0x800) :
    begin? (0xC0 + n / 0x40) = some ⟨n / 0x40, 1, 0x80, 0xBF⟩ := by
  rw [begin?, if_neg (by omega), if_pos (by omega), Nat.add_sub_cancel_left]

/-- No character of three octets is short enough for two, and none is a surrogate. -/
theorem begin?_three (hl : 0x800 ≤ n) (hg : n < 0x10000) (hs : n < 0xD800 ∨ 0xDFFF < n) :
    ∃ least greatest, begin? (0xE0 + n / 0x1000) = some ⟨n / 0x1000, 2, least, greatest⟩ ∧
      least ≤ 0x80 + n / 0x40 % 0x40 ∧ 0x80 + n / 0x40 % 0x40 ≤ greatest := by
  rw [begin?, if_neg (by omega), if_neg (by omega)]
  split
  · next h =>
    have hd : n / 0x1000 = 0 := by omega
    exact ⟨_, _, by rw [hd], by omega, by omega⟩
  · split
    · next h =>
      have hd : n / 0x1000 = 0xD := by omega
      exact ⟨_, _, by rw [hd], by omega, by omega⟩
    · refine ⟨0x80, 0xBF, ?_, by omega, by omega⟩
      rw [if_pos (by omega), Nat.add_sub_cancel_left]

/-- No character of four octets is short enough for three, and none is above the greatest. -/
theorem begin?_four (hl : 0x10000 ≤ n) (hg : n < 0x110000) :
    ∃ least greatest, begin? (0xF0 + n / 0x40000) = some ⟨n / 0x40000, 3, least, greatest⟩ ∧
      least ≤ 0x80 + n / 0x1000 % 0x40 ∧ 0x80 + n / 0x1000 % 0x40 ≤ greatest := by
  rw [begin?, if_neg (by omega), if_neg (by omega), if_neg (by omega), if_neg (by omega),
    if_neg (by omega)]
  split
  · next h =>
    have hd : n / 0x40000 = 0 := by omega
    exact ⟨_, _, by rw [hd], by omega, by omega⟩
  · split
    · exact ⟨0x80, 0xBF, by rw [Nat.add_sub_cancel_left], by omega, by omega⟩
    · next h =>
      have hd : n / 0x40000 = 4 := by omega
      refine ⟨0x80, 0x8F, ?_, by omega, by omega⟩
      rw [if_pos (by omega), hd]

theorem decodeFrom_encodeChar (c : Char) : decodeFrom valid 0 none (encodeChar c ++ bs) =
    (decodeFrom (valid + (encodeChar c).length) 0 none bs).map (c :: ·) := by
  have hc : Char.ofNat c.toNat = c := Char.ofNat_toNat c
  have hv : c.toNat < 0xD800 ∨ 0xDFFF < c.toNat ∧ c.toNat < 0x110000 := c.valid
  unfold encodeChar
  generalize c.toNat = n at hc hv
  dsimp only
  split
  · next h =>
    rw [List.singleton_append, decodeFrom_single h, hc]
    rfl
  · split
    · next hl hg =>
      have hb := begin?_two (Nat.not_lt.mp hl) hg
      have hn : n / 0x40 * 0x40 + n % 0x40 = n := by omega
      rw [List.cons_append, List.singleton_append, decodeFrom_begin (by omega) (by omega) hb,
        decodeFrom_last (by omega) (by omega) (by omega), hn, hc]
      rfl
    · split
      · next _ hl hg =>
        obtain ⟨least, greatest, hb, hs⟩ := begin?_three (Nat.not_lt.mp hl) hg (by omega)
        have hn : (n / 0x1000 * 0x40 + n / 0x40 % 0x40) * 0x40 + n % 0x40 = n := by omega
        rw [List.cons_append, List.cons_append, List.singleton_append,
          decodeFrom_begin (by omega) (by omega) hb, decodeFrom_inner hs.1 hs.2 (by omega),
          decodeFrom_last (by omega) (by omega) (by omega), hn, hc]
        rfl
      · next _ _ hl =>
        obtain ⟨least, greatest, hb, hs⟩ := begin?_four (Nat.not_lt.mp hl) (by omega)
        have hn : ((n / 0x40000 * 0x40 + n / 0x1000 % 0x40) * 0x40 + n / 0x40 % 0x40) * 0x40 +
            n % 0x40 = n := by omega
        rw [List.cons_append, List.cons_append, List.cons_append, List.singleton_append,
          decodeFrom_begin (by omega) (by omega) hb, decodeFrom_inner hs.1 hs.2 (by omega),
          decodeFrom_inner (by omega) (by omega) (by omega),
          decodeFrom_last (by omega) (by omega) (by omega), hn, hc]
        rfl

/-! ### Whole texts -/

theorem decodeFrom_encode (cs : List Char) : decodeFrom valid 0 none (encode cs) = .ok cs := by
  induction cs generalizing valid with
  | nil => rfl
  | cons c cs ih =>
    change decodeFrom valid 0 none (encodeChar c ++ encode cs) = _
    rw [decodeFrom_encodeChar, ih]
    rfl

theorem decode_encode (cs : List Char) : decode (encode cs) = .ok cs := decodeFrom_encode cs

/-! ### Order -/

theorem encodeChar_ne_nil (c : Char) : encodeChar c ≠ [] := by
  unfold encodeChar
  dsimp only
  split_ifs <;> exact List.cons_ne_nil _ _

theorem ofNat_cons_lt_iff {m : Nat} (hm : m < 0x100) (hn : n < 0x100) {s t : List UInt8} :
    UInt8.ofNat m :: s < UInt8.ofNat n :: t ↔ m < n ∨ m = n ∧ s < t := by
  have hu : (UInt8.ofNat m).toNat = m := UInt8.toNat_ofNat_of_lt' hm
  have hv : (UInt8.ofNat n).toNat = n := UInt8.toNat_ofNat_of_lt' hn
  rw [List.cons_lt_cons_iff, UInt8.lt_iff_toNat_lt, ← UInt8.toNat_inj, hu, hv]

/-- The octets of the lower one of two characters are lower, whatever comes after them. -/
theorem encodeChar_append_lt {c d : Char} (h : c < d) (s t : List UInt8) :
    encodeChar c ++ s < encodeChar d ++ t := by
  have hl : c.toNat < d.toNat := h
  have hd : d.toNat < 0x110000 := by
    have hv : d.toNat < 0xD800 ∨ 0xDFFF < d.toNat ∧ d.toNat < 0x110000 := d.valid
    omega
  unfold encodeChar
  generalize c.toNat = m at hl
  generalize d.toNat = n at hl hd
  dsimp only
  split_ifs <;> try omega
  -- More octets begin with a greater one, as many of them are compared digit by digit.
  all_goals
    simp (disch := omega) only [List.cons_append, List.nil_append, ofNat_cons_lt_iff]
    omega

theorem encode_lt_encode {cs ds : List Char} (h : cs < ds) : encode cs < encode ds := by
  induction cs generalizing ds with
  | nil =>
    cases ds with
    | nil => exact absurd h (List.lt_irrefl [])
    | cons d ds =>
      obtain ⟨b, bs, hb⟩ := List.exists_cons_of_ne_nil (encodeChar_ne_nil d)
      change [] < encodeChar d ++ encode ds
      rw [hb]
      exact List.nil_lt_cons _ _
  | cons c cs ih =>
    cases ds with
    | nil => exact absurd h (List.not_lt_nil _)
    | cons d ds =>
      rcases List.cons_lt_cons_iff.mp h with hc | ⟨rfl, hs⟩
      · exact encodeChar_append_lt hc _ _
      · exact List.append_left_lt (ih hs)

theorem lt_iff_encode_lt {s t : String} : s < t ↔ encode s.toList < encode t.toList := by
  constructor
  · exact encode_lt_encode
  · intro h
    refine String.not_le.mp fun hts => ?_
    by_cases hg : t < s
    · exact List.lt_asymm h (encode_lt_encode hg)
    · obtain rfl := String.le_antisymm hts (String.not_lt.mp hg)
      exact List.lt_irrefl _ h

end ListfileSettings.Text.Utf8
