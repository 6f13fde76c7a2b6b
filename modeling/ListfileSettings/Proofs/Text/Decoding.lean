import ListfileSettings.Proofs.Except
import ListfileSettings.Proofs.Text.Utf8

/-!
# Octets that encode a text

The octets that are read as a text are those of the text alone. Where reading goes wrong, the octets
before the flaw are the longest start that encodes a text.
-/
namespace ListfileSettings.Text.Utf8

variable {valid read : Nat} {bs octets : List UInt8} {begun : Begun} {flaw : Flaw} {cs : List Char}

/-! ### Characters from their octets -/

theorem ofNat_eq {b : UInt8} {n : Nat} (h : n = b.toNat) : UInt8.ofNat n = b := by
  rw [h, UInt8.ofNat_toNat]

theorem toNat_ofNat {n : Nat} (h : n < 0xD800 ∨ 0xDFFF < n ∧ n < 0x110000) :
    (Char.ofNat n).toNat = n := by
  rw [Char.ofNat, dif_pos h]
  rfl

theorem encodeChar_one {b : UInt8} (h : b.toNat < 0x80) : encodeChar (Char.ofNat b.toNat) = [b] := by
  rw [encodeChar, toNat_ofNat (by omega)]
  simp only [if_pos h, UInt8.ofNat_toNat]

theorem encodeChar_two {b₀ b₁ : UInt8} (h₀ : 0xC2 ≤ b₀.toNat ∧ b₀.toNat < 0xE0)
    (h₁ : 0x80 ≤ b₁.toNat ∧ b₁.toNat ≤ 0xBF) :
    encodeChar (Char.ofNat ((b₀.toNat - 0xC0) * 0x40 + (b₁.toNat - 0x80))) = [b₀, b₁] := by
  generalize hn : (b₀.toNat - 0xC0) * 0x40 + (b₁.toNat - 0x80) = n
  rw [encodeChar, toNat_ofNat (by omega), if_neg (by omega), if_pos (by omega),
    ofNat_eq (b := b₀) (by omega), ofNat_eq (b := b₁) (by omega)]

theorem encodeChar_three {b₀ b₁ b₂ : UInt8} {n : Nat} (h₀ : 0xE0 ≤ b₀.toNat)
    (h₁ : 0x80 ≤ b₁.toNat ∧ b₁.toNat ≤ 0xBF) (h₂ : 0x80 ≤ b₂.toNat ∧ b₂.toNat ≤ 0xBF)
    (hn : n = ((b₀.toNat - 0xE0) * 0x40 + (b₁.toNat - 0x80)) * 0x40 + (b₂.toNat - 0x80))
    (hl : 0x800 ≤ n) (hg : n < 0x10000) (hs : n < 0xD800 ∨ 0xDFFF < n) :
    encodeChar (Char.ofNat n) = [b₀, b₁, b₂] := by
  rw [encodeChar, toNat_ofNat (by omega), if_neg (by omega), if_neg (by omega), if_pos (by omega),
    ofNat_eq (b := b₀) (by omega), ofNat_eq (b := b₁) (by omega), ofNat_eq (b := b₂) (by omega)]

theorem encodeChar_four {b₀ b₁ b₂ b₃ : UInt8} {n : Nat} (h₀ : 0xF0 ≤ b₀.toNat)
    (h₁ : 0x80 ≤ b₁.toNat ∧ b₁.toNat ≤ 0xBF) (h₂ : 0x80 ≤ b₂.toNat ∧ b₂.toNat ≤ 0xBF)
    (h₃ : 0x80 ≤ b₃.toNat ∧ b₃.toNat ≤ 0xBF)
    (hn : n = (((b₀.toNat - 0xF0) * 0x40 + (b₁.toNat - 0x80)) * 0x40 + (b₂.toNat - 0x80)) * 0x40 +
      (b₃.toNat - 0x80)) (hl : 0x10000 ≤ n) (hg : n < 0x110000) :
    encodeChar (Char.ofNat n) = [b₀, b₁, b₂, b₃] := by
  rw [encodeChar, toNat_ofNat (by omega), if_neg (by omega), if_neg (by omega), if_neg (by omega),
    ofNat_eq (b := b₀) (by omega), ofNat_eq (b := b₁) (by omega), ofNat_eq (b := b₂) (by omega),
    ofNat_eq (b := b₃) (by omega)]

/-! ### Characters that have begun -/

/-- However the character is completed within its bounds, its octets are those of the character that
is then read. -/
inductive Begun.Sound : List UInt8 → Begun → Prop
  | last {octets : List UInt8} {bits least greatest : Nat}
      (h : ∀ b : UInt8, least ≤ b.toNat → b.toNat ≤ greatest →
        encodeChar (Char.ofNat (bits * 0x40 + (b.toNat - 0x80))) = octets ++ [b]) :
      Sound octets ⟨bits, 1, least, greatest⟩
  | inner {octets : List UInt8} {bits n least greatest : Nat}
      (h : ∀ b : UInt8, least ≤ b.toNat → b.toNat ≤ greatest →
        Sound (octets ++ [b]) ⟨bits * 0x40 + (b.toNat - 0x80), n + 1, 0x80, 0xBF⟩) :
      Sound octets ⟨bits, n + 2, least, greatest⟩

/-- Two more octets make a character, if the bounds of the first leave out what is too short for
three and the surrogates. -/
theorem sound_three {b₀ : UInt8} {bits least greatest : Nat} (hb : bits = b₀.toNat - 0xE0)
    (h₀ : 0xE0 ≤ b₀.toNat ∧ b₀.toNat < 0xF0) (hl : 0x80 ≤ least) (hg : greatest ≤ 0xBF)
    (ho : b₀.toNat = 0xE0 → 0xA0 ≤ least) (hs : b₀.toNat = 0xED → greatest ≤ 0x9F) :
    Begun.Sound [b₀] ⟨bits, 2, least, greatest⟩ := by
  refine .inner (n := 0) ?_
  intro b₁ hl₁ hg₁
  refine .last ?_
  intro b₂ hl₂ hg₂
  rw [hb]
  exact encodeChar_three h₀.1 ⟨by omega, by omega⟩ ⟨hl₂, hg₂⟩ rfl (by omega) (by omega) (by omega)

theorem sound_four {b₀ : UInt8} {bits least greatest : Nat} (hb : bits = b₀.toNat - 0xF0)
    (h₀ : 0xF0 ≤ b₀.toNat ∧ b₀.toNat ≤ 0xF4) (hl : 0x80 ≤ least) (hg : greatest ≤ 0xBF)
    (ho : b₀.toNat = 0xF0 → 0x90 ≤ least) (hs : b₀.toNat = 0xF4 → greatest ≤ 0x8F) :
    Begun.Sound [b₀] ⟨bits, 3, least, greatest⟩ := by
  refine .inner (n := 1) ?_
  intro b₁ hl₁ hg₁
  refine .inner (n := 0) ?_
  intro b₂ hl₂ hg₂
  refine .last ?_
  intro b₃ hl₃ hg₃
  rw [hb]
  exact encodeChar_four h₀.1 ⟨by omega, by omega⟩ ⟨hl₂, hg₂⟩ ⟨hl₃, hg₃⟩ rfl (by omega) (by omega)

theorem begin?_cases {n bits owed least greatest : Nat}
    (h : begin? n = some ⟨bits, owed, least, greatest⟩) :
    (0x80 ≤ least ∧ greatest ≤ 0xBF) ∧
      ((owed = 1 ∧ bits = n - 0xC0 ∧ 0xC2 ≤ n ∧ n < 0xE0) ∨
      (owed = 2 ∧ bits = n - 0xE0 ∧ (0xE0 ≤ n ∧ n < 0xF0) ∧ (n = 0xE0 → 0xA0 ≤ least) ∧
        (n = 0xED → greatest ≤ 0x9F)) ∨
      (owed = 3 ∧ bits = n - 0xF0 ∧ (0xF0 ≤ n ∧ n ≤ 0xF4) ∧ (n = 0xF0 → 0x90 ≤ least) ∧
        (n = 0xF4 → greatest ≤ 0x8F))) := by
  unfold begin? at h
  split_ifs at h <;> simp only [Option.some.injEq, Begun.mk.injEq] at h <;> omega

theorem sound_of_begin? {b : UInt8} (h : begin? b.toNat = some begun) : Begun.Sound [b] begun := by
  obtain ⟨bits, owed, least, greatest⟩ := begun
  obtain ⟨⟨hl, hg⟩, h | h | h⟩ := begin?_cases h
  · obtain ⟨rfl, hb, hn⟩ := h
    refine .last fun b₁ hl₁ hg₁ => ?_
    rw [hb]
    exact encodeChar_two hn ⟨by omega, by omega⟩
  · obtain ⟨rfl, hb, hn, ho, hs⟩ := h
    exact sound_three hb hn hl hg ho hs
  · obtain ⟨rfl, hb, hn, ho, hs⟩ := h
    exact sound_four hb hn hl hg ho hs

/-- A character that has begun is completed, or reading stops before it. -/
theorem exists_char_of_sound (h : Begun.Sound octets begun) (bs : List UInt8) (valid read : Nat) :
    (∃ c t, octets ++ bs = encodeChar c ++ t) ∨
      ∃ length, decodeFrom valid read (some begun) bs = .error ⟨valid, length⟩ := by
  induction bs generalizing octets begun read with
  | nil => exact .inr ⟨none, rfl⟩
  | cons b bs ih =>
    obtain ⟨bits, owed, least, greatest⟩ := begun
    by_cases hb : (decide (b.toNat < least) || decide (greatest < b.toNat)) = true
    · exact .inr ⟨some read, by rw [decodeFrom, if_pos hb]⟩
    · have hr := hb
      rw [Bool.or_eq_true, decide_eq_true_iff, decide_eq_true_iff] at hr
      cases h with
      | last h =>
        refine .inl ⟨Char.ofNat (bits * 0x40 + (b.toNat - 0x80)), bs, ?_⟩
        rw [h b (by omega) (by omega), List.append_assoc, List.singleton_append]
      | inner h =>
        have hi := ih (h b (by omega) (by omega)) (read + 1)
        rw [List.append_assoc, List.singleton_append] at hi
        rw [decodeFrom, if_neg hb]
        simpa using hi

theorem exists_char (h : bs ≠ []) (valid : Nat) : (∃ c t, bs = encodeChar c ++ t) ∨
    ∃ length, decodeFrom valid 0 none bs = .error ⟨valid, length⟩ := by
  obtain ⟨b, bs, rfl⟩ := List.exists_cons_of_ne_nil h
  by_cases hb : b.toNat < 0x80
  · exact .inl ⟨Char.ofNat b.toNat, bs, by rw [encodeChar_one hb, List.singleton_append]⟩
  · rw [decodeFrom, if_neg hb]
    cases hs : begin? b.toNat with
    | none => exact .inr ⟨some 1, rfl⟩
    | some begun => exact exists_char_of_sound (sound_of_begin? hs) bs valid 1

/-! ### Whole texts -/

theorem encode_cons (c : Char) (cs : List Char) : encode (c :: cs) = encodeChar c ++ encode cs := rfl

theorem decodeFrom_cases (bs : List UInt8) (valid : Nat) :
    (∃ cs, bs = encode cs) ∨ ∃ cs t length, bs = encode cs ++ t ∧
      decodeFrom valid 0 none bs = .error ⟨valid + (encode cs).length, length⟩ := by
  induction hn : bs.length using Nat.strongRecOn generalizing bs valid with
  | ind n ih =>
    subst hn
    by_cases hb : bs = []
    · exact .inl ⟨[], hb⟩
    rcases exists_char hb valid with ⟨c, t, rfl⟩ | ⟨length, hl⟩
    · have hc := List.length_pos_iff.mpr (encodeChar_ne_nil c)
      have ht : t.length < (encodeChar c ++ t).length := by
        rw [List.length_append]
        omega
      rcases ih _ ht t (valid + (encodeChar c).length) rfl with ⟨cs, rfl⟩ | ⟨cs, u, length, rfl, hl⟩
      · exact .inl ⟨c :: cs, rfl⟩
      · refine .inr ⟨c :: cs, u, length, by rw [encode_cons, List.append_assoc], ?_⟩
        rw [decodeFrom_encodeChar, hl, encode_cons, List.length_append, Nat.add_assoc]
        rfl
    · exact .inr ⟨[], bs, length, rfl, hl⟩

theorem decode_eq_ok_iff : decode bs = .ok cs ↔ bs = encode cs := by
  constructor
  · intro h
    rcases decodeFrom_cases bs 0 with ⟨ds, rfl⟩ | ⟨ds, t, length, -, hf⟩
    · rw [decode_encode] at h
      rw [Except.ok.inj h]
    · cases h.symm.trans hf
  · intro h
    rw [h, decode_encode]

/-! ### The flaw -/

theorem valid_le_of_decodeFrom {state : Option Begun}
    (h : decodeFrom valid read state bs = .error flaw) : valid ≤ flaw.valid := by
  induction bs generalizing valid read state with
  | nil =>
    cases state with
    | none => cases h
    | some begun =>
      cases h
      exact Nat.le_refl _
  | cons b bs ih =>
    cases state with
    | none =>
      rw [decodeFrom] at h
      split at h
      · exact Nat.le_of_succ_le (ih (map_eq_error_iff.mp h))
      · split at h
        · exact ih h
        · cases h
          exact Nat.le_refl _
    | some begun =>
      obtain ⟨bits, owed, least, greatest⟩ := begun
      rw [decodeFrom] at h
      split at h
      · cases h
        exact Nat.le_refl _
      · split at h
        · have := ih (map_eq_error_iff.mp h)
          omega
        · exact ih h

theorem decodeFrom_encode_append (cs : List Char) (valid : Nat) (bs : List UInt8) :
    decodeFrom valid 0 none (encode cs ++ bs) =
      (decodeFrom (valid + (encode cs).length) 0 none bs).map (cs ++ ·) := by
  induction cs generalizing valid with
  | nil =>
    change decodeFrom valid 0 none bs = (decodeFrom valid 0 none bs).map id
    cases decodeFrom valid 0 none bs <;> rfl
  | cons c cs ih =>
    rw [encode_cons, List.append_assoc, decodeFrom_encodeChar, ih, List.length_append, Nat.add_assoc]
    cases decodeFrom (valid + ((encodeChar c).length + (encode cs).length)) 0 none bs <;> rfl

theorem length_le_of_prefix (h : decode bs = .error flaw) (hp : encode cs <+: bs) :
    (encode cs).length ≤ flaw.valid := by
  obtain ⟨t, rfl⟩ := hp
  rw [decode, decodeFrom_encode_append, map_eq_error_iff, Nat.zero_add] at h
  exact valid_le_of_decodeFrom h

theorem exists_prefix_of_error (h : decode bs = .error flaw) :
    ∃ cs, encode cs <+: bs ∧ (encode cs).length = flaw.valid := by
  rcases decodeFrom_cases bs 0 with ⟨cs, rfl⟩ | ⟨cs, t, length, rfl, hf⟩
  · rw [decode_encode] at h
    cases h
  · obtain rfl := Except.error.inj (h.symm.trans hf)
    exact ⟨cs, List.prefix_append _ _, (Nat.zero_add _).symm⟩

/-! ### The octets of strings -/

theorem encodeChar_eq (c : Char) : encodeChar c = String.utf8EncodeChar c := by
  have hc : c.val.toNat < 0x110000 := by
    rcases c.valid with h | h
    · exact Nat.lt_trans h (by decide)
    · exact h.2
  unfold encodeChar String.utf8EncodeChar
  rw [Char.toNat]
  generalize c.val.toNat = n at hc
  dsimp only
  by_cases h₁ : n < 0x80
  · rw [if_pos h₁, if_pos (by omega)]
  by_cases h₂ : n < 0x800
  · rw [if_neg h₁, if_pos h₂, if_neg (by omega), if_pos (by omega), Nat.add_comm 0xC0,
      Nat.add_comm 0x80, Nat.mod_eq_of_lt (a := n / 0x40) (b := 32) (by omega)]
  by_cases h₃ : n < 0x10000
  · rw [if_neg h₁, if_neg h₂, if_pos h₃, if_neg (by omega), if_neg (by omega), if_pos (by omega),
      Nat.add_comm 0xE0, Nat.add_comm 0x80, Nat.add_comm 0x80, Nat.mod_eq_of_lt (b := 16) (by omega)]
  · rw [if_neg h₁, if_neg h₂, if_neg h₃, if_neg (by omega), if_neg (by omega), if_neg (by omega),
      Nat.add_comm 0xF0, Nat.add_comm 0x80, Nat.add_comm 0x80, Nat.add_comm 0x80,
      Nat.mod_eq_of_lt (b := 8) (by omega)]

theorem toByteArray_encode (cs : List Char) : (encode cs).toByteArray = cs.utf8Encode := by
  rw [encode, List.utf8Encode, funext encodeChar_eq]

theorem toByteArray_inj {octets bs : List UInt8} :
    octets.toByteArray = bs.toByteArray ↔ octets = bs := by
  constructor
  · intro h
    have hd := congrArg ByteArray.data h
    rw [List.data_toByteArray, List.data_toByteArray] at hd
    exact List.toArray_inj hd
  · exact congrArg _

/-- The octets are well encoded exactly if they are those of a text. -/
theorem isValidUTF8_iff : bs.toByteArray.IsValidUTF8 ↔ ∃ cs, bs = encode cs := by
  constructor
  · intro h
    obtain ⟨cs, hc⟩ := h
    rw [← toByteArray_encode, toByteArray_inj] at hc
    exact ⟨cs, hc⟩
  · intro h
    obtain ⟨cs, rfl⟩ := h
    exact ⟨cs, toByteArray_encode cs⟩

/-- The longest start of the octets that is well encoded. -/
structure IsLongestValid (start bs : List UInt8) : Prop where
  isPrefix : start <+: bs
  valid : start.toByteArray.IsValidUTF8
  longest : ∀ octets, octets <+: bs → octets.toByteArray.IsValidUTF8 → octets.length ≤ start.length

theorem decode_of_toUTF8 {text : String} (h : text.toUTF8 = bs.toByteArray) :
    decode bs = .ok text.toList := by
  rw [decode_eq_ok_iff, ← toByteArray_inj, toByteArray_encode, ← h, ← String.toByteArray_ofList,
    String.ofList_toList]
  rfl

/-- Reading octets that are not well encoded stops after the longest start that is. -/
theorem decode_of_not_valid (h : ¬ bs.toByteArray.IsValidUTF8) :
    ∃ flaw, decode bs = .error flaw ∧ IsLongestValid (bs.take flaw.valid) bs ∧
      (bs.take flaw.valid).length = flaw.valid := by
  obtain ⟨flaw, hf⟩ := exists_error_of_ne_ok (x := decode bs) fun cs hc =>
    h (isValidUTF8_iff.mpr ⟨cs, decode_eq_ok_iff.mp hc⟩)
  obtain ⟨cs, hp, hl⟩ := exists_prefix_of_error hf
  have ht : bs.take flaw.valid = encode cs := by
    rw [← hl]
    exact (List.prefix_iff_eq_take.mp hp).symm
  refine ⟨flaw, hf, ⟨List.take_prefix _ _, ?_, fun octets ho hv => ?_⟩, by rw [ht, hl]⟩
  · rw [ht]
    exact isValidUTF8_iff.mpr ⟨cs, rfl⟩
  · obtain ⟨ds, rfl⟩ := isValidUTF8_iff.mp hv
    rw [ht, hl]
    exact length_le_of_prefix hf ho

end ListfileSettings.Text.Utf8
