import ListfileSettings.Proofs.Json.Values

/-!
# What a reader leaves

A reader takes characters off the front of a text: what it leaves is a suffix of what it was given.
-/
namespace ListfileSettings.Json

variable {s s' : List Char} {v : Json} {n d : Nat} {isFirst : Bool}

theorem suffix_cons {c : Char} (h : s' <:+ s) : s' <:+ c :: s := h.trans (List.suffix_cons c s)

theorem skipSpace_suffix (s : List Char) : skipSpace s <:+ s := List.dropWhile_suffix isSpace

theorem suffix_of_skipSpace_eq {c : Char} {t : List Char} (h : skipSpace s = c :: t) : t <:+ s :=
  (List.suffix_cons c t).trans (h ▸ skipSpace_suffix s)

theorem word_suffix {cs : List Char} (h : word cs s = .ok s') : s' <:+ s := by
  induction cs generalizing s with
  | nil =>
    obtain rfl := Except.ok.inj h
    exact List.suffix_rfl
  | cons c cs ih =>
    cases s with
    | nil => cases h
    | cons d s =>
      unfold word at h
      split at h
      · exact suffix_cons (ih h)
      · cases h

/-! ### Strings -/

theorem hexQuad_suffix {m : Nat} (h : hexQuad s = .ok (m, s')) : s' <:+ s := by
  unfold hexQuad at h
  split at h
  · cases h
  · split at h
    · split at h
      · obtain ⟨-, rfl⟩ := Prod.mk.inj (Except.ok.inj h)
        exact suffix_cons (suffix_cons (suffix_cons (List.suffix_cons ..)))
      · cases h
    · cases h

theorem lowSurrogate_suffix {high : Nat} {c : Char} (h : lowSurrogate high s = .ok (c, s')) :
    s' <:+ s := by
  unfold lowSurrogate at h
  split at h
  · cases h
  · cases h
  · obtain ⟨⟨low, t⟩, hq, h⟩ := bind_eq_ok.mp h
    have ht := hexQuad_suffix hq
    dsimp only at h
    split at h
    · cases h
    · obtain ⟨-, rfl⟩ := Prod.mk.inj (Except.ok.inj h)
      exact suffix_cons (suffix_cons ht)
  · cases h
  · cases h

theorem escape_suffix {c : Char} (h : escape s = .ok (c, s')) : s' <:+ s := by
  unfold escape at h
  split at h
  case h_1 => cases h
  case h_11 => cases h
  case h_10 =>
    obtain ⟨⟨m, t⟩, hq, h⟩ := bind_eq_ok.mp h
    have ht := hexQuad_suffix hq
    dsimp only at h
    split at h
    · cases h
    · split at h
      · exact suffix_cons ((lowSurrogate_suffix h).trans ht)
      · cases h
        exact suffix_cons ht
  all_goals
    cases h
    exact List.suffix_cons ..

theorem stringRest_suffix {cs : List Char} (h : stringRest n s = .ok (cs, s')) : s' <:+ s := by
  induction n generalizing s cs with
  | zero => cases s <;> cases h
  | succ n ih =>
    cases s with
    | nil => cases h
    | cons c s =>
      unfold stringRest at h
      split at h
      · cases h
        exact List.suffix_cons ..
      · split at h
        · obtain ⟨⟨e, t⟩, he, h⟩ := bind_eq_ok.mp h
          obtain ⟨⟨es, u⟩, hs, h⟩ := bind_eq_ok.mp h
          cases h
          exact suffix_cons ((ih hs).trans (escape_suffix he))
        · split at h
          · cases h
          · obtain ⟨⟨es, u⟩, hs, h⟩ := bind_eq_ok.mp h
            cases h
            exact suffix_cons (ih hs)

theorem stringAfterQuote_suffix {t : String} (h : stringAfterQuote s = .ok (t, s')) :
    s' <:+ s := by
  obtain ⟨⟨cs, u⟩, hs, h⟩ := bind_eq_ok.mp h
  cases h
  exact stringRest_suffix hs

/-! ### Numbers -/

theorem finishFloat_suffix {isNegative : Bool} {m : Nat} {e : Int}
    (h : finishFloat isNegative m e s = .ok (v, s')) : s' <:+ s := by
  unfold finishFloat at h
  split at h
  · cases h
    exact List.suffix_rfl
  · cases h

theorem exponentDigits_suffix {m k : Nat} (h : exponentDigits m s = .ok (k, s')) : s' <:+ s := by
  induction s generalizing m with
  | nil =>
    cases h
    exact List.suffix_rfl
  | cons c s ih =>
    unfold exponentDigits at h
    split at h
    · dsimp only at h
      split at h
      · exact suffix_cons (ih h)
      · cases h
    · cases h
      exact List.suffix_rfl

theorem exponentDigits_error_suffix {m : Nat} (h : exponentDigits m s = .error s') : s' <:+ s := by
  induction s generalizing m with
  | nil => cases h
  | cons c s ih =>
    unfold exponentDigits at h
    split at h
    · dsimp only at h
      split at h
      · exact suffix_cons (ih h)
      · cases h
        exact List.suffix_cons ..
    · cases h

theorem exponentAfterSign_suffix {isNegative isMinus : Bool} {m : Nat} {e : Int}
    (h : exponentAfterSign isNegative m e isMinus s = .ok (v, s')) : s' <:+ s := by
  unfold exponentAfterSign at h
  split at h
  · cases h
  · split at h
    · cases h
    · split at h
      · next hd => exact (finishFloat_suffix h).trans (exponentDigits_suffix hd)
      · next hd =>
        split at h
        · cases h
        · cases h
          exact (List.dropWhile_suffix _).trans (exponentDigits_error_suffix hd)

theorem exponentPart_suffix {isNegative : Bool} {m : Nat} {e : Int}
    (h : exponentPart isNegative m e s = .ok (v, s')) : s' <:+ s := by
  unfold exponentPart at h
  split at h
  · exact suffix_cons (exponentAfterSign_suffix h)
  · exact suffix_cons (exponentAfterSign_suffix h)
  · exact exponentAfterSign_suffix h

theorem fractionPart_suffix {isNegative : Bool} {ds : Digits}
    (h : fractionPart isNegative ds s = .ok (v, s')) : s' <:+ s := by
  unfold fractionPart at h
  simp only at h
  have hd : s.dropWhile Char.isDigit <:+ s := List.dropWhile_suffix _
  split at h
  · cases h
  · unfold floatEnd at h
    split at h
    · next he => exact (suffix_cons (exponentPart_suffix h)).trans (he ▸ hd)
    · next he => exact (suffix_cons (exponentPart_suffix h)).trans (he ▸ hd)
    · exact (finishFloat_suffix h).trans hd

theorem wholeNumber_suffix {isNegative : Bool} {ds : Digits}
    (h : wholeNumber isNegative ds s = .ok (v, s')) : s' <:+ s := by
  unfold wholeNumber at h
  split at h
  · exact finishFloat_suffix h
  · split at h
    · cases h
      exact List.suffix_rfl
    · split at h
      · cases h
        exact List.suffix_rfl
      · cases h
        exact List.suffix_rfl

theorem number_suffix {isNegative : Bool} (h : number isNegative s = .ok (v, s')) : s' <:+ s := by
  unfold number at h
  simp only at h
  have hd : s.dropWhile Char.isDigit <:+ s := List.dropWhile_suffix _
  split at h
  · split at h <;> cases h
  · cases h
  · split at h
    · next he => exact (suffix_cons (fractionPart_suffix h)).trans (he ▸ hd)
    · next he => exact (suffix_cons (exponentPart_suffix h)).trans (he ▸ hd)
    · next he => exact (suffix_cons (exponentPart_suffix h)).trans (he ▸ hd)
    · exact (wholeNumber_suffix h).trans hd

/-! ### Values -/

theorem scalar_suffix (h : scalar s = .ok (v, s')) : s' <:+ s := by
  cases s with
  | nil => cases h
  | cons c s =>
    simp only [scalar] at h
    split at h
    · obtain ⟨t, hw, he⟩ := map_eq_ok.mp h
      cases he
      exact suffix_cons (word_suffix hw)
    · split at h
      · obtain ⟨t, hw, he⟩ := map_eq_ok.mp h
        cases he
        exact suffix_cons (word_suffix hw)
      · split at h
        · obtain ⟨t, hw, he⟩ := map_eq_ok.mp h
          cases he
          exact suffix_cons (word_suffix hw)
        · split at h
          · obtain ⟨⟨t, u⟩, hs, he⟩ := map_eq_ok.mp h
            cases he
            exact suffix_cons (stringAfterQuote_suffix hs)
          · split at h
            · exact suffix_cons (number_suffix h)
            · split at h
              · exact number_suffix h
              · cases h

/-- The text that the next element or member starts with, or what follows the bracket. -/
def Next.rest : Next → List Char
  | .item s => s
  | .done s => s

variable {next : Next}

/-- Going to the next element takes at least a comma off, unless it is the first one. -/
theorem nextItem_suffix (h : nextItem isFirst s = .ok next) : next.rest <:+ s := by
  unfold nextItem at h
  split at h
  · cases h
  · next c t hs =>
    split at h
    · cases h
      exact suffix_of_skipSpace_eq hs
    · split at h
      · cases h
        exact hs ▸ skipSpace_suffix s
      · split at h
        · split at h
          · cases h
          · next ht =>
            split at h
            · cases h
            · cases h
              exact (ht ▸ skipSpace_suffix t).trans (suffix_of_skipSpace_eq hs)
        · cases h

theorem length_of_skipSpace_eq {c : Char} {t : List Char} (h : skipSpace s = c :: t) :
    t.length < s.length := by
  have hl := (skipSpace_suffix s).length_le
  rw [h, List.length_cons] at hl
  omega

/-- Each round of a list takes a character, apart from going to its first element. -/
theorem length_of_nextItem (h : nextItem isFirst s = .ok next) :
    next.rest.length < s.length + if isFirst then 1 else 0 := by
  unfold nextItem at h
  split at h
  · cases h
  · next c t hs =>
    have hl := length_of_skipSpace_eq hs
    split at h
    · cases h
      exact Nat.lt_of_lt_of_le hl (Nat.le_add_right ..)
    · split at h
      · next hf =>
        cases h
        rw [if_pos hf]
        exact Nat.lt_succ_of_le hl
      · split at h
        · split at h
          · cases h
          · next ht =>
            have hr := length_of_skipSpace_eq ht
            split at h
            · cases h
            · cases h
              have hc := Nat.lt_of_le_of_lt hr hl
              exact Nat.lt_of_lt_of_le hc (Nat.le_add_right ..)
        · cases h

theorem nameStart_suffix (h : nameStart s = .ok next) : next.rest <:+ s := by
  unfold nameStart at h
  split at h
  · cases h
    exact List.suffix_cons ..
  · cases h

theorem nextMember_suffix (h : nextMember isFirst s = .ok next) : next.rest <:+ s := by
  unfold nextMember at h
  split at h
  · cases h
  · next c t hs =>
    split at h
    · cases h
      exact suffix_of_skipSpace_eq hs
    · split at h
      · exact (nameStart_suffix h).trans (hs ▸ skipSpace_suffix s)
      · split at h
        · split at h
          · cases h
          · next ht =>
            split at h
            · cases h
            · exact (nameStart_suffix h).trans
                ((ht ▸ skipSpace_suffix t).trans (suffix_of_skipSpace_eq hs))
        · cases h

theorem colon_suffix (h : colon s = .ok s') : s' <:+ s := by
  unfold colon at h
  split at h
  · cases h
  · next hc =>
    cases h
    exact suffix_of_skipSpace_eq hc
  · cases h

theorem items_suffix {item : Reader Json} {vs : List Json}
    (hi : ∀ {s s' v}, item s = .ok (v, s') → s' <:+ s)
    (h : items item n isFirst s = .ok (vs, s')) : s' <:+ s := by
  induction n generalizing isFirst s vs with
  | zero => cases h
  | succ n ih =>
    rcases items_eq_ok_iff.mp h with ⟨hn, -⟩ | ⟨s₁, v, s₂, vs', hn, hv, hvs, -⟩
    · exact nextItem_suffix hn
    · exact (ih hvs).trans ((hi hv).trans (nextItem_suffix hn))

theorem members_suffix {raw : Reader Json} {ms : List (String × Json)}
    (hr : ∀ {s s' v}, raw s = .ok (v, s') → s' <:+ s)
    (h : foldMembers (pushMember raw) n isFirst [] s = .ok (ms, s')) : s' <:+ s := by
  induction n generalizing isFirst s ms with
  | zero => cases h
  | succ n ih =>
    rcases members_eq_ok_iff.mp h with
      ⟨hn, -⟩ | ⟨s₁, name, s₂, s₃, v, s₄, ms', hn, hs, hc, hv, hm, -⟩
    · exact nextMember_suffix hn
    · exact (ih hm).trans ((hr hv).trans ((colon_suffix hc).trans
        ((stringAfterQuote_suffix hs).trans (nextMember_suffix hn))))

theorem value_suffix (h : value d s = .ok (v, s')) : s' <:+ s := by
  induction d generalizing s s' v with
  | zero =>
    unfold value at h
    split at h
    · cases h
    · cases h
    · exact (scalar_suffix h).trans (skipSpace_suffix s)
  | succ d ih =>
    unfold value at h
    split at h
    · next hl =>
      obtain ⟨⟨vs, t⟩, hi, he⟩ := map_eq_ok.mp h
      cases he
      exact (items_suffix ih hi).trans (suffix_of_skipSpace_eq hl)
    · next ho =>
      obtain ⟨⟨ms, t⟩, hm, he⟩ := map_eq_ok.mp h
      cases he
      exact (members_suffix ih hm).trans (suffix_of_skipSpace_eq ho)
    · exact (scalar_suffix h).trans (skipSpace_suffix s)

end ListfileSettings.Json
