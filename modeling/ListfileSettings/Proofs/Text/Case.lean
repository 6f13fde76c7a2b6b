import ListfileSettings.Text.Case

/-!
# Words in any case

The characters beyond ASCII whose lower case is in ASCII are few: one becomes the letter k, another
the letter i and a mark. So a word without a k that is in ASCII is the lower case of a text exactly if
the text is the word but for the case of its ASCII letters.
-/
namespace ListfileSettings.Text

variable {c d : Char} {cs before : List Char} {n : Nat}

/-- The character comes about as a lower case from ASCII only. -/
def IsPlain (c : Char) : Prop := c.toNat < 128 ∧ c ≠ 'k'

instance : DecidablePred IsPlain := fun c => inferInstanceAs (Decidable (c.toNat < 128 ∧ c ≠ 'k'))

theorem not_isPlain_of_le (h : 128 ≤ c.toNat) : ¬ IsPlain c := fun hp => Nat.not_lt.mpr h hp.1

/-- The runs beyond ASCII stay beyond it, but for the sign of a unit that becomes the letter k. -/
theorem lowerRuns_beyond : ∀ r ∈ lowerRuns, (r.first = 8490 ∧ r.last = 8490 ∧ r.offset = -8383) ∨
    128 ≤ (r.first : Int) + r.offset ∧ ((r.last : Int) + r.offset < 0xD800 ∨
      0xDFFF < (r.first : Int) + r.offset ∧ (r.last : Int) + r.offset < 0x110000) := by
  decide +kernel

theorem not_isPlain_of_run {r : CaseRun} (hr : r ∈ lowerRuns) (hc : r.holds n = true) :
    ¬ IsPlain (Char.ofNat ((n : Int) + r.offset).toNat) := by
  simp only [CaseRun.holds, Bool.and_eq_true, decide_eq_true_eq] at hc
  obtain ⟨⟨hf, hl⟩, -⟩ := hc
  rcases lowerRuns_beyond r hr with ⟨h₁, h₂, h₃⟩ | ⟨h₁, h₂⟩
  · have hn : ((n : Int) + r.offset).toNat = 107 := by omega
    rw [hn]
    decide
  · have hv : Nat.isValidChar ((n : Int) + r.offset).toNat := by
      simp only [Nat.isValidChar]
      omega
    refine not_isPlain_of_le ?_
    rw [Char.ofNat, dif_pos hv]
    change 128 ≤ ((n : Int) + r.offset).toNat
    omega

theorem exists_not_isPlain (h : 128 ≤ c.toNat) : ∃ d ∈ lowerChar c, ¬ IsPlain d := by
  rw [lowerChar, if_neg (Nat.not_lt.mpr h), mapCase]
  split
  · next codes hl =>
    rw [lowerTexts, List.lookup_cons] at hl
    split at hl
    · obtain rfl := Option.some.inj hl
      exact ⟨Char.ofNat 775, by simp, by decide⟩
    · cases hl
  · split
    · next r hr =>
      exact ⟨_, List.mem_singleton_self _,
        not_isPlain_of_run (List.mem_of_find?_eq_some hr) (by simpa using List.find?_some hr)⟩
    · exact ⟨c, List.mem_singleton_self _, not_isPlain_of_le h⟩

theorem toLower_of_le (h : 128 ≤ c.toNat) : c.toLower = c := by
  refine dif_neg fun hu => ?_
  have hz : c.toNat ≤ 90 := UInt32.le_iff_toNat_le.mp hu.2
  omega

/-- A word of plain characters is the lower case of what is the word but for the case of letters in
ASCII. -/
theorem lowerAfter_eq_iff {w : List Char} (hw : ∀ d ∈ w, IsPlain d) :
    lowerAfter before cs = w ↔ cs.map Char.toLower = w := by
  induction cs generalizing before w with
  | nil => rfl
  | cons c cs ih =>
    rw [lowerAfter, List.map_cons]
    by_cases hc : c.toNat < 128
    · have hs : c ≠ 'Σ' := by
        rintro rfl
        exact absurd hc (by decide)
      rw [if_neg hs, lowerChar_of_lt hc, List.singleton_append]
      cases w with
      | nil => exact iff_of_false (List.cons_ne_nil _ _) (List.cons_ne_nil _ _)
      | cons d w =>
        rw [List.cons.injEq, List.cons.injEq, ih fun e he => hw e (List.mem_cons_of_mem _ he)]
    · have hl := Nat.le_of_not_lt hc
      refine iff_of_false (fun he => ?_) fun he => ?_
      · -- What the character becomes is a part of the word.
        subst he
        split at hw
        · split at hw
          · exact absurd (hw 'ς' (List.mem_append_left _ (List.mem_singleton_self _))) (by decide)
          · exact absurd (hw 'σ' (List.mem_append_left _ (List.mem_singleton_self _))) (by decide)
        · obtain ⟨d, hd, hn⟩ := exists_not_isPlain hl
          exact hn (hw d (List.mem_append_left _ hd))
      · subst he
        rw [toLower_of_le hl] at hw
        exact not_isPlain_of_le hl (hw c List.mem_cons_self)

end ListfileSettings.Text
