import ListfileSettings.Settings.Update

/-!
# Lines in reasons

A reason ends in a line in brackets exactly if the line is known. No message about a value ends in a
bracket of its own, whatever texts and names it quotes, so a reason names one line at most.
-/
namespace ListfileSettings

open Decimal (naturalText integerText digits)

/-! ### Texts that end in no bracket -/

/-- The text is not empty and does not end in a closing bracket. -/
def IsOpen (s : String) : Prop := s.toList.getLast?.any (· ≠ ')') = true

instance (s : String) : Decidable (IsOpen s) := inferInstanceAs (Decidable (_ = true))

variable {s t : String}

theorem isOpen_iff : IsOpen s ↔ ∃ c, s.toList.getLast? = some c ∧ c ≠ ')' := by
  simp [IsOpen, Option.any_eq_true]

theorem IsOpen.append (h : IsOpen t) : IsOpen (s ++ t) := by
  obtain ⟨c, ht, hc⟩ := isOpen_iff.mp h
  refine isOpen_iff.mpr ⟨c, ?_, hc⟩
  rw [String.toList_append, List.getLast?_append, ht]
  rfl

theorem isOpen_ofList_append_digits (cs : List Char) (m : Nat) :
    IsOpen (String.ofList (cs ++ digits m)) := by
  cases hl : (digits m).getLast? with
  | none => exact absurd (List.getLast?_eq_none_iff.mp hl) (Decimal.digits_ne_nil m)
  | some c =>
    have hd := Decimal.isDigit_of_mem_digits (List.mem_of_getLast? hl)
    refine isOpen_iff.mpr ⟨c, ?_, fun hc => ?_⟩
    · rw [String.toList_ofList, List.getLast?_append, hl]
      rfl
    · subst hc
      cases hd

theorem isOpen_integerText (n : Int) : IsOpen (integerText n) := by
  cases n with
  | ofNat m => exact isOpen_ofList_append_digits [] m
  | negSucc m => exact isOpen_ofList_append_digits ['-'] (m + 1)

namespace Json

theorem quotedNames_cons {name next : String} {names : List String} :
    quotedNames (name :: next :: names) =
      "`" ++ name ++ "`" ++ ", " ++ quotedNames (next :: names) := String.intercalate_cons_cons

/-- A list of names ends in a quote, or it is empty and what stands before it ends the text. -/
theorem isOpen_append_names (h : IsOpen s) (names : List String) :
    IsOpen (s ++ quotedNames names) := by
  cases names with
  | nil =>
    rw [quotedNames, List.map_nil, String.intercalate_nil, String.append_empty]
    exact h
  | cons name names =>
    apply IsOpen.append
    induction names generalizing name with
    | nil => exact IsOpen.append (by decide)
    | cons next names ih =>
      rw [quotedNames_cons]
      exact (ih next).append

theorem isOpen_expected (e : Expected) : IsOpen e.text := by
  cases e <;> decide

theorem isOpen_message (m : Mismatch) : IsOpen m.message := by
  cases m with
  | type found expected => exact (isOpen_expected expected).append
  | value found expected => exact (isOpen_expected expected).append
  | choice name known => exact isOpen_append_names (IsOpen.append (by decide)) known
  | field name known => exact isOpen_append_names (IsOpen.append (by decide)) known
  | repeated name => exact IsOpen.append (by decide)

end Json

namespace Unfit

theorem isOpen_message (u : Unfit) : IsOpen u.message := by
  cases u with
  | belowOne n => exact (isOpen_integerText n).append
  | negative n => exact IsOpen.append (by decide)
  | tooLarge n => exact IsOpen.append (by decide)
  | outOfRange n => exact IsOpen.append (by decide)
  | mismatch m => exact Json.isOpen_message m

end Unfit

/-! ### The line of a reason -/

/-- The reason ends in this line, in brackets. -/
def NamesLine (reason : String) (n : Nat) : Prop :=
  ∃ text, reason = text ++ " (line " ++ naturalText n ++ ")"

theorem digits_inj_of_append {cs ds : List Char} {m n : Nat}
    (h : cs ++ ' ' :: digits m = ds ++ ' ' :: digits n) : m = n := by
  have hs : ∀ {n : Nat} {es fs : List Char}, digits n ≠ es ++ ' ' :: fs := by
    intro n es fs he
    have hb : ' ' ∈ digits n := by simp [he]
    cases Decimal.isDigit_of_mem_digits hb
  rcases List.append_eq_append_iff.mp h with ⟨es, -, he⟩ | ⟨es, -, he⟩
  · rcases List.cons_eq_append_iff.mp he with ⟨-, he⟩ | ⟨es, -, he⟩
    · rw [← Decimal.value_digits m, ← Decimal.value_digits n, (List.cons.inj he).2]
    · exact absurd he hs
  · rcases List.cons_eq_append_iff.mp he with ⟨-, he⟩ | ⟨es, -, he⟩
    · rw [← Decimal.value_digits m, ← Decimal.value_digits n, (List.cons.inj he).2]
    · exact absurd he hs

theorem namesLine_line_iff {m n : Nat} :
    NamesLine (s ++ " (line " ++ naturalText m ++ ")") n ↔ m = n := by
  have hl : ∀ (s : String) (m : Nat), (s ++ " (line " ++ naturalText m).toList =
      (s ++ " (line").toList ++ ' ' :: digits m := by
    intro s m
    have hd : (naturalText m).toList = digits m := String.toList_ofList
    rw [String.toList_append, String.toList_append, String.toList_append, hd, List.append_assoc,
      List.append_assoc]
    rfl
  constructor
  · intro h
    obtain ⟨text, he⟩ := h
    have he := congrArg String.toList ((String.append_left_inj _).mp he)
    rw [hl, hl] at he
    exact digits_inj_of_append he
  · intro h
    subst h
    exact ⟨s, rfl⟩

theorem not_namesLine (h : IsOpen s) (n : Nat) : ¬ NamesLine s n := by
  intro hn
  obtain ⟨text, rfl⟩ := hn
  obtain ⟨c, hl, hc⟩ := isOpen_iff.mp h
  rw [String.toList_append, List.getLast?_append] at hl
  exact hc (Option.some.inj hl).symm

/-- A reason about a value ends in a line exactly if the value comes from this line. -/
theorem namesLine_reasonAt_iff (u : Unfit) (line : Option Nat) (n : Nat) :
    NamesLine (Settings.reasonAt u.message line) n ↔ line = some n := by
  cases line with
  | none => exact iff_of_false (not_namesLine u.isOpen_message n) nofun
  | some m => exact namesLine_line_iff.trans (by simp)

end ListfileSettings
