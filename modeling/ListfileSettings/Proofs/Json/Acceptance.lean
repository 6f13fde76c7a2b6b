import ListfileSettings.Proofs.Json.Numbers
import ListfileSettings.Proofs.Json.Strings
import ListfileSettings.Proofs.Json.Values

/-!
# Texts of literals are read

A JSON text of an object of literals is read as the object of their values, if lists are not nested
too deep.
-/
namespace ListfileSettings

/-! ### Literals as JSON values -/

namespace Literal

mutual

def depth : Literal → Nat
  | .sequence vs => itemsDepth vs + 1
  | _ => 0

def itemsDepth : List Literal → Nat
  | [] => 0
  | v :: vs => max v.depth (itemsDepth vs)

end

/-- What the decimal of an integer is read as. -/
def ofDecimal (n : Int) : Json :=
  match Json.scalar (Decimal.integerDigits n) with
  | .ok (v, _) => v
  | .error _ => .null

mutual

/-- The value that a JSON text of the literal is read as. -/
def asRead : Literal → Json
  | .integer n => ofDecimal n.val
  | .boolean b => .boolean b
  | .string s => .string s
  | .sequence vs => .array (itemsAsRead vs)

def itemsAsRead : List Literal → List Json
  | [] => []
  | v :: vs => asRead v :: itemsAsRead vs

end

end Literal

namespace Json

open Grammar Literal

variable {t u l s rest : List Char} {c : Char} {v : Literal} {vs : List Literal} {d n : Nat}
  {isFirst : Bool}

theorem endsNumber_nil : EndsNumber [] := nofun

theorem scalar_integerDigits (m : Decimal.Wide) (h : EndsNumber rest) :
    scalar (Decimal.integerDigits m.val ++ rest) = .ok (ofDecimal m.val, rest) := by
  by_cases hm : Fits m.val
  · have hn := scalar_of_fits hm endsNumber_nil
    rw [List.append_nil] at hn
    rw [ofDecimal, hn]
    exact scalar_of_fits hm h
  · obtain ⟨x, hx⟩ := exists_scalar m hm
    have hn := hx [] endsNumber_nil
    rw [List.append_nil] at hn
    rw [ofDecimal, hn]
    exact hx rest h

theorem ofDecimal_of_fits {m : Int} (h : Fits m) : ofDecimal m = .integer m := by
  have hn := scalar_of_fits h endsNumber_nil
  rw [List.append_nil] at hn
  rw [ofDecimal, hn]

theorem ofDecimal_of_not_fits (m : Decimal.Wide) (h : ¬ Fits m.val) :
    ∃ x, ofDecimal m.val = .float x := by
  obtain ⟨x, hx⟩ := exists_scalar m h
  have hn := hx [] endsNumber_nil
  rw [List.append_nil] at hn
  exact ⟨x, by rw [ofDecimal, hn]⟩

/-! ### Space -/

theorem isSpace_iff : isSpace c = true ↔ c = ' ' ∨ c = '\n' ∨ c = '\t' ∨ c = '\r' := by
  simp [isSpace, or_assoc]

theorem skipSpace_append (h : Space l) (s : List Char) : skipSpace (l ++ s) = skipSpace s :=
  List.dropWhile_append_of_pos fun c hc => isSpace_iff.mpr (h c hc)

theorem skipSpace_cons (h : isSpace c = false) : skipSpace (c :: s) = c :: s := by
  simp [skipSpace, h]

theorem value_append (h : Space l) (s : List Char) : value d (l ++ s) = value d s := by
  cases d with
  | zero => rw [value, value, skipSpace_append h]
  | succ d => rw [value, value, skipSpace_append h]

theorem nextItem_append (h : Space l) (s : List Char) :
    nextItem isFirst (l ++ s) = nextItem isFirst s := by
  rw [nextItem, nextItem, skipSpace_append h]

theorem nextMember_append (h : Space l) (s : List Char) :
    nextMember isFirst (l ++ s) = nextMember isFirst s := by
  rw [nextMember, nextMember, skipSpace_append h]

theorem endsNumber_append (h : Space l) (hs : EndsNumber s) : EndsNumber (l ++ s) := by
  cases l with
  | nil => exact hs
  | cons c l =>
    intro d u he
    obtain ⟨rfl, -⟩ := List.cons.inj he
    have hc := h c (by simp)
    rcases hc with rfl | rfl | rfl | rfl <;> decide

theorem endsNumber_cons (h : c = ',' ∨ c = ']' ∨ c = '}') : EndsNumber (c :: s) := by
  intro d u he
  obtain ⟨rfl, -⟩ := List.cons.inj he
  rcases h with rfl | rfl | rfl <;> decide

theorem endsNumber_moreItems (h : MoreItems t vs) (rest : List Char) :
    EndsNumber (t ++ ']' :: rest) := by
  cases h with
  | none => exact endsNumber_cons (by simp)
  | comma => exact endsNumber_cons (by simp)

/-! ### Values -/

theorem ne_of_isDigit {e : Char} (h : c.isDigit = true) (he : e.isDigit = false) : c ≠ e := by
  intro hc
  rw [← hc, h] at he
  cases he

theorem isSpace_of_isDigit (h : c.isDigit = true) : isSpace c = false := by
  simp [isSpace, ne_of_isDigit h (e := ' ') rfl, ne_of_isDigit h (e := '\n') rfl,
    ne_of_isDigit h (e := '\t') rfl, ne_of_isDigit h (e := '\r') rfl]

theorem head_of_integerDigits (m : Int) :
    ∃ c u, Decimal.integerDigits m = c :: u ∧ (c = '-' ∨ c.isDigit = true) := by
  cases m with
  | ofNat m =>
    cases hd : Decimal.digits m with
    | nil => exact absurd hd (Decimal.digits_ne_nil m)
    | cons c u =>
      exact ⟨c, u, hd, .inr (Decimal.isDigit_of_mem_digits (hd ▸ List.mem_cons_self))⟩
  | negSucc m => exact ⟨'-', _, rfl, .inl rfl⟩

theorem head_of_value (h : Value t v) : ∃ c u, t = c :: u ∧ isSpace c = false ∧ c ≠ ']' := by
  cases h with
  | word h => cases h <;> exact ⟨_, _, rfl, rfl, by decide⟩
  | integer m =>
    obtain ⟨c, u, hd, hc⟩ := head_of_integerDigits m.val
    refine ⟨c, u, hd, ?_⟩
    rcases hc with rfl | hc
    · exact ⟨rfl, by decide⟩
    · exact ⟨isSpace_of_isDigit hc, ne_of_isDigit hc rfl⟩
  | string => exact ⟨_, _, rfl, rfl, by decide⟩
  | sequence => exact ⟨_, _, rfl, rfl, by decide⟩

theorem value_cons (h : isSpace c = false) (hl : c ≠ '[') (ho : c ≠ '{') :
    value d (c :: s) = scalar (c :: s) := by
  rw [value_scalar, skipSpace_cons h]
  · simp [skipSpace_cons h, hl]
  · simp [skipSpace_cons h, ho]

/-- A decimal, however long, is read as a value that is no list and no object. -/
theorem value_decimal (m : Int) (rest : List Char) :
    value d (Decimal.integerDigits m ++ rest) = scalar (Decimal.integerDigits m ++ rest) := by
  obtain ⟨c, u, hd, hc⟩ := head_of_integerDigits m
  rw [hd]
  rcases hc with rfl | hc
  · exact value_cons rfl (by decide) (by decide)
  · exact value_cons (isSpace_of_isDigit hc) (ne_of_isDigit hc rfl) (ne_of_isDigit hc rfl)

theorem value_integerDigits (m : Decimal.Wide) (h : EndsNumber rest) :
    value d (Decimal.integerDigits m.val ++ rest) = .ok (ofDecimal m.val, rest) := by
  rw [value_decimal, scalar_integerDigits m h]

theorem value_word {b : Bool} (h : Word t b) : value d (t ++ rest) = .ok (.boolean b, rest) := by
  cases h with
  | trueWord => exact value_cons (c := 't') rfl (by decide) (by decide)
  | falseWord => exact value_cons (c := 'f') rfl (by decide) (by decide)

theorem value_quoted (h : Quoted t s) :
    value d ('"' :: (t ++ '"' :: rest)) = .ok (.string (String.ofList s), rest) := by
  rw [value_cons rfl (by decide) (by decide), scalar_quote, stringAfterQuote_of_quoted h rest]
  rfl

theorem nextItem_first (h : Value t v) : nextItem true (t ++ s) = .ok (.item (t ++ s)) := by
  obtain ⟨c, u, rfl, hc, hb⟩ := head_of_value h
  simp [nextItem, skipSpace_cons hc, hb]

theorem nextItem_comma (hl : Space l) (h : Value t v) :
    nextItem false (',' :: (l ++ (t ++ s))) = .ok (.item (t ++ s)) := by
  obtain ⟨c, u, rfl, hc, hb⟩ := head_of_value h
  have hs : skipSpace (l ++ (c :: (u ++ s))) = c :: (u ++ s) := by
    rw [skipSpace_append hl]
    exact skipSpace_cons hc
  rw [List.cons_append, nextItem, skipSpace_cons rfl]
  simp only [hs]
  exact if_neg hb

theorem nextItem_bracket (hl : Space l) : nextItem isFirst (l ++ ']' :: s) = .ok (.done s) := by
  rw [nextItem_append hl]
  rfl

theorem items_append {item : Reader Json} (hl : Space l) (s : List Char) :
    items item (n + 1) isFirst (l ++ s) = items item (n + 1) isFirst s := by
  rw [items, items, nextItem_append hl]

/-- One round of a list: an item, the space after it and what else there is. -/
theorem items_round {item : Reader Json} {l' : List Char} {j : Json} {js : List Json}
    (hn : nextItem isFirst s = .ok (.item (t ++ (l' ++ (u ++ ']' :: rest))))) (h' : Space l')
    (hs : MoreItems u vs) (hi : ∀ {rest}, EndsNumber rest → item (t ++ rest) = .ok (j, rest))
    (hm : items item (n + 1) false (u ++ ']' :: rest) = .ok (js, rest)) :
    items item (n + 2) isFirst s = .ok (j :: js, rest) := by
  have he := endsNumber_append h' (endsNumber_moreItems hs rest)
  have hr : items item (n + 1) false (l' ++ (u ++ ']' :: rest)) = .ok (js, rest) := by
    rw [items_append h', hm]
  exact items_eq_ok_iff.mpr (.inr ⟨_, j, _, js, hn, hi he, hr, rfl⟩)

mutual

/-- The text of a literal is read as its value, if lists are not nested too deep. -/
theorem value_of_value : (v : Literal) → ∀ {t rest d}, Value t v → v.depth ≤ d →
    EndsNumber rest → value d (t ++ rest) = .ok (v.asRead, rest)
  | .integer m, _, _, _, .integer _, _, hr => value_integerDigits m hr
  | .boolean _, _, _, _, .word h, _, _ => value_word h
  | .string _, _, _, _, .string hq, _, _ => by
    rw [List.cons_append, List.append_assoc]
    exact value_quoted hq
  | .sequence vs, _, rest, 0, .sequence _, hd, _ => absurd hd (Nat.not_succ_le_zero _)
  | .sequence vs, _, rest, d + 1, @Value.sequence t _ h, hd, _ => by
    have hi : items (value d) ((t ++ ']' :: rest).length + 1) true (t ++ ']' :: rest) =
        .ok (itemsAsRead vs, rest) := items_of_items vs h (Nat.le_of_succ_le_succ hd) (by simp)
    rw [List.cons_append, List.append_assoc, List.singleton_append,
      value_list (skipSpace_cons rfl), hi]
    rfl

theorem items_of_items : (vs : List Literal) → ∀ {t rest d n}, Items t vs → itemsDepth vs ≤ d →
    t.length + 2 ≤ n → items (value d) n true (t ++ ']' :: rest) = .ok (itemsAsRead vs, rest)
  | [], _, _, _, n + 1, .none h, _, _ => items_eq_ok_iff.mpr (.inl ⟨nextItem_bracket h, rfl⟩)
  | v :: vs, _, rest, d, n + 2, @Items.some l t l' u _ _ h hv h' hs, hd, hn => by
    obtain ⟨hv', hs'⟩ := Nat.max_le.mp hd
    have hl : u.length + 1 ≤ n + 1 := by
      simp only [List.length_append] at hn
      omega
    simp only [List.append_assoc]
    rw [items_append h]
    exact items_round (nextItem_first hv) h' hs (value_of_value v hv hv')
      (items_of_moreItems vs hs hs' hl)

theorem items_of_moreItems : (vs : List Literal) → ∀ {t rest d n}, MoreItems t vs →
    itemsDepth vs ≤ d → t.length + 1 ≤ n →
    items (value d) n false (t ++ ']' :: rest) = .ok (itemsAsRead vs, rest)
  | [], _, _, _, n + 1, .none, _, _ => items_eq_ok_iff.mpr (.inl ⟨rfl, rfl⟩)
  | v :: vs, _, rest, d, n, @MoreItems.comma l t l' u _ _ h hv h' hs, hd, hn => by
    obtain ⟨hv', hs'⟩ := Nat.max_le.mp hd
    simp only [List.length_cons, List.length_append] at hn
    obtain ⟨m, rfl⟩ : ∃ m, n = m + 2 := ⟨n - 2, by omega⟩
    have hl : u.length + 1 ≤ m + 1 := by omega
    simp only [List.cons_append, List.append_assoc]
    exact items_round (nextItem_comma h hv) h' hs (value_of_value v hv hv')
      (items_of_moreItems vs hs hs' hl)

end

/-! ### Objects -/

section Members

variable {b : String × Literal} {bs : List (String × Literal)} {ms : List (String × Json)}

theorem nextMember_quote (hl : Space l) : nextMember true ([] ++ (l ++ '"' :: s)) = .ok (.item s) := by
  rw [List.nil_append, nextMember_append hl]
  rfl

theorem nextMember_comma (hl : Space l) :
    nextMember false ([','] ++ (l ++ '"' :: s)) = .ok (.item s) := by
  rw [List.singleton_append, nextMember, skipSpace_cons rfl]
  simp only [skipSpace_append hl]
  rfl

theorem colon_append (hl : Space l) : colon (l ++ ':' :: s) = .ok s := by
  rw [colon, skipSpace_append hl]
  rfl

theorem foldMembers_append {σ : Type} {member : σ → String → Reader σ} {acc : σ} (hl : Space l)
    (s : List Char) : foldMembers member (n + 1) isFirst acc (l ++ s) =
      foldMembers member (n + 1) isFirst acc s := by
  rw [foldMembers, foldMembers, nextMember_append hl]

theorem members_round {front : List Char}
    (hf : ∀ {l s}, Space l → nextMember isFirst (front ++ (l ++ '"' :: s)) = .ok (.item s))
    (h : Member t b) (hd : b.2.depth ≤ d) (he : EndsNumber s)
    (hm : foldMembers (pushMember (value d)) (n + 1) false [] s = .ok (ms, rest)) :
    foldMembers (pushMember (value d)) (n + 2) isFirst [] (front ++ (t ++ s)) =
      .ok ((b.1, b.2.asRead) :: ms, rest) := by
  cases h with
  | @mk l t l₁ l₂ u l' name v hl ht h₁ h₂ hv h' =>
    have hq := stringAfterQuote_of_quoted ht (l₁ ++ ':' :: (l₂ ++ (u ++ (l' ++ s))))
    have hi : value d (l₂ ++ (u ++ (l' ++ s))) = .ok (v.asRead, l' ++ s) := by
      rw [value_append h₂]
      exact value_of_value v hv hd (endsNumber_append h' he)
    rw [← foldMembers_append h'] at hm
    simp only [List.append_assoc, List.cons_append]
    exact members_eq_ok_iff.mpr
      (.inr ⟨_, _, _, _, _, _, ms, hf hl, hq, colon_append h₁, hi, hm, rfl⟩)

theorem endsNumber_moreMembers (h : MoreMembers t bs) (rest : List Char) :
    EndsNumber (t ++ '}' :: rest) := by
  cases h with
  | none => exact endsNumber_cons (by simp)
  | comma => exact endsNumber_cons (by simp)

def membersAsRead (bs : List (String × Literal)) : List (String × Json) :=
  bs.map fun b => (b.1, b.2.asRead)

theorem members_of_moreMembers (h : MoreMembers t bs) (hd : ∀ b ∈ bs, b.2.depth ≤ d)
    (hn : t.length < n) (rest : List Char) :
    foldMembers (pushMember (value d)) n false [] (t ++ '}' :: rest) =
      .ok (membersAsRead bs, rest) := by
  induction h generalizing n with
  | none =>
    obtain ⟨m, rfl⟩ := Nat.exists_eq_add_one_of_ne_zero (Nat.ne_zero_of_lt hn)
    exact members_eq_ok_iff.mpr (.inl ⟨rfl, rfl⟩)
  | @comma t u b bs h hs ih =>
    obtain ⟨hb, hbs⟩ := List.forall_mem_cons.mp hd
    simp only [List.length_cons, List.length_append] at hn
    obtain ⟨m, rfl⟩ : ∃ m, n = m + 2 := ⟨n - 2, by omega⟩
    have hm := ih hbs (n := m + 1) (by omega)
    have hr := members_round nextMember_comma h hb (endsNumber_moreMembers hs rest) hm
    rw [List.cons_append, List.append_assoc]
    exact hr

theorem members_of_members (h : Members t bs) (hd : ∀ b ∈ bs, b.2.depth ≤ d)
    (hn : t.length + 1 < n) (rest : List Char) :
    foldMembers (pushMember (value d)) n true [] (t ++ '}' :: rest) =
      .ok (membersAsRead bs, rest) := by
  obtain ⟨m, rfl⟩ : ∃ m, n = m + 2 := ⟨n - 2, by omega⟩
  cases h with
  | none h =>
    rw [foldMembers_append h]
    exact members_eq_ok_iff.mpr (.inl ⟨rfl, rfl⟩)
  | @some t u b bs h hs =>
    obtain ⟨hb, hbs⟩ := List.forall_mem_cons.mp hd
    rw [List.length_append] at hn
    have hm := members_of_moreMembers hs hbs (n := m + 1) (by omega) rest
    have hr := members_round nextMember_quote h hb (endsNumber_moreMembers hs rest) hm
    rw [List.append_assoc]
    exact hr

end Members

theorem readRaw_of_denotes {text : String} {bs : List (String × Literal)} (h : Denotes text bs)
    (hd : ∀ b ∈ bs, b.2.depth ≤ 126) : readRaw text = .ok (.object (membersAsRead bs)) := by
  obtain ⟨l, t, l', hl, hm, hl', ht⟩ := h
  have hv : value 127 text.toList = .ok (.object (membersAsRead bs), l') := by
    have hr := members_of_members hm hd (n := (t ++ '}' :: l').length + 1) (by simp) l'
    rw [ht, value_append hl, value_object (skipSpace_cons rfl), hr]
    rfl
  have hs : skipSpace l' = [] := by
    have hs := skipSpace_append hl' []
    rwa [List.append_nil] at hs
  rw [readRaw, depthLimit, whole, hv]
  simp [bind, Except.bind, hs]

end Json

end ListfileSettings
