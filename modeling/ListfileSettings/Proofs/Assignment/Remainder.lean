import ListfileSettings.Proofs.Assignment.FirstCharacter

/-!
# What is left of a settings text

For each mode of the reader, what the rest of the text must be for the reader to end with given
assignments. The rest is described by the grammar alone, and one character more or less of it is
one step of the reader, so the reader accepts the texts of the grammar and no others.
-/
namespace ListfileSettings.Assignment

open Grammar

section Left

variable (as : List Assignment) (done : List Assignment)

/-! ### Lines -/

def LinesLeft (line : Nat) (cs : List Char) : Prop := ∃ bs, Lines line cs bs ∧ as = done ++ bs

def BreakLeft (line : Nat) (cs : List Char) : Prop :=
  cs = [] ∧ as = done ∨ ∃ ds, cs = '\n' :: ds ∧ LinesLeft as done (line + 1) ds

def CommentLeft (line : Nat) (cs : List Char) : Prop :=
  ∃ t ds, cs = t ++ ds ∧ '\n' ∉ t ∧ BreakLeft as done line ds

def TrailerLeft (line : Nat) (cs : List Char) : Prop :=
  ∃ t ds, cs = t ++ ds ∧ Trailer t ∧ BreakLeft as done line ds

/-! ### Values -/

/-- A text that goes on as `P` says up to a closing bracket and then as `K` says, which is given
the items before the bracket and the line of the bracket. -/
def ItemsLeft (P : List Char → List Literal → Prop)
    (K : List Literal → Nat → List Char → Prop) (line : Nat) (cs : List Char) : Prop :=
  ∃ t vs ds, cs = t ++ ']' :: ds ∧ P t vs ∧ K vs (line + t.count '\n') ds

/-- A text that goes on as `R` says after layout, on the line that the layout leads to. -/
def LayoutLeft (R : Nat → List Char → Prop) (line : Nat) (cs : List Char) : Prop :=
  ∃ l ds, cs = l ++ ds ∧ Layout l ∧ R (line + l.count '\n') ds

def ItemLeft (K : List Literal → Nat → List Char → Prop) (line : Nat) (cs : List Char) : Prop :=
  (∃ ds, cs = ']' :: ds ∧ K [] line ds) ∨
    ∃ t v ds, cs = t ++ ds ∧ Value t v ∧
      ItemsLeft MoreItems (fun vs => K (v :: vs)) (line + t.count '\n') ds

def CommaLeft (K : List Literal → Nat → List Char → Prop) (line : Nat) (cs : List Char) : Prop :=
  (∃ ds, cs = ']' :: ds ∧ K [] line ds) ∨ ∃ ds, cs = ',' :: ds ∧ ItemsLeft Items K line ds

/-- The text after a value that is assigned to a key or is an item of the sequences that are open,
the innermost first. -/
def ValueLeft (key : String) (keyLine : Nat) :
    List OpenSequence → Literal → Nat → List Char → Prop
  | [], v, line, cs => TrailerLeft as (done ++ [⟨key, v, keyLine⟩]) line cs
  | l :: ls, v, line, cs =>
    ItemsLeft MoreItems (fun vs => ValueLeft key keyLine ls (.sequence (l.items ++ [v] ++ vs)))
      line cs

def StartLeft (slot : Slot) (line : Nat) (cs : List Char) : Prop :=
  ∃ t v ds, cs = t ++ ds ∧ Value t v ∧
    ValueLeft as done slot.key slot.line slot.sequences v (line + t.count '\n') ds

/-- The text before a value or, in a sequence, also before its end. -/
def BeforeLeft (slot : Slot) (line : Nat) (cs : List Char) : Prop :=
  match slot.sequences with
  | [] => ∃ t ds, cs = t ++ ds ∧ Blanks t ∧ StartLeft as done slot line ds
  | l :: ls =>
    ItemsLeft Items
      (fun vs => ValueLeft as done slot.key slot.line ls (.sequence (l.items ++ vs))) line cs

/-- The text after a value that has been put into its slot. -/
def AfterLeft (slot : Slot) (line : Nat) (cs : List Char) : Prop :=
  match slot.sequences with
  | [] => TrailerLeft as done line cs
  | l :: ls =>
    ItemsLeft MoreItems
      (fun vs => ValueLeft as done slot.key slot.line ls (.sequence (l.items ++ vs))) line cs

def AfterKeyLeft (line keyLine : Nat) (key : String) (cs : List Char) : Prop :=
  ∃ t ds, cs = t ++ '=' :: ds ∧ Blanks t ∧ BeforeLeft as done ⟨key, keyLine, []⟩ line ds

def KeyLeft (line keyLine : Nat) (text cs : List Char) : Prop :=
  ∃ t ds, cs = t ++ ds ∧ (∀ c ∈ t, isKeyPart c = true) ∧
    AfterKeyLeft as done line keyLine (String.ofList (text ++ t)) ds

def InnerCommentLeft (slot : Slot) (isAfter : Bool) (line : Nat) (cs : List Char) : Prop :=
  ∃ t ds, cs = t ++ '\n' :: ds ∧ '\n' ∉ t ∧
    if isAfter then AfterLeft as done slot (line + 1) ds else BeforeLeft as done slot (line + 1) ds

def WordLeft (slot : Slot) (line : Nat) (text cs : List Char) : Prop :=
  ∃ t ds, cs = t ++ ds ∧ (∀ c ∈ t, isKeyPart c = true) ∧ ∃ b, Word (text ++ t) b ∧
    ValueLeft as done slot.key slot.line slot.sequences (.boolean b) line ds

def IntegerLeft (slot : Slot) (line : Nat) (sign : String) (digits cs : List Char) : Prop :=
  ∃ t ds, cs = t ++ ds ∧ (∀ c ∈ t, isDigitPart c = true) ∧
    State.isGrouped (String.ofList (digits ++ t)) = true ∧
    ValueLeft as done slot.key slot.line slot.sequences
      (.integer (State.integerValue sign (String.ofList (digits ++ t)))) line ds

def StringLeft (slot : Slot) (line : Nat) (quote : Char) (text : String) (cs : List Char) : Prop :=
  ∃ t s ds, cs = t ++ quote :: ds ∧ Quoted quote t s ∧
    ValueLeft as done slot.key slot.line slot.sequences (.string (text ++ String.ofList s)) line ds

def EscapeLeft (slot : Slot) (line : Nat) (quote : Char) (text : String) (cs : List Char) : Prop :=
  ∃ c e ds, cs = c :: ds ∧ Escape c e ∧
    StringLeft as done slot line quote (text ++ String.ofList e) ds

end Left

/-- What the rest of a text must be for the reader, in this state, to end with the assignments. -/
def Remains (as : List Assignment) (st : State) (cs : List Char) : Prop :=
  match st.mode with
  | .idle => LinesLeft as st.done st.line cs
  | .comment => CommentLeft as st.done st.line cs
  | .key n text => KeyLeft as st.done st.line n text.toList cs
  | .afterKey n key => AfterKeyLeft as st.done st.line n key cs
  | .before slot => BeforeLeft as st.done slot st.line cs
  | .word slot text => WordLeft as st.done slot st.line text.toList cs
  | .integer slot sign digits => IntegerLeft as st.done slot st.line sign digits.toList cs
  | .string slot quote _ text => StringLeft as st.done slot st.line quote text cs
  | .escape slot quote _ text => EscapeLeft as st.done slot st.line quote text cs
  | .after slot => AfterLeft as st.done slot st.line cs
  | .innerComment slot isAfter => InnerCommentLeft as st.done slot isAfter st.line cs

/-! ### The first character of what is left -/

theorem exists_append_nil {α : Type} {Q : List α → List α → Prop} :
    (∃ t ds, [] = t ++ ds ∧ Q t ds) ↔ Q [] [] := by
  constructor
  · intro h
    obtain ⟨t, ds, he, h⟩ := h
    obtain ⟨rfl, rfl⟩ := List.append_eq_nil_iff.mp he.symm
    exact h
  · exact fun h => ⟨[], [], rfl, h⟩

theorem exists_append_cons {α : Type} {Q : List α → List α → Prop} {c : α} {cs : List α} :
    (∃ t ds, c :: cs = t ++ ds ∧ Q t ds) ↔
      Q [] (c :: cs) ∨ ∃ t ds, cs = t ++ ds ∧ Q (c :: t) ds := by
  constructor
  · intro h
    obtain ⟨t, ds, he, h⟩ := h
    rcases List.cons_eq_append_iff.mp he with ⟨rfl, rfl⟩ | ⟨t, rfl, rfl⟩
    · exact .inl h
    · exact .inr ⟨t, ds, rfl, h⟩
  · intro h
    rcases h with h | ⟨t, ds, rfl, h⟩
    · exact ⟨[], _, rfl, h⟩
    · exact ⟨c :: t, ds, rfl, h⟩

/-- A run of characters of a class takes the next one if it can, as what follows it starts with
none of them. -/
theorem exists_run_cons {p : Char → Bool} {Q : List Char → List Char → Prop} {c : Char}
    {cs : List Char} (hq : ∀ t, Q t (c :: cs) → p c = false) :
    (∃ t ds, c :: cs = t ++ ds ∧ (∀ d ∈ t, p d = true) ∧ Q t ds) ↔
      if p c then ∃ t ds, cs = t ++ ds ∧ (∀ d ∈ t, p d = true) ∧ Q (c :: t) ds
      else Q [] (c :: cs) := by
  rw [exists_append_cons]
  by_cases hc : p c = true
  · simp only [hc, if_true, List.forall_mem_cons, true_and]
    refine ⟨fun h => h.resolve_left fun h => ?_, .inr⟩
    exact Bool.false_ne_true ((hq [] h.2).symm.trans hc)
  · simp [hc]

variable {as done : List Assignment} {line keyLine : Nat} {slot : Slot} {c : Char}
  {cs : List Char}

theorem breakLeft_nil : BreakLeft as done line [] ↔ as = done := by
  simp [BreakLeft]

theorem breakLeft_cons :
    BreakLeft as done line (c :: cs) ↔ c = '\n' ∧ LinesLeft as done (line + 1) cs := by
  constructor
  · intro h
    rcases h with ⟨he, -⟩ | ⟨ds, he, h⟩
    · cases he
    · obtain ⟨rfl, rfl⟩ := List.cons.inj he
      exact ⟨rfl, h⟩
  · intro h
    obtain ⟨rfl, h⟩ := h
    exact .inr ⟨cs, rfl, h⟩

theorem commentLeft_nil : CommentLeft as done line [] ↔ as = done := by
  rw [CommentLeft, exists_append_nil, breakLeft_nil]
  simp

theorem commentLeft_cons : CommentLeft as done line (c :: cs) ↔
    c = '\n' ∧ LinesLeft as done (line + 1) cs ∨ c ≠ '\n' ∧ CommentLeft as done line cs := by
  rw [CommentLeft, exists_append_cons, breakLeft_cons]
  constructor
  · intro h
    rcases h with ⟨-, h⟩ | ⟨t, ds, rfl, hn, h⟩
    · exact .inl h
    · obtain ⟨hc, hn⟩ := not_or.mp (mt List.mem_cons.mpr hn)
      exact .inr ⟨Ne.symm hc, t, ds, rfl, hn, h⟩
  · intro h
    rcases h with h | ⟨hc, t, ds, rfl, hn, h⟩
    · exact .inl ⟨by simp, h⟩
    · exact .inr ⟨t, ds, rfl, by simp [hn, Ne.symm hc], h⟩

theorem trailerLeft_nil : TrailerLeft as done line [] ↔ as = done := by
  rw [TrailerLeft, exists_append_nil, breakLeft_nil]
  simp [trailer_nil]

theorem trailerLeft_cons : TrailerLeft as done line (c :: cs) ↔
    Blank c ∧ TrailerLeft as done line cs ∨ c = '\n' ∧ LinesLeft as done (line + 1) cs ∨
    c = '#' ∧ CommentLeft as done line cs := by
  rw [TrailerLeft, exists_append_cons, breakLeft_cons]
  constructor
  · intro h
    rcases h with ⟨-, h⟩ | ⟨t, ds, rfl, ht, h⟩
    · exact .inr (.inl h)
    · rcases trailer_cons.mp ht with ⟨hc, ht⟩ | ⟨hc, hn⟩
      · exact .inl ⟨hc, t, ds, rfl, ht, h⟩
      · exact .inr (.inr ⟨hc, t, ds, rfl, hn, h⟩)
  · intro h
    rcases h with ⟨hc, t, ds, rfl, ht, h⟩ | h | ⟨hc, t, ds, rfl, hn, h⟩
    · exact .inr ⟨t, ds, rfl, trailer_cons.mpr (.inl ⟨hc, ht⟩), h⟩
    · exact .inl ⟨trailer_nil, h⟩
    · exact .inr ⟨t, ds, rfl, trailer_cons.mpr (.inr ⟨hc, hn⟩), h⟩

section Items

variable {P : List Char → List Literal → Prop} {R : Nat → List Char → Prop}
  {K : List Literal → Nat → List Char → Prop}

theorem not_itemsLeft_nil : ¬ ItemsLeft P K line [] := by
  intro h
  obtain ⟨t, vs, ds, he, -⟩ := h
  simp at he

theorem layoutLeft_cons : LayoutLeft R line (c :: cs) ↔
    Blank c ∧ LayoutLeft R line cs ∨ c = '\n' ∧ LayoutLeft R (line + 1) cs ∨
    c = '#' ∧ (∃ t ds, cs = t ++ '\n' :: ds ∧ '\n' ∉ t ∧ LayoutLeft R (line + 1) ds) ∨
    R line (c :: cs) := by
  rw [LayoutLeft, exists_append_cons]
  constructor
  · intro h
    rcases h with ⟨-, h⟩ | ⟨l, ds, rfl, hl, h⟩
    · exact .inr (.inr (.inr h))
    · rcases layout_cons.mp hl with ⟨hc, hl'⟩ | ⟨rfl, hl'⟩ | ⟨rfl, u, w, rfl, hu, hw⟩
      · rw [List.count_cons_of_ne (not_newline_of_blank hc)] at h
        exact .inl ⟨hc, l, ds, rfl, hl', h⟩
      · rw [List.count_cons_self, Nat.add_comm _ 1, ← Nat.add_assoc] at h
        exact .inr (.inl ⟨rfl, l, ds, rfl, hl', h⟩)
      · have hn : ('#' :: (u ++ '\n' :: w)).count '\n' = 1 + w.count '\n' := by
          simp [List.count_eq_zero.mpr hu, Nat.add_comm]
        rw [hn, ← Nat.add_assoc] at h
        exact .inr (.inr (.inl ⟨rfl, u, w ++ ds, by simp, hu, w, ds, rfl, hw, h⟩))
  · intro h
    rcases h with ⟨hc, l, ds, rfl, hl, h⟩ | ⟨rfl, l, ds, rfl, hl, h⟩ |
      ⟨rfl, u, _, rfl, hu, l, ds, rfl, hl, h⟩ | h
    · refine .inr ⟨l, ds, rfl, .blank hc hl, ?_⟩
      rwa [List.count_cons_of_ne (not_newline_of_blank hc)]
    · refine .inr ⟨l, ds, rfl, .newline hl, ?_⟩
      rwa [List.count_cons_self, Nat.add_comm _ 1, ← Nat.add_assoc]
    · have hn : ('#' :: (u ++ '\n' :: l)).count '\n' = 1 + l.count '\n' := by
        simp [List.count_eq_zero.mpr hu, Nat.add_comm]
      refine .inr ⟨u ++ '\n' :: l, ds, by simp, .comment ⟨hu⟩ hl, ?_⟩
      rwa [hn, ← Nat.add_assoc]
    · exact .inl ⟨.nil, h⟩

theorem itemsLeft_items_iff : ItemsLeft Items K line cs ↔ LayoutLeft (ItemLeft K) line cs := by
  constructor
  · intro h
    obtain ⟨t, vs, ds, rfl, h, hk⟩ := h
    cases h with
    | none hl => exact ⟨t, ']' :: ds, rfl, hl, .inl ⟨ds, rfl, hk⟩⟩
    | @some l t u v vs hl hv hs =>
      rw [List.count_append, List.count_append, ← Nat.add_assoc, ← Nat.add_assoc] at hk
      exact ⟨l, t ++ (u ++ ']' :: ds), by simp, hl,
        .inr ⟨t, v, u ++ ']' :: ds, rfl, hv, u, vs, ds, rfl, hs, hk⟩⟩
  · intro h
    obtain ⟨l, _, rfl, hl, ⟨ds, rfl, hk⟩ | ⟨t, v, _, rfl, hv, u, vs, ds, rfl, hs, hk⟩⟩ := h
    · exact ⟨l, [], ds, rfl, .none hl, hk⟩
    · refine ⟨l ++ t ++ u, v :: vs, ds, by simp, .some hl hv hs, ?_⟩
      rwa [List.count_append, List.count_append, ← Nat.add_assoc, ← Nat.add_assoc]

theorem itemsLeft_moreItems_iff :
    ItemsLeft MoreItems K line cs ↔ LayoutLeft (CommaLeft K) line cs := by
  constructor
  · intro h
    obtain ⟨t, vs, ds, rfl, h, hk⟩ := h
    cases h with
    | none hl => exact ⟨t, ']' :: ds, rfl, hl, .inl ⟨ds, rfl, hk⟩⟩
    | @comma l t vs hl hs =>
      have hn : (l ++ ',' :: t).count '\n' = l.count '\n' + t.count '\n' := by simp
      rw [hn, ← Nat.add_assoc] at hk
      exact ⟨l, ',' :: (t ++ ']' :: ds), by simp, hl,
        .inr ⟨t ++ ']' :: ds, rfl, t, vs, ds, rfl, hs, hk⟩⟩
  · intro h
    obtain ⟨l, _, rfl, hl, ⟨ds, rfl, hk⟩ | ⟨_, rfl, t, vs, ds, rfl, hs, hk⟩⟩ := h
    · exact ⟨l, [], ds, rfl, .none hl, hk⟩
    · have hn : (l ++ ',' :: t).count '\n' = l.count '\n' + t.count '\n' := by simp
      refine ⟨l ++ ',' :: t, vs, ds, by simp, .comma hl hs, ?_⟩
      rwa [hn, ← Nat.add_assoc]

theorem itemsLeft_items : ItemsLeft Items K line (c :: cs) ↔
    Blank c ∧ ItemsLeft Items K line cs ∨ c = '\n' ∧ ItemsLeft Items K (line + 1) cs ∨
    c = '#' ∧ (∃ t ds, cs = t ++ '\n' :: ds ∧ '\n' ∉ t ∧ ItemsLeft Items K (line + 1) ds) ∨
    c = ']' ∧ K [] line cs ∨
    ∃ t v ds, c :: cs = t ++ ds ∧ Value t v ∧
      ItemsLeft MoreItems (fun vs => K (v :: vs)) (line + t.count '\n') ds := by
  rw [itemsLeft_items_iff, layoutLeft_cons, ItemLeft]
  simp only [← itemsLeft_items_iff, List.cons.injEq, and_assoc, exists_and_left, exists_eq_left']

theorem itemsLeft_moreItems : ItemsLeft MoreItems K line (c :: cs) ↔
    Blank c ∧ ItemsLeft MoreItems K line cs ∨ c = '\n' ∧ ItemsLeft MoreItems K (line + 1) cs ∨
    c = '#' ∧ (∃ t ds, cs = t ++ '\n' :: ds ∧ '\n' ∉ t ∧ ItemsLeft MoreItems K (line + 1) ds) ∨
    c = ']' ∧ K [] line cs ∨ c = ',' ∧ ItemsLeft Items K line cs := by
  rw [itemsLeft_moreItems_iff, layoutLeft_cons, CommaLeft]
  simp only [← itemsLeft_moreItems_iff, List.cons.injEq, and_assoc, exists_and_left,
    exists_eq_left']

end Items

section Lines

variable {key : String} {text : List Char}

theorem not_startLeft_nil : ¬ StartLeft as done slot line [] := by
  intro h
  obtain ⟨t, v, ds, he, hv, -⟩ := h
  obtain ⟨rfl, rfl⟩ := List.append_eq_nil_iff.mp he.symm
  exact not_value_nil hv

theorem not_beforeLeft_nil : ¬ BeforeLeft as done slot line [] := by
  unfold BeforeLeft
  split
  · rw [exists_append_nil]
    exact fun h => not_startLeft_nil h.2
  · exact not_itemsLeft_nil

theorem not_afterKeyLeft_nil : ¬ AfterKeyLeft as done line keyLine key [] := by
  intro h
  obtain ⟨t, ds, he, -⟩ := h
  simp at he

theorem afterKeyLeft_cons : AfterKeyLeft as done line keyLine key (c :: cs) ↔
    Blank c ∧ AfterKeyLeft as done line keyLine key cs ∨
    c = '=' ∧ BeforeLeft as done ⟨key, keyLine, []⟩ line cs := by
  constructor
  · intro h
    obtain ⟨t, ds, he, ht, h⟩ := h
    rcases List.cons_eq_append_iff.mp he with ⟨rfl, hd⟩ | ⟨t, rfl, rfl⟩
    · obtain ⟨rfl, rfl⟩ := List.cons.inj hd
      exact .inr ⟨rfl, h⟩
    · obtain ⟨hc, ht⟩ := blanks_cons.mp ht
      exact .inl ⟨hc, t, ds, rfl, ht, h⟩
  · intro h
    rcases h with ⟨hc, t, ds, rfl, ht, h⟩ | ⟨rfl, h⟩
    · exact ⟨c :: t, ds, rfl, blanks_cons.mpr ⟨hc, ht⟩, h⟩
    · exact ⟨[], cs, rfl, by simp [Blanks], h⟩

theorem keyLeft_cons : KeyLeft as done line keyLine text (c :: cs) ↔
    if isKeyPart c then KeyLeft as done line keyLine (text ++ [c]) cs
    else AfterKeyLeft as done line keyLine (String.ofList text) (c :: cs) := by
  rw [KeyLeft, exists_run_cons]
  · simp [KeyLeft]
  · intro t h
    rcases afterKeyLeft_cons.mp h with ⟨rfl | rfl | rfl | rfl, -⟩ | ⟨rfl, -⟩ <;> decide

theorem not_keyLeft_nil : ¬ KeyLeft as done line keyLine text [] := by
  rw [KeyLeft, exists_append_nil]
  exact fun h => not_afterKeyLeft_nil h.2

theorem linesLeft_iff_line : LinesLeft as done line cs ↔ ∃ t ds, cs = t ++ ds ∧
    ∃ bs, Line line t bs ∧ BreakLeft as (done ++ bs) (line + t.count '\n') ds := by
  constructor
  · intro h
    obtain ⟨bs, h, rfl⟩ := h
    cases h with
    | last h => exact ⟨cs, [], by simp, bs, h, .inl ⟨rfl, rfl⟩⟩
    | more h hs => exact ⟨_, _, rfl, _, h, .inr ⟨_, rfl, _, hs, by simp⟩⟩
  · intro h
    obtain ⟨t, ds, rfl, bs, h, ⟨rfl, rfl⟩ | ⟨ds, rfl, bs', hs, rfl⟩⟩ := h
    · exact ⟨bs, by simpa using .last h, rfl⟩
    · exact ⟨bs ++ bs', .more h hs, by simp⟩

theorem linesLeft_iff : LinesLeft as done line cs ↔ TrailerLeft as done line cs ∨
    ∃ t ds, cs = t ++ ds ∧ Blanks t ∧ ∃ k es, ds = k ++ es ∧ Identifier k ∧
      AfterKeyLeft as done line line (String.ofList k) es := by
  rw [linesLeft_iff_line]
  constructor
  · intro h
    obtain ⟨t, ds, rfl, bs, h, hb⟩ := h
    cases h with
    | empty h =>
      rw [count_newline_of_trailer h, List.append_nil] at hb
      exact .inl ⟨t, ds, rfl, h, hb⟩
    | @assignment b₁ k b₂ b₃ u w v h₁ hk h₂ h₃ hv hw =>
      have hn : (b₁ ++ (k ++ (b₂ ++ '=' :: (b₃ ++ (u ++ w))))).count '\n' = u.count '\n' := by
        simp [count_newline_of_blanks h₁, count_newline_of_blanks h₂, count_newline_of_blanks h₃,
          count_newline_of_identifier hk, count_newline_of_trailer hw]
      rw [hn] at hb
      refine .inr ⟨b₁, _, List.append_assoc .., h₁, k, _, List.append_assoc .., hk, b₂, _,
        List.append_assoc .., h₂, b₃, _, List.append_assoc .., h₃, u, v, _,
        List.append_assoc .., hv, w, ds, rfl, hw, hb⟩
  · intro h
    rcases h with ⟨t, ds, rfl, h, hb⟩ | ⟨b₁, _, rfl, h₁, k, _, rfl, hk, b₂, _, rfl, h₂, b₃, _, rfl, h₃,
      u, v, _, rfl, hv, w, ds, rfl, hw, hb⟩
    · refine ⟨t, ds, rfl, [], .empty h, ?_⟩
      rwa [count_newline_of_trailer h, List.append_nil]
    · refine ⟨_, ds, ?_, _, .assignment h₁ hk h₂ h₃ hv hw, ?_⟩
      · simp
      · simpa [count_newline_of_blanks h₁, count_newline_of_blanks h₂, count_newline_of_blanks h₃,
          count_newline_of_identifier hk, count_newline_of_trailer hw] using hb

theorem linesLeft_nil : LinesLeft as done line [] ↔ as = done := by
  rw [linesLeft_iff, trailerLeft_nil, exists_append_nil, exists_append_nil]
  exact or_iff_left fun h => not_afterKeyLeft_nil h.2.2

theorem identifier_left : (∃ k es, c :: cs = k ++ es ∧ Identifier k ∧
    AfterKeyLeft as done line keyLine (String.ofList k) es) ↔
      Letter c ∧ KeyLeft as done line keyLine [c] cs := by
  constructor
  · intro h
    obtain ⟨_, es, he, ⟨hc, ht⟩, h⟩ := h
    obtain ⟨rfl, rfl⟩ := List.cons.inj he
    exact ⟨hc, _, es, rfl, fun d hd => isKeyPart_iff.mpr (ht d hd), h⟩
  · intro h
    obtain ⟨hc, t, es, rfl, ht, h⟩ := h
    exact ⟨c :: t, es, rfl, ⟨hc, fun d hd => isKeyPart_iff.mp (ht d hd)⟩, h⟩

theorem linesLeft_cons : LinesLeft as done line (c :: cs) ↔
    Blank c ∧ LinesLeft as done line cs ∨ c = '\n' ∧ LinesLeft as done (line + 1) cs ∨
    c = '#' ∧ CommentLeft as done line cs ∨
    Letter c ∧ KeyLeft as done line line [c] cs := by
  rw [linesLeft_iff, trailerLeft_cons, exists_append_cons, identifier_left]
  constructor
  · intro h
    rcases h with (⟨hc, h⟩ | h | h) | ⟨-, h⟩ | ⟨t, ds, rfl, ht, h⟩
    · exact .inl ⟨hc, linesLeft_iff.mpr (.inl h)⟩
    · exact .inr (.inl h)
    · exact .inr (.inr (.inl h))
    · exact .inr (.inr (.inr h))
    · obtain ⟨hc, ht⟩ := blanks_cons.mp ht
      exact .inl ⟨hc, linesLeft_iff.mpr (.inr ⟨t, ds, rfl, ht, h⟩)⟩
  · intro h
    rcases h with ⟨hc, h⟩ | h | h | h
    · rcases linesLeft_iff.mp h with h | ⟨t, ds, rfl, ht, h⟩
      · exact .inl (.inl ⟨hc, h⟩)
      · exact .inr (.inr ⟨t, ds, rfl, blanks_cons.mpr ⟨hc, ht⟩, h⟩)
    · exact .inl (.inr (.inl h))
    · exact .inl (.inr (.inr h))
    · exact .inr (.inl ⟨by simp [Blanks], h⟩)

end Lines

section Values

theorem startLeft_iff : StartLeft as done slot line (c :: cs) ↔ ∃ t ds, cs = t ++ ds ∧
    ∃ v, Value (c :: t) v ∧ ValueLeft as done slot.key slot.line slot.sequences v
      (line + (c :: t).count '\n') ds := by
  constructor
  · intro h
    obtain ⟨t, v, ds, he, hv, h⟩ := h
    rcases List.cons_eq_append_iff.mp he with ⟨rfl, -⟩ | ⟨t, rfl, rfl⟩
    · exact absurd hv not_value_nil
    · exact ⟨t, ds, rfl, v, hv, h⟩
  · intro h
    obtain ⟨t, ds, rfl, v, hv, h⟩ := h
    exact ⟨c :: t, v, ds, rfl, hv, h⟩

theorem wordLeft_iff {text : List Char} : WordLeft as done slot line text cs ↔ ∃ t ds, cs = t ++ ds ∧
    ∃ b, Word (text ++ t) b ∧
      ValueLeft as done slot.key slot.line slot.sequences (.boolean b) line ds := by
  constructor
  · intro h
    obtain ⟨t, ds, rfl, -, h⟩ := h
    exact ⟨t, ds, rfl, h⟩
  · intro h
    obtain ⟨t, ds, rfl, b, h, hv⟩ := h
    refine ⟨t, ds, rfl, fun d hd => isKeyPart_iff.mpr (.inl ?_), b, h, hv⟩
    exact letters_of_word h d (List.mem_append_right text hd)

theorem integerLeft_iff {sign : String} {text : List Char} (ht : ∀ d ∈ text, isDigitPart d = true) :
    IntegerLeft as done slot line sign text cs ↔ ∃ t ds, cs = t ++ ds ∧ ∃ n, Digits (text ++ t) n ∧
      ValueLeft as done slot.key slot.line slot.sequences
        (.integer (Decimal.Wide.clamp (if sign = "-" then -n else n))) line ds := by
  constructor
  · intro h
    obtain ⟨t, ds, rfl, hd, hg, hv⟩ := h
    have h := digits_iff.mpr ⟨List.forall_mem_append.mpr ⟨ht, hd⟩, hg, rfl⟩
    rw [integerValue_of_digits h] at hv
    exact ⟨t, ds, rfl, _, h, hv⟩
  · intro h
    obtain ⟨t, ds, rfl, n, h, hv⟩ := h
    obtain ⟨hd, hg, -⟩ := digits_iff.mp h
    rw [← integerValue_of_digits h] at hv
    exact ⟨t, ds, rfl, (List.forall_mem_append.mp hd).2, hg, hv⟩

/-- Any word starts a value, and the reader takes all its letters. -/
theorem startWord_iff : (∃ t ds, cs = t ++ ds ∧ ∃ b, Word (c :: t) b ∧
    ValueLeft as done slot.key slot.line slot.sequences (.boolean b)
      (line + (c :: t).count '\n') ds) ↔ Letter c ∧ WordLeft as done slot line [c] cs := by
  constructor
  · intro h
    obtain ⟨t, ds, rfl, b, hw, hv⟩ := h
    rw [count_newline_of_word hw] at hv
    have hc := letters_of_word hw c (by simp)
    exact ⟨hc, wordLeft_iff.mpr ⟨t, ds, rfl, b, hw, hv⟩⟩
  · intro h
    obtain ⟨t, ds, rfl, b, hw, hv⟩ := wordLeft_iff.mp h.2
    have hn : (c :: t).count '\n' = 0 := count_newline_of_word hw
    exact ⟨t, ds, rfl, b, hw, by rwa [hn]⟩

theorem startInteger_iff : (∃ t ds, cs = t ++ ds ∧ ∃ n, Integer (c :: t) n ∧
    ValueLeft as done slot.key slot.line slot.sequences (.integer (Decimal.Wide.clamp n))
      (line + (c :: t).count '\n') ds) ↔ Digit c ∧ IntegerLeft as done slot line "" [c] cs ∨
    (c = '+' ∨ c = '-') ∧ IntegerLeft as done slot line (String.singleton c) [] cs := by
  constructor
  · intro h
    obtain ⟨t, ds, rfl, n, hn, hv⟩ := h
    rw [count_newline_of_integer hn] at hv
    rcases integer_cons.mp hn with ⟨hc, m, hm, rfl⟩ | ⟨rfl, m, hm, rfl⟩ | ⟨rfl, m, hm, rfl⟩
    · have hd : ∀ d ∈ [c], isDigitPart d = true := by simp [isDigitPart, isDigit_iff.mpr hc]
      exact .inl ⟨hc, (integerLeft_iff hd).mpr ⟨t, ds, rfl, m, hm, hv⟩⟩
    · exact .inr ⟨.inl rfl, (integerLeft_iff (by simp)).mpr ⟨t, ds, rfl, m, hm, hv⟩⟩
    · exact .inr ⟨.inr rfl, (integerLeft_iff (by simp)).mpr ⟨t, ds, rfl, m, hm, hv⟩⟩
  · intro h
    rcases h with ⟨hc, h⟩ | ⟨hc, h⟩
    · have hd : ∀ d ∈ [c], isDigitPart d = true := by simp [isDigitPart, isDigit_iff.mpr hc]
      obtain ⟨t, ds, rfl, n, hn, hv⟩ := (integerLeft_iff hd).mp h
      have hi : Integer (c :: t) n := .unsigned hn
      exact ⟨t, ds, rfl, _, hi, by rwa [count_newline_of_integer hi]⟩
    · obtain ⟨t, ds, rfl, n, hn, hv⟩ := (integerLeft_iff (by simp)).mp h
      have hi : Integer (c :: t) (if String.singleton c = "-" then -n else n) := by
        rcases hc with rfl | rfl
        · exact .plus hn
        · exact .minus hn
      exact ⟨t, ds, rfl, _, hi, by rwa [count_newline_of_integer hi]⟩

theorem startString_iff (hq : c = '\'' ∨ c = '"') : (∃ u s ds, cs = u ++ c :: ds ∧ Quoted c u s ∧
    ValueLeft as done slot.key slot.line slot.sequences (.string (String.ofList s))
      (line + (c :: (u ++ [c])).count '\n') ds) ↔ StringLeft as done slot line c "" cs := by
  have hn {u s : List Char} (hs : Quoted c u s) : (c :: (u ++ [c])).count '\n' = 0 := by
    rcases hq with rfl | rfl <;> simp [count_newline_of_quoted hs]
  constructor
  · intro h
    obtain ⟨u, s, ds, rfl, hs, hv⟩ := h
    rw [hn hs] at hv
    exact ⟨u, s, ds, rfl, hs, by simpa using hv⟩
  · intro h
    obtain ⟨u, s, ds, rfl, hs, hv⟩ := h
    refine ⟨u, s, ds, rfl, hs, ?_⟩
    rw [hn hs]
    simpa using hv

theorem startSequence_iff : (∃ u vs ds, cs = u ++ ']' :: ds ∧ Items u vs ∧
    ValueLeft as done slot.key slot.line slot.sequences (.sequence vs)
      (line + ('[' :: (u ++ [']'])).count '\n') ds) ↔
    BeforeLeft as done { slot with sequences := ⟨line, []⟩ :: slot.sequences } line cs := by
  have hn (u : List Char) : ('[' :: (u ++ [']'])).count '\n' = u.count '\n' := by simp
  simp only [BeforeLeft, ItemsLeft, hn, List.nil_append]

theorem startLeft_cons : StartLeft as done slot line (c :: cs) ↔
    (c = '\'' ∨ c = '"') ∧ StringLeft as done slot line c "" cs ∨
    c = '[' ∧ BeforeLeft as done { slot with sequences := ⟨line, []⟩ :: slot.sequences } line cs ∨
    Digit c ∧ IntegerLeft as done slot line "" [c] cs ∨
    (c = '+' ∨ c = '-') ∧ IntegerLeft as done slot line (String.singleton c) [] cs ∨
    Letter c ∧ WordLeft as done slot line [c] cs := by
  rw [startLeft_iff, ← or_assoc (a := Digit c ∧ _), ← startInteger_iff, ← startWord_iff,
    ← startSequence_iff]
  constructor
  · intro h
    obtain ⟨t, ds, rfl, v, hv, h⟩ := h
    rcases value_cons.mp hv with ⟨b, hw, rfl⟩ | ⟨n, hn, rfl⟩ | ⟨hq, u, s, rfl, hs, rfl⟩ |
      ⟨rfl, u, vs, rfl, hs, rfl⟩
    · exact .inr (.inr (.inr ⟨t, ds, rfl, b, hw, h⟩))
    · exact .inr (.inr (.inl ⟨t, ds, rfl, n, hn, h⟩))
    · exact .inl ⟨hq, (startString_iff hq).mp ⟨u, s, ds, by simp, hs, h⟩⟩
    · exact .inr (.inl ⟨rfl, u, vs, ds, by simp, hs, h⟩)
  · intro h
    rcases h with ⟨hq, h⟩ | ⟨rfl, u, vs, ds, rfl, hs, h⟩ | ⟨t, ds, rfl, n, hn, h⟩ |
      ⟨t, ds, rfl, b, hw, h⟩
    · obtain ⟨u, s, ds, rfl, hs, hv⟩ := (startString_iff hq).mpr h
      exact ⟨u ++ [c], ds, by simp, _, .string hq hs, hv⟩
    · exact ⟨u ++ [']'], ds, by simp, _, .sequence hs, h⟩
    · exact ⟨t, ds, rfl, _, .integer hn, h⟩
    · exact ⟨t, ds, rfl, _, .word hw, h⟩

variable {quote : Char} {text : String}

theorem not_stringLeft_nil : ¬ StringLeft as done slot line quote text [] := by
  intro h
  obtain ⟨t, s, ds, he, -⟩ := h
  simp at he

theorem not_escapeLeft_nil : ¬ EscapeLeft as done slot line quote text [] := by
  intro h
  obtain ⟨c, e, ds, he, -⟩ := h
  cases he

theorem escapeLeft_cons : EscapeLeft as done slot line quote text (c :: cs) ↔
    c ≠ '\n' ∧
      StringLeft as done slot line quote (text ++ String.ofList (State.escapeText c)) cs := by
  constructor
  · intro h
    obtain ⟨d, e, ds, he, h, hs⟩ := h
    obtain ⟨rfl, rfl⟩ := List.cons.inj he
    obtain ⟨hc, rfl⟩ := escape_iff.mp h
    exact ⟨hc, hs⟩
  · intro h
    obtain ⟨hc, hs⟩ := h
    exact ⟨c, _, cs, rfl, escape_iff.mpr ⟨hc, rfl⟩, hs⟩

theorem push_append_ofList (text : String) (c : Char) (s : List Char) :
    text.push c ++ String.ofList s = text ++ String.ofList (c :: s) := by
  rw [String.push_eq_append, String.ofList_cons, String.append_assoc]

theorem stringLeft_cons (hq : quote = '\'' ∨ quote = '"') :
    StringLeft as done slot line quote text (c :: cs) ↔ c ≠ '\n' ∧
      if c = quote then ValueLeft as done slot.key slot.line slot.sequences (.string text) line cs
      else if c = '\\' then EscapeLeft as done slot line quote text cs
      else StringLeft as done slot line quote (text.push c) cs := by
  constructor
  · intro h
    obtain ⟨t, s, ds, he, h, hv⟩ := h
    rcases List.cons_eq_append_iff.mp he with ⟨rfl, hd⟩ | ⟨t, rfl, rfl⟩
    · obtain ⟨rfl, rfl⟩ := List.cons.inj hd
      obtain rfl := quoted_nil.mp h
      refine ⟨by rintro rfl; simp at hq, ?_⟩
      simpa using hv
    · rcases quoted_cons.mp h with
        ⟨⟨hc, hb, hn⟩, s, hs, rfl⟩ | ⟨rfl, d, e, u, s, rfl, hd, hs, rfl⟩
      · refine ⟨hn, ?_⟩
        rw [if_neg hc, if_neg hb]
        exact ⟨t, s, ds, rfl, hs, by rwa [push_append_ofList]⟩
      · have hb : '\\' ≠ quote := by rintro rfl; simp at hq
        refine ⟨by decide, ?_⟩
        rw [if_neg hb, if_pos rfl]
        refine ⟨d, e, u ++ quote :: ds, rfl, hd, u, s, ds, rfl, hs, ?_⟩
        rwa [String.append_assoc, ← String.ofList_append]
  · intro h
    obtain ⟨hn, h⟩ := h
    split at h
    · next hc =>
      subst hc
      exact ⟨[], [], cs, rfl, .nil, by simpa using h⟩
    · next hc =>
      split at h
      · next hb =>
        subst hb
        obtain ⟨d, e, _, rfl, hd, u, s, ds, rfl, h, hv⟩ := h
        refine ⟨'\\' :: d :: u, e ++ s, ds, rfl, .escape hd h, ?_⟩
        rwa [String.ofList_append, ← String.append_assoc]
      · next hb =>
        obtain ⟨t, s, ds, rfl, h, hv⟩ := h
        exact ⟨c :: t, c :: s, ds, rfl, .plain ⟨hc, hb, hn⟩ h, by rwa [← push_append_ofList]⟩

end Values

end ListfileSettings.Assignment
