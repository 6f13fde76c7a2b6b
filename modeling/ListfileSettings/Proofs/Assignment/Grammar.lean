import ListfileSettings.Assignment

/-!
# The grammar of settings texts

What a settings text is and which assignments it denotes, said without a reader. A text is a
sequence of logical lines with line breaks between them. Only a sequence in brackets goes over
more than one line of the text.
-/
namespace ListfileSettings.Assignment.Grammar

/-! ### Parts of a line -/

def Blank (c : Char) : Prop := c = ' ' ∨ c = '\t' ∨ c = '\r' ∨ c = '\x0c'

def Blanks (t : List Char) : Prop := ∀ c ∈ t, Blank c

def Letter (c : Char) : Prop := 'a' ≤ c ∧ c ≤ 'z' ∨ 'A' ≤ c ∧ c ≤ 'Z' ∨ c = '_'

def Digit (c : Char) : Prop := '0' ≤ c ∧ c ≤ '9'

/-- A comment goes up to the end of its line. -/
inductive Comment : List Char → Prop
  | mk {t : List Char} (h : '\n' ∉ t) : Comment ('#' :: t)

inductive Identifier : List Char → Prop
  | mk {c : Char} {t : List Char} (h : Letter c) (hs : ∀ d ∈ t, Letter d ∨ Digit d) :
      Identifier (c :: t)

/-- What can follow the last part of a line. -/
inductive Trailer : List Char → Prop
  | blanks {t : List Char} (h : Blanks t) : Trailer t
  | comment {t u : List Char} (h : Blanks t) (hc : Comment u) : Trailer (t ++ u)

/-- What can stand between the parts of a sequence. Something follows it, so a comment in it has
a line break after it. -/
inductive Layout : List Char → Prop
  | nil : Layout []
  | blank {c : Char} {t : List Char} (h : Blank c) (hs : Layout t) : Layout (c :: t)
  | newline {t : List Char} (hs : Layout t) : Layout ('\n' :: t)
  | comment {t u : List Char} (h : Comment t) (hs : Layout u) : Layout (t ++ '\n' :: u)

/-! ### Values -/

/-- The words for the two truth values. -/
inductive Word : List Char → Bool → Prop
  | trueUpper : Word ['T', 'r', 'u', 'e'] true
  | trueLower : Word ['t', 'r', 'u', 'e'] true
  | falseUpper : Word ['F', 'a', 'l', 's', 'e'] false
  | falseLower : Word ['f', 'a', 'l', 's', 'e'] false

/-- Groups of digits with single underscores between them, and the number they denote. -/
inductive Digits : List Char → Nat → Prop
  | mk {gs : List (List Char)} (h : gs ≠ []) (hs : ∀ g ∈ gs, g ≠ [] ∧ ∀ c ∈ g, Digit c) :
      Digits (['_'].intercalate gs) (Decimal.value gs.flatten)

inductive Integer : List Char → Int → Prop
  | unsigned {t : List Char} {n : Nat} (h : Digits t n) : Integer t n
  | plus {t : List Char} {n : Nat} (h : Digits t n) : Integer ('+' :: t) n
  | minus {t : List Char} {n : Nat} (h : Digits t n) : Integer ('-' :: t) (-n)

/-- What a character after a backslash denotes together with it. -/
inductive Escape : Char → List Char → Prop
  | newline : Escape 'n' ['\n']
  | tab : Escape 't' ['\t']
  | itself {c : Char} (h : c = '\\' ∨ c = '\'' ∨ c = '"') : Escape c [c]
  | kept {c : Char} (h : c ∉ ['n', 't', '\\', '\'', '"', '\n']) : Escape c ['\\', c]

/-- What stands between two quotes `q`, and the text it denotes. -/
inductive Quoted (q : Char) : List Char → List Char → Prop
  | nil : Quoted q [] []
  | plain {c : Char} {t s : List Char} (h : c ≠ q ∧ c ≠ '\\' ∧ c ≠ '\n') (hs : Quoted q t s) :
      Quoted q (c :: t) (c :: s)
  | escape {c : Char} {e t s : List Char} (h : Escape c e) (hs : Quoted q t s) :
      Quoted q ('\\' :: c :: t) (e ++ s)

mutual

inductive Value : List Char → Literal → Prop
  | word {t : List Char} {b : Bool} (h : Word t b) : Value t (.boolean b)
  | integer {t : List Char} {n : Int} (h : Integer t n) :
      Value t (.integer (Decimal.Wide.clamp n))
  | string {q : Char} {t s : List Char} (hq : q = '\'' ∨ q = '"') (h : Quoted q t s) :
      Value (q :: (t ++ [q])) (.string (String.ofList s))
  | sequence {t : List Char} {vs : List Literal} (h : Items t vs) :
      Value ('[' :: (t ++ [']'])) (.sequence vs)

/-- What stands between two brackets: layout, or a value with layout around it and more items. -/
inductive Items : List Char → List Literal → Prop
  | none {l : List Char} (h : Layout l) : Items l []
  | some {l t u : List Char} {v : Literal} {vs : List Literal} (h : Layout l) (hv : Value t v)
      (hs : MoreItems u vs) : Items (l ++ t ++ u) (v :: vs)

/-- What stands between an item and the bracket: layout, or a comma and items, if there are any. -/
inductive MoreItems : List Char → List Literal → Prop
  | none {l : List Char} (h : Layout l) : MoreItems l []
  | comma {l t : List Char} {vs : List Literal} (h : Layout l) (hs : Items t vs) :
      MoreItems (l ++ ',' :: t) vs

end

/-! ### Lines -/

/-- A logical line that begins on line `n`. -/
inductive Line (n : Nat) : List Char → List Assignment → Prop
  | empty {t : List Char} (h : Trailer t) : Line n t []
  | assignment {b₁ k b₂ b₃ t u : List Char} {v : Literal} (h₁ : Blanks b₁) (hk : Identifier k)
      (h₂ : Blanks b₂) (h₃ : Blanks b₃) (hv : Value t v) (hu : Trailer u) :
      Line n (b₁ ++ (k ++ (b₂ ++ '=' :: (b₃ ++ (t ++ u))))) [⟨String.ofList k, v, n⟩]

/-- Logical lines of which the first begins on line `n`. -/
inductive Lines : Nat → List Char → List Assignment → Prop
  | last {n : Nat} {t : List Char} {as : List Assignment} (h : Line n t as) : Lines n t as
  | more {n : Nat} {t u : List Char} {as bs : List Assignment} (h : Line n t as)
      (hs : Lines (n + t.count '\n' + 1) u bs) : Lines n (t ++ '\n' :: u) (as ++ bs)

/-- A settings text, which can have one byte order mark before it, and its assignments. -/
def Denotes (text : String) (as : List Assignment) : Prop :=
  ∃ t, Lines 1 t as ∧ (text.toList = t ∨ text.toList = '\uFEFF' :: t)

end ListfileSettings.Assignment.Grammar
