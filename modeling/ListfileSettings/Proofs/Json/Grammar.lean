import ListfileSettings.Literal

/-!
# JSON texts of literals

What a JSON text of literals is, said without a reader: integers in decimal, the two words for the
truth values, strings with any of their escapes and lists, with space where it is allowed; and an
object that has a member for each binding of a name.
-/
namespace ListfileSettings.Json.Grammar

/-! ### Strings -/

def Space (t : List Char) : Prop := ∀ c ∈ t, c = ' ' ∨ c = '\n' ∨ c = '\t' ∨ c = '\r'

/-- A digit in base sixteen, with small or large letters, and the number it denotes. -/
inductive HexDigit : Char → Nat → Prop
  | digit {n : Nat} (h : n < 10) : HexDigit (Char.ofNat ('0'.toNat + n)) n
  | small {n : Nat} (h : n < 6) : HexDigit (Char.ofNat ('a'.toNat + n)) (10 + n)
  | large {n : Nat} (h : n < 6) : HexDigit (Char.ofNat ('A'.toNat + n)) (10 + n)

/-- Four digits in base sixteen and the number they denote. -/
inductive Quad : List Char → Nat → Prop
  | mk {a b c d : Char} {i j k l : Nat} (ha : HexDigit a i) (hb : HexDigit b j)
      (hc : HexDigit c k) (hd : HexDigit d l) :
      Quad [a, b, c, d] (((i * 16 + j) * 16 + k) * 16 + l)

/-- What can stand after a backslash and the character it denotes. -/
inductive Escape : List Char → Char → Prop
  | itself {c : Char} (h : c = '"' ∨ c = '\\' ∨ c = '/') : Escape [c] c
  | backspace : Escape ['b'] '\x08'
  | formFeed : Escape ['f'] '\x0c'
  | newline : Escape ['n'] '\n'
  | carriageReturn : Escape ['r'] '\r'
  | tab : Escape ['t'] '\t'
  | code {t : List Char} {c : Char} (h : Quad t c.toNat) : Escape ('u' :: t) c
  | surrogates {t u : List Char} {high low : Nat} {c : Char} (ht : Quad t (0xD800 + high))
      (hu : Quad u (0xDC00 + low)) (hl : high < 0x400 ∧ low < 0x400)
      (hc : c.toNat = 0x10000 + high * 0x400 + low) : Escape ('u' :: (t ++ '\\' :: 'u' :: u)) c

/-- What stands between two quotes, and the text it denotes. -/
inductive Quoted : List Char → List Char → Prop
  | nil : Quoted [] []
  | plain {c : Char} {t s : List Char} (h : c ≠ '"' ∧ c ≠ '\\' ∧ 32 ≤ c.toNat)
      (hs : Quoted t s) : Quoted (c :: t) (c :: s)
  | escape {e t s : List Char} {c : Char} (h : Escape e c) (hs : Quoted t s) :
      Quoted ('\\' :: (e ++ t)) (c :: s)

/-! ### Values -/

inductive Word : List Char → Bool → Prop
  | trueWord : Word ['t', 'r', 'u', 'e'] true
  | falseWord : Word ['f', 'a', 'l', 's', 'e'] false

mutual

inductive Value : List Char → Literal → Prop
  | word {t : List Char} {b : Bool} (h : Word t b) : Value t (.boolean b)
  | integer (n : Decimal.Wide) : Value (Decimal.integerDigits n.val) (.integer n)
  | string {t s : List Char} (h : Quoted t s) :
      Value ('"' :: (t ++ ['"'])) (.string (String.ofList s))
  | sequence {t : List Char} {vs : List Literal} (h : Items t vs) :
      Value ('[' :: (t ++ [']'])) (.sequence vs)

/-- What stands between two brackets: space, or a value with space around it and more items. -/
inductive Items : List Char → List Literal → Prop
  | none {l : List Char} (h : Space l) : Items l []
  | some {l t l' u : List Char} {v : Literal} {vs : List Literal} (h : Space l) (hv : Value t v)
      (h' : Space l') (hs : MoreItems u vs) : Items (l ++ (t ++ (l' ++ u))) (v :: vs)

/-- What stands between an item and the bracket: nothing, or a comma and more items. -/
inductive MoreItems : List Char → List Literal → Prop
  | none : MoreItems [] []
  | comma {l t l' u : List Char} {v : Literal} {vs : List Literal} (h : Space l)
      (hv : Value t v) (h' : Space l') (hs : MoreItems u vs) :
      MoreItems (',' :: (l ++ (t ++ (l' ++ u)))) (v :: vs)

end

/-! ### Objects -/

/-- A name and a value with a colon between them, and space around each of the three. -/
inductive Member : List Char → String × Literal → Prop
  | mk {l t l₁ l₂ u l' s : List Char} {v : Literal} (h : Space l) (ht : Quoted t s)
      (h₁ : Space l₁) (h₂ : Space l₂) (hv : Value u v) (h' : Space l') :
      Member (l ++ '"' :: (t ++ '"' :: (l₁ ++ ':' :: (l₂ ++ (u ++ l'))))) (String.ofList s, v)

inductive MoreMembers : List Char → List (String × Literal) → Prop
  | none : MoreMembers [] []
  | comma {t u : List Char} {b : String × Literal} {bs : List (String × Literal)}
      (h : Member t b) (hs : MoreMembers u bs) : MoreMembers (',' :: (t ++ u)) (b :: bs)

inductive Members : List Char → List (String × Literal) → Prop
  | none {l : List Char} (h : Space l) : Members l []
  | some {t u : List Char} {b : String × Literal} {bs : List (String × Literal)}
      (h : Member t b) (hs : MoreMembers u bs) : Members (t ++ u) (b :: bs)

/-- A JSON text of an object with these members, in this order. -/
def Denotes (text : String) (bs : List (String × Literal)) : Prop :=
  ∃ l t l', Space l ∧ Members t bs ∧ Space l' ∧ text.toList = l ++ '{' :: (t ++ '}' :: l')

end ListfileSettings.Json.Grammar
