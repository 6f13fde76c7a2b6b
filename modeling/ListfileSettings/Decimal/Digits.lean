/-!
# Decimal digits

Whole numbers in base ten. `digits` writes a number without leading zeros and `value` reads a run
of digits back; `signed?` reads an optional sign before the digits.
-/
namespace ListfileSettings.Decimal

def digit (n : Nat) : Char := Char.ofNat (48 + n)

def digits (n : Nat) : List Char :=
  if n < 10 then [digit n] else digits (n / 10) ++ [digit (n % 10)]

/-- Whole part of the digits read so far, with one more digit. -/
def push (n : Nat) (c : Char) : Nat := 10 * n + (c.toNat - 48)

def value (cs : List Char) : Nat := cs.foldl push 0

def integerDigits : Int → List Char
  | .ofNat n => digits n
  | .negSucc n => '-' :: digits (n + 1)

def naturalText (n : Nat) : String := String.ofList (digits n)

def integerText (i : Int) : String := String.ofList (integerDigits i)

/-- The number that a run of ASCII digits denotes, if there is at least one and nothing else. -/
def natural? (cs : List Char) : Option Nat :=
  if !cs.isEmpty && cs.all Char.isDigit then some (value cs) else none

/-- A run of digits after at most one sign. -/
def signed? : List Char → Option Int
  | '-' :: cs => (natural? cs).map fun n => -(n : Int)
  | '+' :: cs => (natural? cs).map Int.ofNat
  | cs => (natural? cs).map Int.ofNat

theorem digit_all : ∀ n, n < 10 → (digit n).toNat = 48 + n ∧ (digit n).isDigit = true := by
  decide

theorem toNat_digit {n : Nat} (h : n < 10) : (digit n).toNat = 48 + n := (digit_all n h).1

theorem isDigit_digit {n : Nat} (h : n < 10) : (digit n).isDigit = true := (digit_all n h).2

theorem value_append (cs : List Char) (c : Char) :
    value (cs ++ [c]) = push (value cs) c := by
  simp [value]

theorem digits_ne_nil (n : Nat) : digits n ≠ [] := by
  unfold digits
  split <;> simp

theorem isDigit_of_mem_digits {n : Nat} {c : Char} (h : c ∈ digits n) : c.isDigit = true := by
  induction n using Nat.strongRecOn with
  | ind n ih =>
    unfold digits at h
    split at h
    · next hn => simp at h; exact h ▸ isDigit_digit hn
    · next hn =>
      rcases List.mem_append.mp h with h | h
      · exact ih (n / 10) (by omega) h
      · simp at h
        exact h ▸ isDigit_digit (by omega)

theorem value_digits (n : Nat) : value (digits n) = n := by
  induction n using Nat.strongRecOn with
  | ind n ih =>
    unfold digits
    split
    · next hn => simp [value, push, toNat_digit hn]
    · next hn =>
      rw [value_append, ih (n / 10) (by omega), push, toNat_digit (by omega)]
      omega

end ListfileSettings.Decimal
