/-!
# Octets of a text

The encoding of characters as one to four octets and its reader. The reader goes octet by octet;
inside a character it owes a number of further octets, and the first one it owes can be bounded
more tightly than the rest, which leaves out overlong forms, surrogates and numbers that are no
characters. A text that is not well encoded has a `Flaw`.
-/
namespace ListfileSettings.Text.Utf8

def encodeChar (c : Char) : List UInt8 :=
  let n := c.toNat
  if n < 0x80 then [.ofNat n]
  else if n < 0x800 then [.ofNat (0xC0 + n / 0x40), .ofNat (0x80 + n % 0x40)]
  else if n < 0x10000 then
    [.ofNat (0xE0 + n / 0x1000), .ofNat (0x80 + n / 0x40 % 0x40), .ofNat (0x80 + n % 0x40)]
  else
    [.ofNat (0xF0 + n / 0x40000), .ofNat (0x80 + n / 0x1000 % 0x40),
      .ofNat (0x80 + n / 0x40 % 0x40), .ofNat (0x80 + n % 0x40)]

def encode (cs : List Char) : List UInt8 := cs.flatMap encodeChar

/-- A character that has begun: its bits so far, the octets it still owes and the bounds of the
next one. -/
structure Begun where
  bits : Nat
  owed : Nat
  least : Nat
  greatest : Nat
  deriving DecidableEq, Repr

/-- What the first octet of a character of more than one octet begins. -/
def begin? (b : Nat) : Option Begun :=
  if b < 0xC2 then none
  else if b < 0xE0 then some ⟨b - 0xC0, 1, 0x80, 0xBF⟩
  else if b = 0xE0 then some ⟨0, 2, 0xA0, 0xBF⟩
  else if b = 0xED then some ⟨0xD, 2, 0x80, 0x9F⟩
  else if b < 0xF0 then some ⟨b - 0xE0, 2, 0x80, 0xBF⟩
  else if b = 0xF0 then some ⟨0, 3, 0x90, 0xBF⟩
  else if b < 0xF4 then some ⟨b - 0xF0, 3, 0x80, 0xBF⟩
  else if b = 0xF4 then some ⟨4, 3, 0x80, 0x8F⟩
  else none

/-- Where an encoded text goes wrong: after `valid` octets that are well encoded come `length`
octets of a character that cannot go on, or the text ends inside a character. -/
structure Flaw where
  valid : Nat
  length : Option Nat
  deriving DecidableEq, Repr

/-- Reads on after `valid` octets of whole characters, and after `read` octets of `begun`. -/
def decodeFrom (valid read : Nat) : Option Begun → List UInt8 → Except Flaw (List Char)
  | none, [] => .ok []
  | some _, [] => .error ⟨valid, none⟩
  | none, b :: bs =>
    if b.toNat < 0x80 then
      (decodeFrom (valid + 1) 0 none bs).map (Char.ofNat b.toNat :: ·)
    else
      match begin? b.toNat with
      | some begun => decodeFrom valid 1 (some begun) bs
      | none => .error ⟨valid, some 1⟩
  | some ⟨bits, owed, least, greatest⟩, b :: bs =>
    if b.toNat < least || greatest < b.toNat then .error ⟨valid, some read⟩
    else
      let bits := bits * 0x40 + (b.toNat - 0x80)
      if owed ≤ 1 then
        (decodeFrom (valid + read + 1) 0 none bs).map (Char.ofNat bits :: ·)
      else decodeFrom valid (read + 1) (some ⟨bits, owed - 1, 0x80, 0xBF⟩) bs

def decode (bs : List UInt8) : Except Flaw (List Char) := decodeFrom 0 0 none bs

def size : List Char → Nat
  | [] => 0
  | c :: cs => c.utf8Size + size cs

/-- What is left of a text after that many octets; a character that they end in is left out. -/
def drop : Nat → List Char → List Char
  | 0, cs => cs
  | _, [] => []
  | n + 1, c :: cs => drop (n + 1 - c.utf8Size) cs

end ListfileSettings.Text.Utf8
