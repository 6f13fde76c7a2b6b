import ListfileSettings.Decimal.Digits

/-!
# Shortest decimals

The shortest decimal that rounds to a given floating-point number, found by exact comparison of
natural numbers. A number is written out in full when its leading digit stands near the point and
with an exponent otherwise.
-/
namespace ListfileSettings.Decimal

/-- A positive number `significand * 2 ^ exponent`. -/
structure Binary where
  significand : Nat
  exponent : Int
  /-- The next smaller number is only half as far away as the next larger one. -/
  isNarrowBelow : Bool

/-- The number with these bits, its sign left out. -/
def Binary.ofBits (bits : UInt64) : Binary :=
  let e := (bits >>> 52 &&& 0x7FF).toNat
  let f := (bits &&& 0xFFFFFFFFFFFFF).toNat
  if e = 0 then ⟨f, -1074, false⟩ else ⟨0x10000000000000 + f, (e : Int) - 1075, f == 0 && e > 1⟩

/-- The number `digits * 10 ^ exponent`. -/
structure Scaled where
  digits : Nat
  exponent : Int
  deriving DecidableEq, Repr

def compareScaled (a : Nat) (i : Int) (n : Nat) (j : Int) : Ordering :=
  compare (a * Nat.pow 10 i.toNat * Nat.pow 2 (-j).toNat)
    (n * Nat.pow 2 j.toNat * Nat.pow 10 (-i).toNat)

/-- Whether the decimal rounds to the number: it lies between the two half-way points, which
count when the significand is even. -/
def Binary.isNear (x : Binary) (d : Scaled) : Bool :=
  let low := compareScaled d.digits d.exponent
    (4 * x.significand - if x.isNarrowBelow then 1 else 2) (x.exponent - 2)
  let high := compareScaled d.digits d.exponent (4 * x.significand + 2) (x.exponent - 2)
  let closed := x.significand % 2 == 0
  (low == .gt || closed && low == .eq) && (high == .lt || closed && high == .eq)

/-- The greatest multiple of `10 ^ exponent` that is not above the number. -/
def Binary.floorAt (x : Binary) (exponent : Int) : Nat :=
  x.significand * Nat.pow 2 x.exponent.toNat * Nat.pow 10 (-exponent).toNat /
    (Nat.pow 10 exponent.toNat * Nat.pow 2 (-x.exponent).toNat)

/-- The nearer of the two multiples of `10 ^ exponent` around the number that round to it; the
even one if both are as near. -/
def Binary.onGrid? (x : Binary) (exponent : Int) : Option Scaled :=
  let below : Scaled := ⟨x.floorAt exponent, exponent⟩
  let above : Scaled := ⟨below.digits + 1, exponent⟩
  match x.isNear below, x.isNear above with
  | true, true =>
    match compareScaled (below.digits + above.digits) exponent (2 * x.significand) x.exponent with
    | .gt => some below
    | .lt => some above
    | .eq => some (if below.digits % 2 = 0 then below else above)
  | true, false => some below
  | false, true => some above
  | false, false => none

/-- The least `k` from `start` on, within `fuel` steps, for which the number is below `10 ^ k`. -/
def Binary.scaleFrom (x : Binary) : Nat → Int → Int
  | 0, k => k
  | fuel + 1, k =>
    if compareScaled 1 k x.significand x.exponent == .gt then k else x.scaleFrom fuel (k + 1)

/-- The least `k` for which the number is below `10 ^ k`: its binary length gives a lower bound
that is a few steps away. -/
def Binary.scale (x : Binary) : Int :=
  let length := (Nat.log2 x.significand : Int) + x.exponent
  x.scaleFrom 8 (length * 30102 / 100000 - 2)

/-- Seventeen digits are always enough. -/
def Binary.shortest (x : Binary) : Scaled :=
  let k := x.scale
  let d? := (List.range 17).findSome? fun (n : Nat) => x.onGrid? (k - (n + 1))
  d?.getD ⟨x.floorAt (k - 17), k - 17⟩

def trimZeros (ds : List Char) : List Char := (ds.reverse.dropWhile (· == '0')).reverse

/-- Numbers from a hundred-thousandth to below ten to the sixteenth are written in full. -/
def isPlain (lead : Int) : Bool := -5 ≤ lead && lead < 16

/-- Writes digits whose first one stands at `10 ^ lead`, always with a point or an exponent. -/
def layOut (ds : List Char) (lead : Int) : List Char :=
  if isPlain lead then
    if lead < 0 then ['0', '.'] ++ List.replicate (-lead - 1).toNat '0' ++ ds
    else
      let whole := lead.toNat + 1
      let fraction := ds.drop whole
      ds.take whole ++ List.replicate (whole - ds.length) '0' ++ ['.'] ++
        (if fraction.isEmpty then ['0'] else fraction)
  else
    let mantissa := match ds with
      | [] => ['0']
      | [d] => [d]
      | d :: ds => d :: '.' :: ds
    mantissa ++ ['e', if lead < 0 then '-' else '+'] ++ digits lead.natAbs

def floatText (x : Float) : String :=
  let bits := x.toBits
  let sign := if bits >>> 63 == 1 then ['-'] else []
  let b := Binary.ofBits bits
  if b.significand = 0 then String.ofList (sign ++ ['0', '.', '0'])
  else
    let d := b.shortest
    let ds := digits d.digits
    String.ofList (sign ++ layOut (trimZeros ds) (ds.length - 1 + d.exponent))

end ListfileSettings.Decimal
