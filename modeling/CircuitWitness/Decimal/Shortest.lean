/-
  The fewest decimal digits that read back as a given binary64 number.

  A positive finite number is `m · 2 ^ q` for a significand `m` below `2 ^ 53`.  The reals that
  round to it form an interval around it: half a step up, half a step down (a quarter of a step
  down where the step below is finer), and its ends belong to it when `m` is even.

  For one digit, two digits and so on there is a decimal grid at the number's own magnitude, and
  if any point of that grid lies in the interval, then so does one of the two neighbours of the
  number.  The first grid with such a neighbour is the shortest, and of two neighbours the nearer
  is taken, the even one if both are equally near.  All of it is exact arithmetic on naturals.
-/

namespace CircuitWitness.Decimal

/-- A positive decimal `digits · 10 ^ exponent`. -/
structure Digits where
  digits : Nat
  exponent : Int
deriving DecidableEq, Inhabited

/-- A positive binary number with the interval of reals that round to it, on one scale: the
    number is `value · scale`, the interval goes from `low · scale` to `high · scale`, and
    `scale = num / den`. -/
structure Binary where
  value : Nat
  low : Nat
  high : Nat
  /-- Whether the ends belong to the interval. -/
  closed : Bool
  num : Nat
  den : Nat
deriving DecidableEq, Inhabited

namespace Binary

/-- The number `m · 2 ^ q`.  `fine` says that the step below it is half the step above it. -/
def ofParts (m : Nat) (q : Int) (fine : Bool) : Binary where
  value := 4 * m
  low := if fine then 4 * m - 1 else 4 * m - 2
  high := 4 * m + 2
  closed := m % 2 == 0
  num := 1 <<< (q - 2).toNat
  den := 1 <<< (2 - q).toNat

/-- The exponent `e` with `10 ^ e ≤ b < 10 ^ (e + 1)`.  No binary64 number is as small as
    `10 ^ -400`, so the scaled number has at least one digit. -/
def magnitude (b : Binary) : Int :=
  ((Nat.toDigits 10 (b.value * b.num * Nat.pow 10 400 / b.den)).length : Int) - 401

/-- Whether `d · 10 ^ k` rounds to the number. -/
def covers (b : Binary) (d : Nat) (k : Int) : Bool :=
  let point := d * Nat.pow 10 k.toNat * b.den
  let unit := b.num * Nat.pow 10 (-k).toNat
  if b.closed then b.low * unit ≤ point && point ≤ b.high * unit
  else b.low * unit < point && point < b.high * unit

/-- The better of the number's two neighbours on the grid of multiples of `10 ^ k`, if one of
    them rounds to the number. -/
def neighbour? (b : Binary) (k : Int) : Option Digits :=
  let grid := Nat.pow 10 k.toNat * b.den
  let exact := b.value * b.num * Nat.pow 10 (-k).toNat
  let below := exact / grid
  let above := below + 1
  match b.covers below k, b.covers above k with
  | false, false => none
  | true, false => some ⟨below, k⟩
  | false, true => some ⟨above, k⟩
  | true, true =>
    let down := exact - below * grid
    let up := above * grid - exact
    if down < up ∨ (down = up ∧ below % 2 = 0) then some ⟨below, k⟩ else some ⟨above, k⟩

end Binary

/-- Drop the zeros at the end of the digits, at most `fuel` of them. -/
def Digits.strip : Nat → Digits → Digits
  | 0, d => d
  | fuel + 1, d =>
    if d.digits ≠ 0 ∧ d.digits % 10 = 0 then strip fuel ⟨d.digits / 10, d.exponent + 1⟩ else d

/-- The shortest digits of a positive number.  Seventeen always suffice. -/
def Binary.shortest (b : Binary) : Digits :=
  let e := b.magnitude
  let found := (List.range 17).findSome? fun (n : Nat) => b.neighbour? (e - (n : Int))
  (found.getD ⟨0, 0⟩).strip 20

/-- The shortest digits of the magnitude of a finite number, zero for zero. -/
def shortest (x : Float) : Digits :=
  let bits := x.toBits.toNat
  let biased : Nat := (bits >>> 52) % (1 <<< 11)
  let fraction : Nat := bits % (1 <<< 52)
  if biased = 0 then
    if fraction = 0 then ⟨0, 0⟩ else (Binary.ofParts fraction (-1074) false).shortest
  else
    (Binary.ofParts ((1 <<< 52) + fraction) ((biased : Int) - 1075)
      (fraction == 0 && decide (1 < biased))).shortest

end CircuitWitness.Decimal
