import CircuitWitness.Json.Value
import CircuitWitness.Text.Digit
/-
  Numbers in JSON documents.

      number  ::=  ['-'] ( '0' | nonzero digit* ) [ '.' digit+ ] [ ('e' | 'E') ['+' | '-'] digit+ ]

  The digits are gathered into a 64-bit significand.  Once the next digit would not fit, the
  digits still to come before the point only raise the decimal exponent, and those after the
  point are dropped from the first one on that does not fit.  A number without point and mark is
  an integer if it fits a 64-bit word.  Every other number is the significand, rounded to
  binary64 and scaled by one power of ten at a time; it is refused when it leaves the finite range
  upwards.

  The exponent is a 32-bit word; a longer one makes the number zero if it is negative or if the
  significand is zero, and is refused otherwise.
-/

namespace CircuitWitness.Json.Number

/-- Whether a significand still fits when the digit `d` follows it. -/
def fits (significand d : Nat) : Bool := significand * 10 + d < UInt64.size

/-- The largest power of ten that is finite in binary64. -/
def largestPower : Nat := 308

/-- The power `10 ^ n`, rounded to binary64. -/
def powerOfTen (n : Nat) : Float := Float.ofScientific 1 false n

/-- `f · 10 ^ (-n)` by division; `fuel` bounds the divisions by the largest power. -/
def scaleDown : Nat → Float → Nat → Float
  | 0, f, _ => f
  | fuel + 1, f, n =>
    if n ≤ largestPower then f / powerOfTen n
    else if f == 0.0 then f
    else scaleDown fuel (f / powerOfTen largestPower) (n - largestPower)

/-- `significand · 10 ^ exponent` in binary64, unless it is too large.  Three divisions by the
    largest power take any significand to zero. -/
def scale? (significand : Nat) (exponent : Int) : Option Float :=
  let f := Float.ofNat significand
  if exponent < 0 then some (scaleDown 4 f exponent.natAbs)
  else if exponent ≤ largestPower then
    let scaled := f * powerOfTen exponent.natAbs
    if scaled.isInf then none else some scaled
  else if significand = 0 then some f
  else none

/-- The real number with the given sign. -/
def signed (negative : Bool) (f : Float) : Value := .real (if negative then -f else f)

/-- The digits of an exponent, and what follows them.  An exponent that leaves the 32-bit range is
    answered by nothing. -/
def exponentDigits : Nat → List Char → Option Nat × List Char
  | acc, [] => (some acc, [])
  | acc, c :: rest =>
    match Text.digit? 10 c with
    | none => (some acc, c :: rest)
    | some d =>
      if acc * 10 + d < 1 <<< 31 then exponentDigits (acc * 10 + d) rest
      else (none, rest.dropWhile (Text.isDigit 10))

/-- After the mark `e`: the number whose significand and exponent so far are given. -/
def afterMark? (negative : Bool) (significand : Nat) (exponent : Int) (cs : List Char) :
    Option (Value × List Char) :=
  let (down, cs) : Bool × List Char := match cs with
    | '+' :: rest => (false, rest)
    | '-' :: rest => (true, rest)
    | cs => (false, cs)
  match cs with
  | [] => none
  | c :: _ =>
    if !Text.isDigit 10 c then none
    else
      match exponentDigits 0 cs with
      | (some e, rest) =>
        let total := if down then exponent - (e : Int) else exponent + (e : Int)
        (scale? significand total).map fun f => (signed negative f, rest)
      | (none, rest) =>
        if significand ≠ 0 ∧ down = false then none else some (signed negative 0.0, rest)

/-- The end of a real number, with or without a mark `e`. -/
def finish? (negative : Bool) (significand : Nat) (exponent : Int) :
    List Char → Option (Value × List Char)
  | 'e' :: rest => afterMark? negative significand exponent rest
  | 'E' :: rest => afterMark? negative significand exponent rest
  | cs => (scale? significand exponent).map fun f => (signed negative f, cs)

/-- The digits after the point: each that fits lowers the exponent, and from the first that does
    not fit all are dropped. -/
def fraction? (negative : Bool) : Nat → Int → List Char → Option (Value × List Char)
  | significand, exponent, [] => finish? negative significand exponent []
  | significand, exponent, c :: rest =>
    match Text.digit? 10 c with
    | none => finish? negative significand exponent (c :: rest)
    | some d =>
      if fits significand d then fraction? negative (significand * 10 + d) (exponent - 1) rest
      else finish? negative significand exponent (rest.dropWhile (Text.isDigit 10))

/-- After the point: at least one digit has to follow. -/
def afterPoint? (negative : Bool) (significand : Nat) (exponent : Int) (cs : List Char) :
    Option (Value × List Char) :=
  match cs with
  | [] => none
  | c :: _ => if !Text.isDigit 10 c then none else fraction? negative significand exponent cs

/-- A number without point and mark: an integer, unless it is a negative zero or below the
    smallest 64-bit integer. -/
def whole (negative : Bool) (significand : Nat) : Value :=
  if negative = false then .integer significand
  else if 0 < significand ∧ significand ≤ 1 <<< 63 then .integer (-(significand : Int))
  else .real (-(Float.ofNat significand))

/-- The digits before the point, from the first that does not fit on. -/
def long? (negative : Bool) (significand : Nat) : Int → List Char → Option (Value × List Char)
  | exponent, [] => finish? negative significand exponent []
  | exponent, c :: rest =>
    if Text.isDigit 10 c then long? negative significand (exponent + 1) rest
    else if c = '.' then afterPoint? negative significand exponent rest
    else finish? negative significand exponent (c :: rest)

/-- What follows the digits before the point. -/
def afterWhole? (negative : Bool) (significand : Nat) : List Char → Option (Value × List Char)
  | '.' :: rest => afterPoint? negative significand 0 rest
  | 'e' :: rest => afterMark? negative significand 0 rest
  | 'E' :: rest => afterMark? negative significand 0 rest
  | cs => some (whole negative significand, cs)

/-- The digits before the point, as long as they fit. -/
def digits? (negative : Bool) : Nat → List Char → Option (Value × List Char)
  | significand, [] => afterWhole? negative significand []
  | significand, c :: rest =>
    match Text.digit? 10 c with
    | none => afterWhole? negative significand (c :: rest)
    | some d =>
      if fits significand d then digits? negative (significand * 10 + d) rest
      else long? negative significand 1 rest

/-- A number without its sign.  No digit may follow a leading zero. -/
def unsigned? (negative : Bool) : List Char → Option (Value × List Char)
  | [] => none
  | '0' :: rest =>
    match rest with
    | c :: _ => if Text.isDigit 10 c then none else afterWhole? negative 0 rest
    | [] => afterWhole? negative 0 []
  | c :: rest => (Text.digit? 10 c).bind fun d => digits? negative d rest

/-- A number at the start of a text, and what follows it. -/
def read? : List Char → Option (Value × List Char)
  | '-' :: rest => unsigned? true rest
  | cs => unsigned? false cs

end CircuitWitness.Json.Number
