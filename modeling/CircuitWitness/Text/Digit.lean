/-
  Digits of a number in some radix up to sixteen, with letters of either case above nine.
-/

namespace CircuitWitness.Text

/-- The value of a digit of the given radix. -/
def digit? (radix : Nat) (c : Char) : Option Nat :=
  let value :=
    if '0' ≤ c ∧ c ≤ '9' then some (c.toNat - '0'.toNat)
    else if 'a' ≤ c ∧ c ≤ 'f' then some (c.toNat - 'a'.toNat + 10)
    else if 'A' ≤ c ∧ c ≤ 'F' then some (c.toNat - 'A'.toNat + 10)
    else none
  value.filter (· < radix)

/-- Whether a character is a digit of the given radix. -/
def isDigit (radix : Nat) (c : Char) : Bool := (digit? radix c).isSome

/-- A digit is smaller than its radix. -/
theorem digit?_lt {radix d : Nat} {c : Char} (h : digit? radix c = some d) : d < radix := by
  simp only [digit?, Option.filter_eq_some_iff, decide_eq_true_eq] at h
  exact h.2

/-- The value of some digits, the first of them the most significant. -/
def number? (radix : Nat) (cs : List Char) : Option Nat :=
  cs.foldlM (fun acc c => (digit? radix c).map fun d => acc * radix + d) 0

/-- The value of exactly `count` digits, and what follows them. -/
def fixedDigits? (radix count : Nat) (cs : List Char) : Option (Nat × List Char) :=
  if cs.length < count then none
  else (number? radix (cs.take count)).map fun n => (n, cs.drop count)

/-- The character of a code point; surrogates and numbers beyond the last one have none. -/
def scalarValue? (n : Nat) : Option Char :=
  if n < 0xD800 ∨ (0xDFFF < n ∧ n < 0x110000) then some (Char.ofNat n) else none

end CircuitWitness.Text
