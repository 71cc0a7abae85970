/-
  White space as the Unicode property `White_Space` lists it: twenty-five characters, of which
  the core class `Char.isWhitespace` knows four.

  `trim` drops such characters at both ends of a text and nowhere else.
-/

namespace CircuitWitness.Text

/-- The ranges of code points with the property `White_Space`. -/
def blankRanges : List (Nat × Nat) :=
  [(0x09, 0x0D), (0x20, 0x20), (0x85, 0x85), (0xA0, 0xA0), (0x1680, 0x1680), (0x2000, 0x200A),
   (0x2028, 0x2029), (0x202F, 0x202F), (0x205F, 0x205F), (0x3000, 0x3000)]

/-- Whether a character is white space. -/
def isBlank (c : Char) : Bool :=
  blankRanges.any fun r => r.1 ≤ c.toNat && c.toNat ≤ r.2

/-- The text without the white space at its two ends. -/
def trim (cs : List Char) : List Char :=
  ((cs.dropWhile isBlank).reverse.dropWhile isBlank).reverse

example : (blankRanges.map fun r => r.2 + 1 - r.1).sum = 25 := by decide

end CircuitWitness.Text
