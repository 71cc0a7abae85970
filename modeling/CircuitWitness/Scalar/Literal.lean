import CircuitWitness.Scalar.Basic
import CircuitWitness.Text.Blank
import CircuitWitness.Text.Digit
/-
  Literals: scalars as people and compilers write them.

  The grammar, after white space at both ends is dropped:

      literal  ::=  ['-'] ( '0x' | '0X' )? ['+'] digit ( digit | '_' )*

  with hexadecimal digits of either case after the mark `0x` and decimal digits otherwise.  The
  value may have any size; it is reduced, and a leading minus negates the result.
-/

namespace CircuitWitness.Scalar.Literal

/-- Continue a number over digits and underscores; any other character refuses the text. -/
def digits? (radix : Nat) : Nat → List Char → Option Nat
  | acc, [] => some acc
  | acc, c :: rest =>
    if c = '_' then digits? radix acc rest
    else (Text.digit? radix c).bind fun d => digits? radix (acc * radix + d) rest

/-- A number without a sign: its first character has to be a digit. -/
def unsigned? (radix : Nat) : List Char → Option Nat
  | [] => none
  | c :: rest => (Text.digit? radix c).bind fun d => digits? radix d rest

/-- A number that may carry one plus sign. -/
def natural? (radix : Nat) : List Char → Option Nat
  | '+' :: rest => unsigned? radix rest
  | cs => unsigned? radix cs

/-- A number with an optional hexadecimal mark. -/
def magnitude? : List Char → Option Nat
  | '0' :: 'x' :: rest => natural? 16 rest
  | '0' :: 'X' :: rest => natural? 16 rest
  | cs => natural? 10 cs

/-- A literal that has already been trimmed. -/
def read? : List Char → Option Scalar
  | '-' :: rest => (magnitude? rest).map fun n => -ofNat n
  | cs => (magnitude? cs).map ofNat

end CircuitWitness.Scalar.Literal

namespace CircuitWitness.Scalar

/-- The scalar that a literal denotes, or nothing if the text is no literal. -/
def ofLiteral? (text : String) : Option Scalar := Literal.read? (Text.trim text.toList)

end CircuitWitness.Scalar
