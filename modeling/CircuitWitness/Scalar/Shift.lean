import CircuitWitness.Scalar.Order
/-
  Shifts and masks.

  A shift works on the canonical residue as a 254-bit word.  The amount is the signed reading of
  the second operand, and a negative amount shifts the other way by its magnitude.  Shifting up
  drops what leaves the word before the result is reduced; the word is wider than the field, so
  that reduction can still change the value.

  Places are counted in a 32-bit word, and a magnitude that does not fit counts as the largest one.
  Neither that nor the test against `width` changes a result: from `width` places on every bit has
  left the word, so exact division or multiplication gives zero as well.
-/

namespace CircuitWitness.Scalar

/-- Bits of the word that shifts and masks work on. -/
def width : Nat := 254

/-- The places that a shift by `b` moves, whichever way. -/
def places (b : Scalar) : Nat :=
  if b.signed.natAbs < UInt32.size then b.signed.natAbs else UInt32.size - 1

/-- Move the residue `n` places towards its low end. -/
def shiftDown (a : Scalar) (n : Nat) : Scalar :=
  if width ≤ n then 0 else ofNat (a.val >>> n)

/-- Move the residue `n` places towards its high end, inside the word. -/
def shiftUp (a : Scalar) (n : Nat) : Scalar :=
  if width ≤ n then 0 else ofNat ((a.val <<< n) % (1 <<< width))

/-- Shift right by the signed reading of `b`; a negative amount shifts left. -/
def shr (a b : Scalar) : Scalar :=
  if b.signed < 0 then a.shiftUp b.places else a.shiftDown b.places

/-- Shift left by the signed reading of `b`; a negative amount shifts right. -/
def shl (a b : Scalar) : Scalar :=
  if b.signed < 0 then a.shiftDown b.places else a.shiftUp b.places

/-- Bitwise conjunction of the canonical residues. -/
def band (a b : Scalar) : Scalar := ofNat (a.val &&& b.val)

end CircuitWitness.Scalar
