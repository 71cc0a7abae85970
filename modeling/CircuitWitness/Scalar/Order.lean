import CircuitWitness.Scalar.Basic
/-
  The signed reading of a scalar, and the order it gives.

  Circuit code treats the upper half of the residues as negative numbers: a residue above
  `(p - 1) / 2` stands for itself minus `p`.  All comparisons go through that reading, so there
  is one total order, and the six relations of the circuit language are questions to it that
  are answered by the scalars 0 and 1.
-/

namespace CircuitWitness.Scalar

/-- The largest residue that is read as a non-negative number. -/
def halfModulus : Nat := (modulus - 1) / 2

/-- The signed reading, between `-(p - 1) / 2` and `(p - 1) / 2`. -/
def signed (a : Scalar) : Int :=
  if halfModulus < a.val then (a.val : Int) - (modulus : Int) else (a.val : Int)

/-- Scalars are ordered by their signed readings. -/
def compare (a b : Scalar) : Ordering := Ord.compare a.signed b.signed

/-! ## Relations as scalars -/

def eqFlag (a b : Scalar) : Scalar := ofBool (a == b)
def neqFlag (a b : Scalar) : Scalar := ofBool (a != b)
def ltFlag (a b : Scalar) : Scalar := ofBool (compare a b == .lt)
def leqFlag (a b : Scalar) : Scalar := ofBool (compare a b != .gt)
def gtFlag (a b : Scalar) : Scalar := ofBool (compare a b == .gt)
def geqFlag (a b : Scalar) : Scalar := ofBool (compare a b != .lt)

end CircuitWitness.Scalar
