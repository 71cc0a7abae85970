import CircuitWitness.Scalar.Shift
/-
  The operations of circuit code on scalars, by name.

  Each takes one or two scalars and answers one.  Relations answer 0 or 1.
-/

namespace CircuitWitness.Scalar

/-- Operations on one scalar. -/
inductive UnaryOp where
  | neg | inv | copy
deriving DecidableEq, Inhabited

/-- Operations on two scalars. -/
inductive BinaryOp where
  | add | sub | mul | div
  | eq | neq | lt | leq | gt | geq
  | shl | shr | band
deriving DecidableEq, Inhabited

/-- What an operation on one scalar answers. -/
def UnaryOp.eval : UnaryOp → Scalar → Scalar
  | .neg, a => -a
  | .inv, a => a.inv
  | .copy, a => a

/-- What an operation on two scalars answers. -/
def BinaryOp.eval : BinaryOp → Scalar → Scalar → Scalar
  | .add, a, b => a + b
  | .sub, a, b => a - b
  | .mul, a, b => a * b
  | .div, a, b => a.div b
  | .eq, a, b => eqFlag a b
  | .neq, a, b => neqFlag a b
  | .lt, a, b => ltFlag a b
  | .leq, a, b => leqFlag a b
  | .gt, a, b => gtFlag a b
  | .geq, a, b => geqFlag a b
  | .shl, a, b => a.shl b
  | .shr, a, b => a.shr b
  | .band, a, b => a.band b

end CircuitWitness.Scalar
