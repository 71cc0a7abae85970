/-
  The scalar field that signals take their values in.

  Signals, constants and witness entries are residues modulo one fixed 254-bit prime.  A `Scalar`
  is the canonical residue itself, so equality of scalars is equality of numbers and nothing
  has to be normalised before two values are compared.

  Inversion is by Fermat's exponent: `a⁻¹ = a ^ (p - 2)`.  That answers zero for zero, which is
  the convention circuit code relies on (`inv_zero`), and division is multiplication by it.
-/

namespace CircuitWitness

/-- The order of the field, a 254-bit prime. -/
def Scalar.modulus : Nat :=
  21888242871839275222246405745257275088548364400416034343698204186575808495617

/-- A field element, held as its canonical residue. -/
structure Scalar where
  val : Nat
  lt_modulus : val < Scalar.modulus
deriving DecidableEq

namespace Scalar

theorem modulus_pos : 0 < modulus := by decide

/-- Two scalars with the same residue are the same scalar. -/
@[ext] theorem ext {a b : Scalar} (h : a.val = b.val) : a = b := by
  cases a; cases b; simp_all

/-- The residue of a natural number of any size. -/
def ofNat (n : Nat) : Scalar := ⟨n % modulus, Nat.mod_lt n modulus_pos⟩

@[simp] theorem val_ofNat (n : Nat) : (ofNat n).val = n % modulus := rfl

/-- A residue is its own remainder, so reading it back gives the scalar it came from. -/
@[simp] theorem ofNat_val (a : Scalar) : ofNat a.val = a :=
  ext (Nat.mod_eq_of_lt a.lt_modulus)

instance (n : Nat) : OfNat Scalar n := ⟨ofNat n⟩
instance : Inhabited Scalar := ⟨0⟩

instance : Add Scalar := ⟨fun a b => ofNat (a.val + b.val)⟩
instance : Mul Scalar := ⟨fun a b => ofNat (a.val * b.val)⟩
instance : Neg Scalar := ⟨fun a => ofNat (modulus - a.val)⟩
instance : Sub Scalar := ⟨fun a b => ofNat (a.val + (modulus - b.val))⟩

/-! ## Inversion and division -/

/-- `a.pow n` by repeated squaring, the exponent read from its lowest bit. -/
def pow (a : Scalar) (n : Nat) : Scalar :=
  if n = 0 then 1
  else
    let rest := pow (a * a) (n / 2)
    if n % 2 = 1 then a * rest else rest
termination_by n
decreasing_by omega

/-- The multiplicative inverse, with zero sent to zero. -/
def inv (a : Scalar) : Scalar := a.pow (modulus - 2)

/-- Division; anything over zero is zero. -/
def div (a b : Scalar) : Scalar := a * b.inv

/-! ## Truth values and machine indices -/

/-- One for true and zero for false. -/
def ofBool (b : Bool) : Scalar := if b then 1 else 0

/-- Every scalar except zero counts as true. -/
def isTrue (a : Scalar) : Bool := a.val != 0

/-- The residue as a 64-bit index, if it fits one. -/
def toIndex? (a : Scalar) : Option Nat := if a.val < UInt64.size then some a.val else none

/-- The canonical residue in decimal. -/
def toDecimal (a : Scalar) : String := Nat.repr a.val

end Scalar
end CircuitWitness
