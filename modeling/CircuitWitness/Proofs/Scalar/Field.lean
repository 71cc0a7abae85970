import Mathlib.FieldTheory.Finite.Basic
import Mathlib.Tactic.Ring
import CircuitWitness.Proofs.Scalar.Order
import CircuitWitness.Proofs.Scalar.Prime
import CircuitWitness.Scalar.Shift
/-
  Scalars are the elements of a field.

  The residue of a scalar is read as an element of `ZMod`.  That loses nothing and goes through
  the operations, so the laws of a field hold of scalars; they are proved there and read back.
  Inversion by Fermat's exponent is the inversion of the field, because the order is a prime.

  The second half is about the bits of a scalar: a shift and a mask take one bit, and the lowest
  bits, each with its weight, add up to the residue modulo a power of two.
-/

namespace CircuitWitness.Scalar

/-! ## The field -/

/-- A scalar as a residue class. -/
def toZMod (a : Scalar) : ZMod modulus := (a.val : ZMod modulus)

/-- Elements are equal if their residues are, so identities of the field can be taken over. -/
theorem toZMod_injective : Function.Injective toZMod := by
  intro a b h
  have hmod := (ZMod.natCast_eq_natCast_iff' a.val b.val modulus).mp h
  rw [Nat.mod_eq_of_lt a.lt_modulus, Nat.mod_eq_of_lt b.lt_modulus] at hmod
  exact ext hmod

/-- Each operation on elements is the one on residues. -/
@[simp] theorem toZMod_ofNat (n : Nat) : toZMod (ofNat n) = (n : ZMod modulus) :=
  ZMod.natCast_mod n modulus

@[simp] theorem toZMod_zero : toZMod 0 = 0 := (toZMod_ofNat 0).trans Nat.cast_zero

@[simp] theorem toZMod_one : toZMod 1 = 1 := (toZMod_ofNat 1).trans Nat.cast_one

@[simp] theorem toZMod_add (a b : Scalar) : toZMod (a + b) = toZMod a + toZMod b :=
  (toZMod_ofNat _).trans (Nat.cast_add _ _)

@[simp] theorem toZMod_mul (a b : Scalar) : toZMod (a * b) = toZMod a * toZMod b :=
  (toZMod_ofNat _).trans (Nat.cast_mul _ _)

/-- The modulus counts for nothing, so what an element leaves of it is the negation. -/
@[simp] theorem toZMod_neg (a : Scalar) : toZMod (-a) = -toZMod a := by
  refine (toZMod_ofNat _).trans ?_
  rw [Nat.cast_sub (Nat.le_of_lt a.lt_modulus), ZMod.natCast_self, zero_sub]
  rfl

@[simp] theorem toZMod_sub (a b : Scalar) : toZMod (a - b) = toZMod a - toZMod b := by
  refine (toZMod_ofNat _).trans ?_
  rw [Nat.cast_add, Nat.cast_sub (Nat.le_of_lt b.lt_modulus), ZMod.natCast_self, zero_sub,
    sub_eq_add_neg]
  rfl

/-- Squaring and multiplying gives the power. -/
@[simp] theorem toZMod_pow (a : Scalar) (n : Nat) : toZMod (a.pow n) = toZMod a ^ n := by
  fun_induction pow a n with
  | case1 a => simp
  | case2 a n hn rest hodd ih =>
    rw [toZMod_mul, ih, toZMod_mul, ← sq, ← pow_mul, ← pow_succ',
      show 2 * (n / 2) + 1 = n by omega]
  | case3 a n hn rest heven ih =>
    rw [ih, toZMod_mul, ← sq, ← pow_mul, show 2 * (n / 2) = n by omega]

/-- **The inverse of a scalar is its inverse in the field.** -/
theorem mul_inv_self {a : Scalar} (h : a ≠ 0) : a * a.inv = 1 := by
  have hne : toZMod a ≠ 0 := fun h0 => h (toZMod_injective (h0.trans toZMod_zero.symm))
  apply toZMod_injective
  unfold inv
  rw [toZMod_mul, toZMod_pow, toZMod_one, ← pow_succ',
    show modulus - 2 + 1 = modulus - 1 by decide]
  exact ZMod.pow_card_sub_one_eq_one hne

/-- Laws that the sums and products of the sample bodies need, taken over from residues. -/
protected theorem zero_mul (a : Scalar) : 0 * a = 0 := by
  apply toZMod_injective
  simp

protected theorem mul_zero (a : Scalar) : a * 0 = 0 := by
  apply toZMod_injective
  simp

protected theorem zero_add (a : Scalar) : 0 + a = a := by
  apply toZMod_injective
  simp

protected theorem add_zero (a : Scalar) : a + 0 = a := by
  apply toZMod_injective
  simp

protected theorem add_assoc (a b c : Scalar) : a + b + c = a + (b + c) := by
  apply toZMod_injective
  simp [add_assoc]

/-- Numbers may be added before they become elements or after. -/
theorem ofNat_add (m n : Nat) : ofNat (m + n) = ofNat m + ofNat n := by
  apply toZMod_injective
  simp

/-- And so with products. -/
theorem ofNat_mul (m n : Nat) : ofNat (m * n) = ofNat m * ofNat n := by
  apply toZMod_injective
  simp

/-! ## Residues of integers -/

/-- The residue of an integer. -/
def ofInt (n : Int) : Scalar where
  val := (n % modulus).toNat
  lt_modulus := by
    have hpos : (0 : Int) < modulus := Int.natCast_pos.mpr modulus_pos
    have hlt := Int.emod_lt_of_pos n hpos
    omega

/-- An integer becomes its residue. -/
theorem val_ofInt (n : Int) : ((ofInt n).val : Int) = n % modulus :=
  Int.toNat_of_nonneg (Int.emod_nonneg n (by decide))

/-- An element is an integer if its number is the residue. -/
theorem eq_ofInt_iff {a : Scalar} {n : Int} : a = ofInt n ↔ (a.val : Int) = n % modulus := by
  rw [← val_ofInt]
  constructor
  · rintro rfl
    rfl
  · intro h
    exact ext (Int.ofNat_inj.mp h)

@[simp] theorem toZMod_ofInt (n : Int) : toZMod (ofInt n) = (n : ZMod modulus) := by
  have hcast : ((ofInt n).val : ZMod modulus) = (((ofInt n).val : Int) : ZMod modulus) := by
    push_cast
    rfl
  show ((ofInt n).val : ZMod modulus) = _
  rw [hcast, val_ofInt, ZMod.intCast_mod]

/-- A natural number becomes the same element by either way. -/
theorem ofInt_natCast (n : Nat) : ofInt n = ofNat n := by
  apply toZMod_injective
  simp

/-- The sign may be taken before or after. -/
theorem ofInt_neg (n : Int) : ofInt (-n) = -ofInt n := by
  apply toZMod_injective
  simp

/-! ## Truth values -/

/-- Everything but zero is true. -/
theorem isTrue_iff {a : Scalar} : a.isTrue = true ↔ a ≠ 0 := by
  unfold isTrue
  rw [bne_iff_ne, not_iff_not]
  exact ⟨fun h => ext h, fun h => h ▸ rfl⟩

/-- A comparison is true if the elements are equal. -/
@[simp] theorem isTrue_eqFlag (a b : Scalar) : (eqFlag a b).isTrue = (a == b) := by
  unfold eqFlag
  cases a == b <;> rfl

/-! ## Bits -/

/-- The number of bits of a scalar that are one. -/
def ones (a : Scalar) : Nat := (List.range width).countP fun i => a.val.testBit i

theorem ofBool_eq (b : Bool) : ofBool b = ofNat b.toNat := by
  cases b <;> rfl

/-- A bit is one or zero. -/
theorem bit_mul_self_sub (b : Bool) : ofBool b * (ofBool b - 1) = 0 := by
  cases b
  · exact Scalar.zero_mul _
  · apply toZMod_injective
    simp [ofBool]

/-- Shifting down and masking takes one bit. -/
theorem band_shr {i : Nat} (a : Scalar) (hi : i < width) :
    (a.shr (ofNat i)).band 1 = ofBool (a.val.testBit i) := by
  have hsigned : (ofNat i).signed = i := signed_ofNat (Nat.le_trans (Nat.le_of_lt hi) (by decide))
  have hplaces : (ofNat i).places = i := by
    unfold places
    rw [hsigned, Int.natAbs_natCast, if_pos (Nat.lt_trans hi (by decide))]
  have hshift : a.shr (ofNat i) = ofNat (a.val >>> i) := by
    unfold shr shiftDown
    rw [hsigned, hplaces, if_neg (by omega), if_neg (by omega)]
  have hval : (ofNat (a.val >>> i)).val = a.val >>> i :=
    Nat.mod_eq_of_lt (Nat.lt_of_le_of_lt (Nat.shiftRight_le a.val i) a.lt_modulus)
  unfold band
  rw [hshift, hval, ofBool_eq, Nat.toNat_testBit, Nat.shiftRight_eq_div_pow]
  exact congrArg ofNat (Nat.and_one_is_mod _)

/-- One more bit, with its weight, is one more bit of the sum. -/
theorem ofNat_mod_two_pow (n i : Nat) :
    ofNat (n % 2 ^ i) + ofBool (n.testBit i) * ofNat (2 ^ i) = ofNat (n % 2 ^ (i + 1)) := by
  rw [ofBool_eq, Nat.toNat_testBit, ← ofNat_mul, ← ofNat_add, Nat.pow_succ, Nat.mod_mul,
    Nat.mul_comm (2 ^ i)]

/-- The weight of a bit doubles from one to the next. -/
theorem ofNat_two_pow_succ (i : Nat) : ofNat (2 ^ i) + ofNat (2 ^ i) = ofNat (2 ^ (i + 1)) := by
  rw [← ofNat_add, Nat.pow_succ, Nat.mul_two]

end CircuitWitness.Scalar
