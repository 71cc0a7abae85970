import Mathlib.Tactic.Common
import CircuitWitness.Scalar.Order
/-
  The signed reading of a scalar, and the order it gives.

  The order of the field is odd, so as many residues are read as negative numbers as are read as
  positive ones, and negation mirrors the readings at zero (`signed_neg`).

  Addition of residues does not go along with the readings, so nothing about the order comes from
  the field.  It is the order of the integers, taken over through a reading that no two scalars
  share (`signed_inj`); and because the boundary lies in the middle, negation turns it round
  (`compare_neg`).  The six relations are questions to that one order, answered by 0 and 1.
-/

namespace CircuitWitness.Scalar

variable {a b : Scalar}

/-- The order is odd, so no element is as far from zero on one side as on the other. -/
theorem two_mul_halfModulus : 2 * halfModulus + 1 = modulus := by decide

/-- The reading is the residue itself, or lies one modulus below it. -/
theorem signed_cases (a : Scalar) :
    (a.val ≤ halfModulus ∧ a.signed = a.val) ∨
      (halfModulus < a.val ∧ a.signed = a.val - modulus) := by
  unfold signed
  by_cases h : halfModulus < a.val
  · exact .inr ⟨h, if_pos h⟩
  · exact .inl ⟨Nat.not_lt.mp h, if_neg h⟩

/-- Negation mirrors all numbers but zero. -/
theorem val_neg (a : Scalar) : (-a).val = if a.val = 0 then 0 else modulus - a.val := by
  show (modulus - a.val) % modulus = _
  have hpos := modulus_pos
  by_cases h : a.val = 0
  · rw [if_pos h, h, Nat.sub_zero, Nat.mod_self]
  · rw [if_neg h]
    apply Nat.mod_eq_of_lt
    omega

/-- **Negation mirrors the signed readings.** -/
theorem signed_neg (a : Scalar) : (-a).signed = -a.signed := by
  have hhalf := two_mul_halfModulus
  have hlt := a.lt_modulus
  have hval := val_neg a
  rcases signed_cases a with ⟨hle, hs⟩ | ⟨hgt, hs⟩
  · rcases signed_cases (-a) with ⟨hle', hs'⟩ | ⟨hgt', hs'⟩ <;> split at hval <;> omega
  · rcases signed_cases (-a) with ⟨hle', hs'⟩ | ⟨hgt', hs'⟩ <;> split at hval <;> omega

protected theorem neg_neg (a : Scalar) : - -a = a := by
  apply ext
  have hlt := a.lt_modulus
  rw [val_neg, val_neg]
  split <;> split <;> omega

/-- A small residue is read as itself. -/
theorem signed_ofNat {n : Nat} (h : n ≤ halfModulus) : (ofNat n).signed = n := by
  have hhalf := two_mul_halfModulus
  have hval : (ofNat n).val = n := Nat.mod_eq_of_lt (by omega)
  rcases signed_cases (ofNat n) with ⟨-, hs⟩ | ⟨hgt, -⟩
  · rw [hs, hval]
  · omega

/-! ## The range of the readings -/

/-- A signed reading lies in the middle of the range, both ends included. -/
theorem signed_bounds (a : Scalar) :
    -(((modulus : Int) - 1) / 2) ≤ a.signed ∧ a.signed ≤ ((modulus : Int) - 1) / 2 := by
  have hhalf := two_mul_halfModulus
  have hlt := a.lt_modulus
  rcases signed_cases a with ⟨hle, hs⟩ | ⟨hgt, hs⟩
  · constructor <;> omega
  · constructor <;> omega

/-- The residue is read back from the reading. -/
theorem signed_emod (a : Scalar) : a.signed % modulus = a.val := by
  have hlt : (a.val : Int) < modulus := Int.ofNat_lt.mpr a.lt_modulus
  have hself : (a.val : Int) % modulus = a.val := Int.emod_eq_of_lt (Int.natCast_nonneg _) hlt
  rcases signed_cases a with ⟨-, hs⟩ | ⟨-, hs⟩
  · rw [hs, hself]
  · rw [hs, Int.sub_emod_right, hself]

/-- Different scalars have different readings. -/
theorem signed_inj : a.signed = b.signed ↔ a = b := by
  constructor
  · intro h
    have hval : (a.val : Int) = b.val := by rw [← signed_emod, h, signed_emod]
    exact ext (Int.ofNat_inj.mp hval)
  · rintro rfl
    rfl

/-! ## The order -/

theorem compare_eq_lt : compare a b = .lt ↔ a.signed < b.signed := Int.compare_eq_lt

theorem compare_eq_eq : compare a b = .eq ↔ a = b := Int.compare_eq_eq.trans signed_inj

theorem compare_eq_gt : compare a b = .gt ↔ b.signed < a.signed := Int.compare_eq_gt

instance : Std.TransCmp compare where
  eq_swap := (Int.compare_swap ..).symm
  isLE_trans {a _ c} hab hbc :=
    show (Ord.compare a.signed c.signed).isLE = true from Std.TransCmp.isLE_trans hab hbc

instance : Std.LawfulEqCmp compare where
  compare_self := compare_eq_eq.mpr rfl
  eq_of_compare := compare_eq_eq.mp

/-- **Negation turns the order round.** -/
theorem compare_neg (a b : Scalar) : compare (-a) (-b) = compare b a := by
  have ha := signed_neg a
  have hb := signed_neg b
  rcases Int.lt_trichotomy b.signed a.signed with hlt | heq | hgt
  · rw [compare_eq_lt.mpr hlt, compare_eq_lt]
    omega
  · rw [signed_inj.mp heq, compare_eq_eq.mpr rfl, compare_eq_eq.mpr rfl]
  · rw [compare_eq_gt.mpr hgt, compare_eq_gt]
    omega

/-! ## The relations -/

/-- A flag is one where its relation holds, and zero elsewhere. -/
theorem ofBool_eq_ite {p : Prop} [Decidable p] {q : Bool} (h : q = true ↔ p) :
    ofBool q = if p then 1 else 0 := if_congr h rfl rfl

theorem ofBool_not (q : Bool) : ofBool (!q) = 1 - ofBool q := by
  cases q <;> rfl

/-- Equality is asked of the residues, not of the order; it comes to the same. -/
theorem eqFlag_eq (a b : Scalar) : eqFlag a b = ofBool (compare a b == .eq) := by
  have hbeq : (a == b) = (compare a b == .eq) := by
    rw [Bool.eq_iff_iff, beq_iff_eq, beq_iff_eq, compare_eq_eq]
  exact congrArg ofBool hbeq

/-- The two parts of the relation exclude each other, so at most one of them is 1. -/
theorem leqFlag_eq_add (a b : Scalar) : leqFlag a b = ltFlag a b + eqFlag a b := by
  rw [eqFlag_eq]
  show ofBool (compare a b != .gt) = ofBool (compare a b == .lt) + ofBool (compare a b == .eq)
  cases compare a b <;> rfl

theorem gtFlag_eq_ltFlag (a b : Scalar) : gtFlag a b = ltFlag b a := by
  have hswap : compare b a = (compare a b).swap := Std.OrientedCmp.eq_swap
  show ofBool (compare a b == .gt) = ofBool (compare b a == .lt)
  rw [hswap]
  cases compare a b <;> rfl

/-- **Scalars are in one total order, and the six relations agree with it.**

    * The signed readings lie between `-(p - 1) / 2` and `(p - 1) / 2`, and a scalar is known by its
      reading.
    * Scalars compare as their readings do: equal are only equal scalars, the other way round the
      answer is the opposite one, and both `<` and `≤` are transitive.
    * Negation turns the order round.
    * Each relation answers 1 where it holds of the readings, and 0 where it does not.  So three of
      them are the complements of the other three, and with `<` and `=` all are known. -/
theorem comparisons_total (a b c : Scalar) :
    (-(((modulus : Int) - 1) / 2) ≤ a.signed ∧ a.signed ≤ ((modulus : Int) - 1) / 2 ∧
      a.signed % modulus = a.val ∧ (a.signed = b.signed ↔ a = b)) ∧
    ((compare a b = .lt ↔ a.signed < b.signed) ∧ (compare a b = .eq ↔ a = b) ∧
      (compare a b = .gt ↔ b.signed < a.signed) ∧ compare b a = (compare a b).swap ∧
      (compare a b = .lt → compare b c = .lt → compare a c = .lt) ∧
      ((compare a b).isLE = true → (compare b c).isLE = true → (compare a c).isLE = true)) ∧
    compare (-a) (-b) = compare b a ∧
    (eqFlag a b = (if a.signed = b.signed then 1 else 0) ∧
      neqFlag a b = (if a.signed ≠ b.signed then 1 else 0) ∧
      ltFlag a b = (if a.signed < b.signed then 1 else 0) ∧
      leqFlag a b = (if a.signed ≤ b.signed then 1 else 0) ∧
      gtFlag a b = (if b.signed < a.signed then 1 else 0) ∧
      geqFlag a b = (if b.signed ≤ a.signed then 1 else 0)) ∧
    (geqFlag a b = 1 - ltFlag a b ∧ leqFlag a b = 1 - gtFlag a b ∧
      neqFlag a b = 1 - eqFlag a b ∧ gtFlag a b = ltFlag b a ∧
      leqFlag a b = ltFlag a b + eqFlag a b) := by
  obtain ⟨hlow, hhigh⟩ := signed_bounds a
  refine ⟨⟨hlow, hhigh, signed_emod a, signed_inj⟩,
    ⟨compare_eq_lt, compare_eq_eq, compare_eq_gt, Std.OrientedCmp.eq_swap, Std.TransCmp.lt_trans,
      Std.TransCmp.isLE_trans⟩,
    compare_neg a b, ⟨?_, ?_, ?_, ?_, ?_, ?_⟩,
    ofBool_not _, ofBool_not _, ofBool_not _, gtFlag_eq_ltFlag a b, leqFlag_eq_add a b⟩
  · exact ofBool_eq_ite (beq_iff_eq.trans signed_inj.symm)
  · exact ofBool_eq_ite (bne_iff_ne.trans (not_congr signed_inj.symm))
  · exact ofBool_eq_ite (beq_iff_eq.trans compare_eq_lt)
  · exact ofBool_eq_ite (bne_iff_ne.trans ((not_congr compare_eq_gt).trans Int.not_lt))
  · exact ofBool_eq_ite (beq_iff_eq.trans compare_eq_gt)
  · exact ofBool_eq_ite (bne_iff_ne.trans ((not_congr compare_eq_lt).trans Int.not_lt))

/-- The residue after the boundary is the least scalar and the one before it the greatest; zero lies
    between them, and negation exchanges them. -/
theorem comparisons_total_boundary :
    compare (ofNat (halfModulus + 1)) 0 = .lt ∧ compare 0 (ofNat halfModulus) = .lt ∧
      (compare (ofNat (halfModulus + 1)) 0).isLE = true ∧
      (compare 0 (ofNat halfModulus)).isLE = true ∧
      compare (ofNat (halfModulus + 1)) (ofNat halfModulus) = .lt ∧
      (compare (ofNat (halfModulus + 1)) (ofNat halfModulus)).isLE = true ∧
      -ofNat (halfModulus + 1) = ofNat halfModulus ∧
      (ofNat (halfModulus + 1)).signed = -halfModulus := by
  have hlow : compare (ofNat (halfModulus + 1)) 0 = .lt := by decide
  have hhigh : compare 0 (ofNat halfModulus) = .lt := by decide
  have htotal := comparisons_total (ofNat (halfModulus + 1)) 0 (ofNat halfModulus)
  obtain ⟨-, -, -, -, htrans, htransLE⟩ := htotal.2.1
  have hlowLE : (compare (ofNat (halfModulus + 1)) 0).isLE = true := by rw [hlow]; rfl
  have hhighLE : (compare 0 (ofNat halfModulus)).isLE = true := by rw [hhigh]; rfl
  exact ⟨hlow, hhigh, hlowLE, hhighLE, htrans hlow hhigh, htransLE hlowLE hhighLE, by decide,
    by decide⟩

end CircuitWitness.Scalar
