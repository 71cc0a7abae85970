import Mathlib.Algebra.BigOperators.Intervals
import CircuitWitness.Proofs.Scalar.Field
import CircuitWitness.Proofs.Scalar.Order
/-
  Shifts are exact.

  There are two cut-offs in a shift.  Amounts that take more than 32 bits count as the largest
  32-bit number, and from 254 places on the answer is zero without any work.  Neither can be seen:
  a residue has no more than 254 bits, so by then division by the power of two leaves nothing, and
  of the product nothing is left inside the word (`val_shiftDown`, `val_shiftUp`).

  Both directions are one operation, taken at an amount or at its negative.  The amount zero is the
  one that is its own negative, and there both directions leave the residue as it is.
-/

namespace CircuitWitness.Scalar

variable {a b : Scalar} {n : Nat}

/-! ## The cut-offs -/

theorem modulus_lt_two_pow : modulus < 2 ^ width := by decide

/-- Moving down is division, however many places it is. -/
theorem val_shiftDown (a : Scalar) (n : Nat) : (a.shiftDown n).val = a.val / 2 ^ n := by
  unfold shiftDown
  have hword := Nat.lt_trans a.lt_modulus modulus_lt_two_pow
  by_cases hn : width ≤ n
  · have hlt : a.val < 2 ^ n := Nat.lt_of_lt_of_le hword (Nat.pow_le_pow_right (by decide) hn)
    rw [if_pos hn, Nat.div_eq_of_lt hlt]
    rfl
  · rw [if_neg hn, val_ofNat, Nat.shiftRight_eq_div_pow]
    exact Nat.mod_eq_of_lt (Nat.lt_of_le_of_lt (Nat.div_le_self _ _) a.lt_modulus)

/-- Moving up is multiplication inside the word, however many places it is. -/
theorem val_shiftUp (a : Scalar) (n : Nat) :
    (a.shiftUp n).val = a.val * 2 ^ n % 2 ^ width % modulus := by
  unfold shiftUp
  by_cases hn : width ≤ n
  · have hdvd : 2 ^ width ∣ a.val * 2 ^ n := Dvd.dvd.mul_left (Nat.pow_dvd_pow 2 hn) _
    rw [if_pos hn, Nat.mod_eq_zero_of_dvd hdvd]
    rfl
  · rw [if_neg hn, val_ofNat, Nat.shiftLeft_eq, Nat.one_shiftLeft]

/-- The places are the magnitude of the amount, or both are past the word. -/
theorem places_cases (b : Scalar) :
    b.places = b.signed.natAbs ∨ (width ≤ b.places ∧ width ≤ b.signed.natAbs) := by
  unfold places
  by_cases h : b.signed.natAbs < UInt32.size
  · exact .inl (if_pos h)
  · have hlarge : width ≤ UInt32.size - 1 := by decide
    rw [if_neg h]
    exact .inr ⟨hlarge, by omega⟩

theorem shiftDown_places (a b : Scalar) : a.shiftDown b.places = a.shiftDown b.signed.natAbs := by
  rcases places_cases b with h | ⟨hplaces, hamount⟩
  · rw [h]
  · unfold shiftDown
    rw [if_pos hplaces, if_pos hamount]

theorem shiftUp_places (a b : Scalar) : a.shiftUp b.places = a.shiftUp b.signed.natAbs := by
  rcases places_cases b with h | ⟨hplaces, hamount⟩
  · rw [h]
  · unfold shiftUp
    rw [if_pos hplaces, if_pos hamount]

/-! ## The two directions -/

/-- To the right by an amount that is not negative. -/
theorem val_shr (h : 0 ≤ b.signed) : (a.shr b).val = a.val / 2 ^ b.signed.toNat := by
  unfold shr
  rw [if_neg (Int.not_lt.mpr h), shiftDown_places, val_shiftDown,
    show b.signed.natAbs = b.signed.toNat by omega]

/-- To the left by an amount that is not negative. -/
theorem val_shl (h : 0 ≤ b.signed) :
    (a.shl b).val = a.val * 2 ^ b.signed.toNat % 2 ^ width % modulus := by
  unfold shl
  rw [if_neg (Int.not_lt.mpr h), shiftUp_places, val_shiftUp,
    show b.signed.natAbs = b.signed.toNat by omega]

/-- A shift by zero, in either direction. -/
theorem shiftDown_zero (a : Scalar) : a.shiftDown 0 = a.shiftUp 0 := by
  apply ext
  have hword := Nat.lt_trans a.lt_modulus modulus_lt_two_pow
  rw [val_shiftDown, val_shiftUp, Nat.pow_zero, Nat.div_one, Nat.mul_one, Nat.mod_eq_of_lt hword,
    Nat.mod_eq_of_lt a.lt_modulus]

/-- **A shift is a shift in the other direction by the negative amount.** -/
theorem shr_eq_shl_neg (a b : Scalar) : a.shr b = a.shl (-b) := by
  have hneg := signed_neg b
  unfold shr shl
  rw [shiftDown_places, shiftDown_places, shiftUp_places, shiftUp_places, hneg, Int.natAbs_neg]
  rcases Int.lt_trichotomy b.signed 0 with hlt | hzero | hgt
  · rw [if_pos hlt, if_neg (by omega)]
  · rw [hzero]
    exact shiftDown_zero a
  · rw [if_neg (by omega), if_pos (by omega)]

theorem shl_eq_shr_neg (a b : Scalar) : a.shl b = a.shr (-b) := by
  rw [shr_eq_shl_neg, Scalar.neg_neg]

/-- A shift to the left is undone, if nothing was reduced. -/
theorem shr_shl (h : 0 ≤ b.signed) (hsmall : a.val * 2 ^ b.signed.toNat < modulus) :
    (a.shl b).shr b = a := by
  apply ext
  have hword := Nat.lt_trans hsmall modulus_lt_two_pow
  rw [val_shr h, val_shl h, Nat.mod_eq_of_lt hword, Nat.mod_eq_of_lt hsmall]
  exact Nat.mul_div_cancel _ (Nat.two_pow_pos _)

/-! ## Bits -/

/-- The lowest bits, each with its weight, add up as scalars. -/
theorem sum_low_bits (a : Scalar) (hn : n ≤ width) :
    (List.range n).foldl (fun sum i => sum + (a.shr (ofNat i)).band 1 * ofNat (2 ^ i)) 0
      = ofNat (a.val % 2 ^ n) := by
  induction n with
  | zero => rw [Nat.pow_zero, Nat.mod_one]; rfl
  | succ n ih =>
    rw [List.range_succ, List.foldl_append, ih (by omega), List.foldl_cons, List.foldl_nil,
      band_shr a (by omega), ofNat_mod_two_pow]

/-- The lowest bits, each with its weight, add up as numbers. -/
theorem sum_low_bits_val (a : Scalar) (hn : n ≤ width) :
    ∑ i ∈ Finset.range n, ((a.shr (ofNat i)).band 1).val * 2 ^ i = a.val % 2 ^ n := by
  induction n with
  | zero => rw [Nat.pow_zero, Nat.mod_one]; rfl
  | succ n ih =>
    have hbit : (ofBool (a.val.testBit n)).val = a.val / 2 ^ n % 2 := by
      rw [ofBool_eq, val_ofNat, Nat.toNat_testBit]
      exact Nat.mod_eq_of_lt (Nat.lt_trans (Nat.mod_lt _ (by decide)) (by decide))
    rw [Finset.sum_range_succ, ih (by omega), band_shr a (by omega), hbit, Nat.pow_succ,
      Nat.mod_mul, Nat.mul_comm (2 ^ n)]

/-! ## The theorem -/

/-- **Shifts are exact for every amount.**  Let the amount be the signed reading of `b`.

    * If it is not negative, a shift to the right is division by the power of two, rounded down,
      and a shift to the left is multiplication by it, modulo `2 ^ 254` and then reduced.  There is
      no exception for large amounts.
    * A shift is a shift in the other direction by `-b`, for all amounts, so the two directions at
      the amounts that are not negative say everything.
    * A shift to the left by such an amount is undone by the shift to the right if the product is
      below the modulus.
    * The 254 bits that shifts and masks take from a scalar, each with its weight, add up to it:
      as scalars, and as numbers without any reduction. -/
theorem shifts_exact (a b : Scalar) :
    (0 ≤ b.signed → (a.shr b).val = a.val / 2 ^ b.signed.toNat ∧
      (a.shl b).val = a.val * 2 ^ b.signed.toNat % 2 ^ 254 % modulus) ∧
    a.shr b = a.shl (-b) ∧ a.shl b = a.shr (-b) ∧
    (0 ≤ b.signed → a.val * 2 ^ b.signed.toNat < modulus → (a.shl b).shr b = a) ∧
    (List.range 254).foldl (fun sum i => sum + (a.shr (ofNat i)).band 1 * ofNat (2 ^ i)) 0 = a ∧
    ∑ i ∈ Finset.range 254, ((a.shr (ofNat i)).band 1).val * 2 ^ i = a.val := by
  have hword : a.val % 2 ^ width = a.val :=
    Nat.mod_eq_of_lt (Nat.lt_trans a.lt_modulus modulus_lt_two_pow)
  refine ⟨fun h => ⟨val_shr h, val_shl h⟩, shr_eq_shl_neg a b, shl_eq_shr_neg a b,
    fun h hsmall => shr_shl h hsmall, ?_, ?_⟩
  · have hsum := sum_low_bits a (Nat.le_refl width)
    rw [hword, ofNat_val] at hsum
    exact hsum
  · have hsum := sum_low_bits_val a (Nat.le_refl width)
    rw [hword] at hsum
    exact hsum

/-- Five can be moved up by 251 places and comes back.  At 252 places the upper one of its two bits
    has left the word. -/
theorem shifts_exact_five :
    0 ≤ signed 251 ∧ (5 : Scalar).val * 2 ^ (signed 251).toNat < modulus ∧
      ((5 : Scalar).shl 251).val = 5 * 2 ^ 251 ∧ ((5 : Scalar).shl 251).shr 251 = 5 ∧
      ((5 : Scalar).shl 252).val = 2 ^ 252 := by
  have hsmall : (5 : Scalar).val * 2 ^ (signed 251).toNat < modulus := by decide
  have hexact := shifts_exact 5 251
  refine ⟨by decide, hsmall, ?_, hexact.2.2.2.1 (by decide) hsmall, ?_⟩
  · rw [(hexact.1 (by decide)).2]
    decide
  · rw [((shifts_exact 5 252).1 (by decide)).2]
    decide

end CircuitWitness.Scalar
