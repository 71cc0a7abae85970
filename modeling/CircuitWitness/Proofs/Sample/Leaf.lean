import CircuitWitness.Proofs.Meets
import CircuitWitness.Proofs.Sample.Circuit
import CircuitWitness.Proofs.Scalar.Field
/-
  What the sample bodies without children come to.

  Each body is followed from a view in which the inputs of its component hold some values.  What
  it comes to is said for every place of the block and every handle, and for every continuation,
  so a body that starts another one cites the lemma of that other one.
-/

namespace CircuitWitness.Sample

/-! ## Bodies without children -/

section

variable {k : Nat} {enter : Enter} {w : View} {self : Handle} {r : Component}
  {Q : Unit → View → Prop} {E : Fault → View → Prop}

/-- The product of the inputs. -/
theorem multiplierBody_meets {a b : Scalar} (hr : w.records self = some r)
    (hin : w.Holds (r.signalStart + 1) [a, b]) (hsize : r.signalStart < w.size)
    (hQ : Q () (w.write r.signalStart (a * b))) :
    Procedure.Meets enter (multiplierBody self) w Q E := by
  obtain ⟨ha, hb, -⟩ := hin
  unfold multiplierBody
  refine .bind (.signalStart hr ?_)
  refine .bind (.signal ha ?_)
  refine .bind (.signal hb ?_)
  exact .setSignal hsize hQ

/-- The seed and its square. -/
theorem constantLeafBody_meets (hc : Runs w.circuit k) (hr : w.records self = some r)
    (hsize : r.signalStart + 2 ≤ w.size)
    (hQ : ∀ w', w.Within ⟨r.signalStart, 2, 0, 0⟩ w' →
      w'.Holds r.signalStart [Scalar.ofNat seed, Scalar.ofNat seed * Scalar.ofNat seed] → Q () w') :
    Procedure.Meets enter (constantLeafBody self) w Q E := by
  unfold constantLeafBody
  refine .bind (.signalStart hr ?_)
  refine .bind (.constant hc.seed ?_)
  refine .bind (.setSignal (by omega) ?_)
  refine .setSignal (by simp; omega) (hQ _ (((View.Within.refl _ w).write _ ?_).write _ ?_) ?_)
  · simp only
    omega
  · simp only
    omega
  · simp [View.Holds]

/-- The inverse is missing for zero only. -/
theorem isZero_value (x : Scalar) : -(x * x.inv) + 1 = Scalar.eqFlag x 0 := by
  apply Scalar.toZMod_injective
  by_cases hx : x = 0
  · subst hx
    rw [Scalar.zero_mul]
    simp [Scalar.eqFlag, Scalar.ofBool]
  · rw [Scalar.mul_inv_self hx]
    simp [Scalar.eqFlag, Scalar.ofBool, hx]

/-- The answer is one for zero, and zero for anything else, so its assertion holds. -/
theorem isZeroBody_meets {x : Scalar} (hc : Runs w.circuit k) (hr : w.records self = some r)
    (hin : w.signals (r.signalStart + 1) = some x)
    (hsize : r.signalStart + 3 ≤ w.size)
    (hQ : ∀ w', w.Within ⟨r.signalStart, 3, 0, 0⟩ w' →
      w'.signals r.signalStart = some (Scalar.eqFlag x 0) → Q () w') :
    Procedure.Meets enter (isZeroBody self) w Q E := by
  have hzero : x * Scalar.eqFlag x 0 = 0 := by
    by_cases hx : x = 0
    · rw [hx, Scalar.zero_mul]
    · rw [show Scalar.eqFlag x 0 = 0 by simp [Scalar.eqFlag, Scalar.ofBool, hx], Scalar.mul_zero]
  unfold isZeroBody
  refine .bind (.signalStart hr ?_)
  refine .bind (.signal hin ?_)
  refine .bind (.setSignal (by omega) ?_)
  refine .bind (.signal (View.signals_write_self ..) ?_)
  refine .bind (.constant (v := 1) (by simpa using hc.one) ?_)
  rw [isZero_value]
  refine .bind (.setSignal (by simp; omega) ?_)
  refine .assert_true (by rw [hzero]; rfl)
    (hQ _ (((View.Within.refl _ w).write _ ?_).write _ ?_) (View.signals_write_self ..))
  · simp only
    omega
  · simp only
    omega

/-! ### Bits -/

/-- Some bits of a scalar, as scalars. -/
def bitsFrom (x : Scalar) (i count : Nat) : List Scalar :=
  (List.range' i count).map fun j => Scalar.ofBool (x.val.testBit j)

/-- The bits from number `i` on are taken, and the sum goes on from the lower ones. -/
theorem num2BitsLoop_meets (enter : Enter) (self : Handle) {x : Scalar} {count i start : Nat}
    {Q : Scalar → View → Prop}
    (hsize : start + i + count ≤ w.size) (hbits : i + count ≤ Scalar.width)
    (hQ : ∀ w', w.Within ⟨start + i, count, 0, 0⟩ w' → w'.Holds (start + i) (bitsFrom x i count) →
      Q (Scalar.ofNat (x.val % 2 ^ (i + count))) w') :
    Procedure.Meets enter (num2BitsLoop self start 1 x count i (Scalar.ofNat (x.val % 2 ^ i))
      (Scalar.ofNat (2 ^ i))) w Q E := by
  induction count generalizing i w with
  | zero => exact .pure (hQ w (.refl _ w) trivial)
  | succ count ih =>
    have hlt : start + i < w.size := by omega
    unfold num2BitsLoop
    rw [Scalar.band_shr x (by omega)]
    refine .bind (.setSignal hlt ?_)
    refine .bind (.signal (View.signals_write_self ..) ?_)
    refine .bind (.assert_true (by rw [Scalar.bit_mul_self_sub]; rfl) ?_)
    rw [Scalar.ofNat_mod_two_pow, Scalar.ofNat_two_pow_succ]
    refine ih (by simp; omega) (by omega) ?_
    intro w' hw' hl
    have hwrite := (View.Within.refl ⟨start + i, count + 1, 0, 0⟩ w).write
      (Scalar.ofBool (x.val.testBit i)) (i := start + i) (by simp)
    rw [← Nat.add_assoc, Nat.add_right_comm i count 1] at hQ
    refine hQ w' (hwrite.trans (hw'.mono ⟨fun j => ?_, fun j => ?_⟩)) ⟨?_, hl⟩
    · simp only
      omega
    · simp only
      omega
    · rw [hw'.signals (start + i) (by simp only; omega), View.signals_write_self]

/-- The bits are all of the input if it is small enough, and the last assertion is refused if it
    is not. -/
theorem num2BitsBody_meets {x : Scalar} (hc : Runs w.circuit k) (hr : w.records self = some r)
    (htemplate : r.template = num2BitsId) (hin : w.signals (r.signalStart + bits) = some x)
    (hsize : r.signalStart + bits ≤ w.size)
    (hQ : x.val < 2 ^ bits → ∀ w', w.Within ⟨r.signalStart, bits, 0, 0⟩ w' →
      w'.Holds r.signalStart (bitsFrom x 0 bits) → Q () w')
    (hE : 2 ^ bits ≤ x.val → ∀ w', w.Within ⟨r.signalStart, bits, 0, 0⟩ w' →
      E (.refused (.assertionFailed num2BitsShape.name r.label sumAssertLine)) w') :
    Procedure.Meets enter (num2BitsBody self) w Q E := by
  have hsum : (Scalar.eqFlag (Scalar.ofNat (x.val % 2 ^ bits)) x).isTrue = true ↔
      x.val < 2 ^ bits := by
    have hsmall : x.val % 2 ^ bits < Scalar.modulus :=
      Nat.lt_of_le_of_lt (Nat.mod_le ..) x.lt_modulus
    rw [Scalar.isTrue_eqFlag, beq_iff_eq, Scalar.ext_iff, Scalar.val_ofNat,
      Nat.mod_eq_of_lt hsmall]
    exact ⟨fun h => h ▸ Nat.mod_lt _ (by decide), Nat.mod_eq_of_lt⟩
  have hloop := num2BitsLoop_meets enter self (i := 0) (x := x) (w := w) (E := E)
    (Q := fun sum w' => Procedure.Meets enter
      (Procedure.assert self (Scalar.eqFlag sum x) sumAssertLine) w' Q E)
    (show r.signalStart + 0 + bits ≤ w.size from hsize) (by decide)
  rw [Nat.pow_zero, Nat.mod_one, Nat.zero_add, Nat.add_zero] at hloop
  unfold num2BitsBody
  refine .bind (.signalStart hr ?_)
  refine .bind (.constant hc.one ?_)
  refine .bind (.signal hin ?_)
  refine .bind (hloop fun w' hw' hl => ?_)
  by_cases hx : x.val < 2 ^ bits
  · exact .assert_true (hsum.mpr hx) (hQ hx w' hw' hl)
  · have hr' : w'.records self = some r := (hw'.records self (by simp)).trans hr
    have hshape : w'.circuit.templates.shape? r.template = some num2BitsShape := by
      rw [hw'.circuit, htemplate]
      exact hc.shape? num2BitsId rfl
    exact .assert_false (Bool.eq_false_iff.mpr (hx ∘ hsum.mp)) hr' hshape
      (hE (Nat.not_lt.mp hx) w' hw')

end

end CircuitWitness.Sample
