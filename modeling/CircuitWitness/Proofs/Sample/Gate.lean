import CircuitWitness.Proofs.Sample.Leaf
/-
  What a gate comes to.

  A gate always asks its first child whether the input is zero, and asks the second one for the
  bits of the input only when the flag is set.  So an input with too many bits fails a gate whose
  flag is set, and the failure is the one of the second child; any other input passes, and the
  output is `gateOutput`.
-/

namespace CircuitWitness.Sample

variable {k : Nat} {enter : Enter} {w w' : View} {self : Handle} {r : Component} {x flag : Scalar}
  {E : Fault → View → Prop}

/-! ## Sums -/

/-- Signals that hold values are added up. -/
theorem sumSignals_meets {l : List Scalar} {i count : Nat} {sum : Scalar}
    {Q : Scalar → View → Prop} (hcount : l.length = count) (h : w.Holds i l)
    (hQ : Q (l.foldl (· + ·) sum) w) :
    Procedure.Meets enter (sumSignals i count sum) w Q E := by
  subst hcount
  induction l generalizing i sum with
  | nil => exact .pure hQ
  | cons v rest ih => exact .bind (.signal h.1 (ih h.2 hQ))

/-- The bits of a scalar add up to the number of those that are one. -/
theorem foldl_bitsFrom (x : Scalar) (i count : Nat) (sum : Scalar) :
    (bitsFrom x i count).foldl (· + ·) sum
      = sum + Scalar.ofNat ((List.range' i count).countP fun j => x.val.testBit j) := by
  unfold bitsFrom
  induction count generalizing i sum with
  | zero => exact (Scalar.add_zero sum).symm
  | succ count ih =>
    rw [List.range'_succ, List.map_cons, List.foldl_cons, ih, List.countP_cons, Scalar.add_assoc,
      Scalar.ofBool_eq, ← Scalar.ofNat_add, Nat.add_comm]
    cases x.val.testBit i <;> rfl

/-- A small scalar has no ones above its lowest bits. -/
theorem ones_eq {x : Scalar} {n : Nat} (hn : n ≤ Scalar.width) (hx : x.val < 2 ^ n) :
    x.ones = (List.range' 0 n).countP fun j => x.val.testBit j := by
  have hhigh : ((List.range' n (Scalar.width - n)).countP fun j => x.val.testBit j) = 0 := by
    rw [List.countP_eq_zero]
    intro j hj
    rw [List.mem_range'_1] at hj
    rw [Nat.testBit_lt_two_pow (Nat.lt_of_lt_of_le hx (Nat.pow_le_pow_right (by decide) hj.1))]
    decide
  unfold Scalar.ones
  rw [List.range_eq_range', show Scalar.width = n + (Scalar.width - n) by omega,
    ← List.range'_append_1, List.countP_append, Nat.zero_add, hhigh, Nat.add_zero]

/-! ## The children -/

/-- What a gate answers: one for zero, and the number of ones if the flag is set. -/
def gateOutput (x flag : Scalar) : Scalar :=
  Scalar.eqFlag x 0 + if flag = 0 then 0 else Scalar.ofNat x.ones

/-- The first child answers whether the input is zero. -/
theorem gateZero_meets {β : Type} {start : Nat} {levels : Nat} {name : String}
    {p : Scalar → Procedure β} {Q : β → View → Prop} (hroom : Room w self start 11 3)
    (hr : w.records self = some r) (hslots : r.slots.size = 2)
    (hfree : w.records ⟨self.index + 1⟩ = none)
    (hQ : ∀ w', (w.put self
        { r with slots := r.slots.setIfInBounds 0 (some ⟨self.index + 1⟩) }).Within
          ⟨start + 3, 3, self.index + 1, 1⟩ w' → w'.Done ⟨self.index + 1⟩ →
      w'.signals (start + 3) = some (Scalar.eqFlag x 0) →
      Procedure.Meets (enterWithin (levels + 1)) (p (Scalar.eqFlag x 0)) w' Q E) :
    Procedure.Meets (enterWithin (levels + 1)) (do
      let zeroHandle ← Procedure.handleAfter self 1
      Procedure.createChild self 0 zeroHandle isZeroId (start + 3) name
      let zero ← Procedure.child self 0
      Procedure.writeInput zero 1 x
      let isZero ← Procedure.signal (start + 3)
      p isZero) w Q E := by
  obtain ⟨⟨k, hruns⟩, hsize, hhandles, hwords⟩ := hroom
  refine .newChild_fed hr (by omega) (by decide) (by omega) (by omega) hfree
    (hruns.shape? isZeroId rfl) rfl (by decide) (by decide)
    (by show start + 3 + 3 ≤ _; omega) (hruns.body? isZeroId rfl _)
    fun w₁ hcircuit hsize₁ hin hchild => ?_
  show Procedure.Meets (enterWithin levels) (isZeroBody _) _ _ _
  refine isZeroBody_meets (hcircuit.symm ▸ hruns) hchild hin
    (by rw [hsize₁]; show start + 3 + 3 ≤ _; omega)
    fun w₂ hw₂ hout => ⟨hw₂, fun w' hw' hdone hsignals => ?_⟩
  have hout' : w'.signals (start + 3) = some (Scalar.eqFlag x 0) := hsignals ▸ hout
  exact .bind (.signal hout' (hQ w' hw' hdone hout'))

/-- The second child answers the bits of the input, or fails if it has too many. -/
theorem gateBits_meets {β : Type} {start : Nat} {levels : Nat} {name : String} {p : Procedure β}
    {Q : β → View → Prop} (hroom : Room w self start 11 3) (hr : w.records self = some r)
    (hslots : r.slots.size = 2) (hfree : w.records ⟨self.index + 2⟩ = none)
    (hQ : x.val < 2 ^ bits → ∀ w', (w.put self
        { r with slots := r.slots.setIfInBounds 1 (some ⟨self.index + 2⟩) }).Within
          ⟨start + 6, 5, self.index + 2, 1⟩ w' → w'.Done ⟨self.index + 2⟩ →
      w'.Holds (start + 6) (bitsFrom x 0 bits) →
      Procedure.Meets (enterWithin (levels + 1)) p w' Q E)
    (hE : 2 ^ bits ≤ x.val → ∀ w',
      E (.refused (.assertionFailed num2BitsShape.name name sumAssertLine)) w') :
    Procedure.Meets (enterWithin (levels + 1)) (do
      let bitsHandle ← Procedure.handleAfter self 2
      Procedure.createChild self 1 bitsHandle num2BitsId (start + 6) name
      let n2b ← Procedure.child self 1
      Procedure.writeInput n2b bits x
      p) w Q E := by
  obtain ⟨⟨k, hruns⟩, hsize, hhandles, hwords⟩ := hroom
  refine .newChild_fed hr (by omega) (by decide) (by omega) (by omega) hfree
    (hruns.shape? num2BitsId rfl) rfl (by decide) (by decide)
    (by show start + 6 + 5 ≤ _; omega) (hruns.body? num2BitsId rfl _)
    fun w₁ hcircuit hsize₁ hin hchild => ?_
  show Procedure.Meets (enterWithin levels) (num2BitsBody _) _ _ _
  refine num2BitsBody_meets (hcircuit.symm ▸ hruns) hchild rfl hin
    (by rw [hsize₁]; show start + 6 + 4 ≤ _; omega)
    (fun hx w₂ hw₂ hout => ⟨hw₂.mono ⟨fun i => ?_, fun _ hi => hi⟩, fun w' hw' hdone hsignals =>
      hQ hx w' hw' hdone (hout.congr hsignals)⟩) fun hx w₂ _ => hE hx w₂
  show i < start + 6 ∨ start + 6 + 5 ≤ i → i < start + 6 ∨ start + 6 + 4 ≤ i
  omega

/-! ## The body -/

/-- The output is set, and the children that there are have run and are released. -/
theorem gateEnd_meets {start next : Nat} {slots : Array (Option Handle)} {y : Scalar}
    {Q : Unit → View → Prop} (hsize : start + 11 ≤ w.size)
    (h : View.Underway w self start 11 3 r slots next w')
    (hQ : ∀ w'', w.Within ⟨start, 11, self.index, 3⟩ w'' →
      (∃ r', w''.records self = some r') → w''.signals start = some y → Q () w'') :
    Procedure.Meets enter (do
      Procedure.setSignal start y
      Procedure.releaseChildren self) w' Q E := by
  refine .bind (.setSignal (by rw [h.within.size]; omega) ?_)
  refine (h.write y (by omega)).releaseChildren fun w'' hw'' hr'' hsignals =>
    hQ w'' hw'' hr'' ?_
  rw [hsignals]
  exact View.signals_write_self ..

/-- **A gate answers `gateOutput`, or fails as its second child does.** -/
theorem gateBody_meets {levels : Nat} {Q : Unit → View → Prop}
    (hroom : Room w self r.signalStart 11 3) (hr : w.records self = some r)
    (hslots : r.slots = #[none, none])
    (hfree : ∀ j, 1 ≤ j → j < 3 → w.records ⟨self.index + j⟩ = none)
    (hin : w.Holds (r.signalStart + 1) [x, flag])
    (hQ : flag = 0 ∨ x.val < 2 ^ bits → ∀ w', w.Within ⟨r.signalStart, 11, self.index, 3⟩ w' →
      (∃ r', w'.records self = some r') →
      w'.signals r.signalStart = some (gateOutput x flag) → Q () w')
    (hE : ¬ (flag = 0 ∨ x.val < 2 ^ bits) → ∀ w', E (.refused
      (.assertionFailed num2BitsShape.name s!"{r.label}.n2b" sumAssertLine)) w') :
    Procedure.Meets (enterWithin (levels + 1)) (gateBody self) w Q E := by
  obtain ⟨hx, hflag, -⟩ := hin
  have hsize := hroom.signals
  have h₀ : View.Underway w self r.signalStart 11 3 r #[none, none] 1 w :=
    .begin hr hslots (by simp) (by decide) hfree
  unfold gateBody
  refine .bind (.signalStart hr ?_)
  refine .bind (.label hr ?_)
  refine .bind (.signal hx ?_)
  refine .bind (.signal hflag ?_)
  refine gateZero_meets hroom h₀.record rfl (hfree 1 (by decide) (by decide))
    fun w₁ hw₁ hzero hout => ?_
  have h₁ := h₀.child hw₁ (by decide) (by decide) (by decide) hzero
  by_cases hf : flag = 0
  · -- The flag is not set, so there is no second child.
    have hfalse : flag.isTrue = false := by rw [hf]; rfl
    rw [hfalse]
    refine .bind (.pure (gateEnd_meets hsize h₁ fun w' hw' hr' hy => hQ (.inl hf) w' hw' hr' ?_))
    rw [hy]
    unfold gateOutput
    rw [if_pos hf, Scalar.add_zero]
  · have htrue : flag.isTrue = true := Scalar.isTrue_iff.mpr hf
    rw [if_pos htrue]
    refine gateBits_meets (hroom.within h₁.within) h₁.record rfl (h₁.free 2 (by decide) (by decide))
      (fun hx w₂ hw₂ hbits hout₂ => ?_) fun hx w₂ => hE (not_or.mpr ⟨hf, Nat.not_lt.mpr hx⟩) w₂
    have h₂ := h₁.child hw₂ (by decide) (by decide) (by decide) hbits
    refine .bind (sumSignals_meets (by simp [bitsFrom]) hout₂ ?_)
    refine gateEnd_meets hsize h₂ fun w' hw' hr' hy => hQ (.inr hx) w' hw' hr' ?_
    rw [hy, foldl_bitsFrom, ← ones_eq (by decide) hx]
    unfold gateOutput
    rw [if_neg hf]

/-- The two inputs run a gate that waits for them. -/
theorem feedGate_meets {β : Type} {levels : Nat} {id : Handle} {p : Procedure β}
    {Q : β → View → Prop} (hroom : Room w id r.signalStart 11 3) (hr : w.records id = some r)
    (htemplate : r.template = gateId) (hs : r.stage = .created) (hp : r.pending = 2)
    (hslots : r.slots = #[none, none])
    (hfree : ∀ j, 1 ≤ j → j < 3 → w.records ⟨id.index + j⟩ = none)
    (hQ : flag = 0 ∨ x.val < 2 ^ bits → ∀ w', w.Within ⟨r.signalStart, 11, id.index, 3⟩ w' →
      w'.Done id → w'.signals r.signalStart = some (gateOutput x flag) →
      Procedure.Meets (enterWithin (levels + 2)) p w' Q E)
    (hE : ¬ (flag = 0 ∨ x.val < 2 ^ bits) → ∀ w', E (.refused
      (.assertionFailed num2BitsShape.name s!"{r.label}.n2b" sumAssertLine)) w') :
    Procedure.Meets (enterWithin (levels + 2)) (do
      Procedure.writeInput id 1 x
      Procedure.writeInput id 2 flag
      p) w Q E := by
  obtain ⟨k, hruns⟩ := hroom.runs
  have hsize := hroom.signals
  have hshape : ∀ w' : View, w'.circuit = w.circuit →
      w'.circuit.templates.shape? r.template = some gateShape := by
    intro w' hw'
    rw [hw', htemplate]
    exact hruns.shape? gateId rfl
  have hbody : ∀ w' : View, w'.circuit = w.circuit →
      w'.circuit.templates.body? r.template w'.config.useAlternate = some gateBody := by
    intro w' hw'
    rw [hw', htemplate]
    exact hruns.body? gateId rfl _
  refine .bind (.writeInput (n := 1) hr hs (hshape w rfl) (by decide) (by omega) hp (by decide) ?_)
  refine .bind (.writeInput_last (r := { r with pending := 1 }) (View.records_put_self ..) hs
    (hshape _ (by simp)) (by decide) (by simp; omega) rfl (hbody _ (by simp)) ?_)
  show Procedure.Meets (enterWithin (levels + 1)) (gateBody id) _ _ _
  generalize hw₁ : ((((w.write _ x).put id _).write _ flag).put id _) = w₁
  have hwithin : w.Within ⟨r.signalStart, 11, id.index, 3⟩ w₁ := by
    subst hw₁
    refine ((((View.Within.refl _ w).write _ ?_).put _ ?_).write _ ?_).put _ ?_
    all_goals simp only; omega
  have hr₁ : w₁.records id = some { r with pending := 0, stage := .running } :=
    hw₁ ▸ View.records_put_self ..
  have hin₁ : w₁.Holds (r.signalStart + 1) [x, flag] := by
    subst hw₁
    simp [View.Holds]
  have hfree₁ : ∀ j, 1 ≤ j → j < 3 → w₁.records ⟨id.index + j⟩ = none := by
    intro j hj hj'
    subst hw₁
    simpa [id.ne_after (Nat.ne_of_gt hj)] using hfree j hj hj'
  refine gateBody_meets (r := { r with pending := 0, stage := .running }) (hroom.within hwithin)
    hr₁ hslots hfree₁ hin₁ (fun hx w₂ hw₂ hr₂ hout => ?_) hE
  obtain ⟨r₂, hr₂⟩ := hr₂
  exact ⟨r₂, hr₂, hQ hx _ ((hwithin.trans hw₂).put _ (by simp only; omega)) (View.done_put ..)
    ((congrFun (View.signals_put ..) _).trans hout)⟩

end CircuitWitness.Sample
