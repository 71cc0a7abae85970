import CircuitWitness.Proofs.Sample.Leaf
/-
  What an array of multipliers comes to, for every width.

  The body makes two passes.  The first creates the multipliers; after `i` rounds the first `i` of
  them wait for their inputs, and the other handles are still free (`Created`).  The second pass
  feeds them; after `i` rounds the first `i` products are in place, and the blocks of the first `i`
  multipliers hold their product and their inputs (`Multiplied`).  The order in which a multiplier
  gets its inputs is not the same for odd and even positions, and makes no difference
  (`multiplier_meets`).

  As a circuit of its own, an array fills all signals, and so they are the witness.
-/

namespace CircuitWitness.Sample

open Circuit

variable {k m : Nat} {w w₀ w' : View} {arr id : Handle} {r r₀ : Component}
  {E : Fault → View → Prop}

/-! ## One multiplier -/

/-- Two inputs, whichever comes first, run a multiplier. -/
theorem multiplier_meets {β : Type} {levels l₁ l₂ : Nat} {a b v₁ v₂ : Scalar} {p : Procedure β}
    {Q : β → View → Prop}
    (hl : (l₁ = 1 ∧ v₁ = a ∧ l₂ = 2 ∧ v₂ = b) ∨ (l₁ = 2 ∧ v₁ = b ∧ l₂ = 1 ∧ v₂ = a))
    (hc : Runs w.circuit m) (hr : w.records id = some r) (ht : r.template = multiplierId)
    (hs : r.stage = .created) (hp : r.pending = 2) (hsize : r.signalStart + 3 ≤ w.size)
    (hQ : ∀ w', w.Within ⟨r.signalStart, 3, id.index, 1⟩ w' →
      w'.Holds r.signalStart [a * b, a, b] →
      w'.records id = some { r with pending := 0, stage := .finished } →
      Procedure.Meets (enterWithin (levels + 1)) p w' Q E) :
    Procedure.Meets (enterWithin (levels + 1)) (do
      Procedure.writeInput id l₁ v₁
      Procedure.writeInput id l₂ v₂
      p) w Q E := by
  have hshape : ∀ w' : View, w'.circuit = w.circuit →
      w'.circuit.templates.shape? r.template = some multiplierShape := by
    intro w' hw'
    rw [hw', ht]
    exact hc.shape? multiplierId rfl
  have hinput : multiplierShape.isInput l₁ = true ∧ multiplierShape.isInput l₂ = true := by
    rcases hl with ⟨rfl, -, rfl, -⟩ | ⟨rfl, -, rfl, -⟩ <;> decide
  have hlt : l₁ < 3 ∧ l₂ < 3 := by omega
  have hid : id.index ≤ id.index ∧ id.index < id.index + 1 := by omega
  have hinside : ∀ l < 3, r.signalStart ≤ r.signalStart + l ∧
      r.signalStart + l < r.signalStart + 3 := by omega
  have hbody : ∀ w' : View, w'.circuit = w.circuit →
      w'.circuit.templates.body? r.template w'.config.useAlternate = some multiplierBody := by
    intro w' hw'
    rw [hw', ht]
    exact hc.body? multiplierId rfl _
  refine .bind (.writeInput (n := 1) hr hs (hshape w rfl) hinput.1 (by omega) hp (by decide) ?_)
  refine .bind (.writeInput_last (r := { r with pending := 1 }) (View.records_put_self ..) hs
    (hshape _ (by simp)) hinput.2 (by simp; omega) rfl (hbody _ (by simp)) ?_)
  · show Procedure.Meets (enterWithin levels) (multiplierBody id) _ _ _
    refine multiplierBody_meets (a := a) (b := b) (View.records_put_self ..) ?_
      (by simp; omega) ⟨_, by simp; rfl, hQ _ ?_ ?_ ?_⟩
    · rcases hl with ⟨rfl, rfl, rfl, rfl⟩ | ⟨rfl, rfl, rfl, rfl⟩ <;> simp [View.Holds]
    · exact ((((((View.Within.refl _ w).write _ (hinside l₁ hlt.1)).put _ hid).write _
        (hinside l₂ hlt.2)).put _ hid).write _ (hinside 0 (by decide))).put _ hid
    · rcases hl with ⟨rfl, rfl, rfl, rfl⟩ | ⟨rfl, rfl, rfl, rfl⟩ <;>
        simp [View.Holds, Nat.add_assoc]
    · exact View.records_put_self ..

/-! ## The first pass -/

/-- The handle of the multiplier of one position. -/
def multiplierAt (arr : Handle) (i : Nat) : Handle := ⟨arr.index + (1 + i)⟩

/-- The multiplier of one position, as it is created. -/
def freshMultiplier (k : Nat) (arr : Handle) (start : Nat) (name : String) (i : Nat) : Component :=
  Component.fresh multiplierId (start + 3 * k + 3 * i) 2 0 s!"{name}.mult[{i}]" (some arr)

/-- The multipliers have handles of their own, -/
theorem multiplierAt_inj {i j : Nat} (h : multiplierAt arr i = multiplierAt arr j) : i = j := by
  unfold multiplierAt at h
  rw [Handle.mk.injEq] at h
  omega

/-- none of which is the array's. -/
theorem multiplierAt_ne (arr : Handle) (i : Nat) : arr ≠ multiplierAt arr i :=
  arr.ne_after (Nat.add_comm .. ▸ Nat.succ_ne_zero i)

/-- The slots of an array hold the multipliers of the first positions. -/
def Slots (k : Nat) (arr : Handle) (i : Nat) (slots : Array (Option Handle)) : Prop :=
  slots.size = k ∧ ∀ j < i, slots[j]? = some (some (multiplierAt arr j))

/-- When all slots are filled, what they hold are the multipliers. -/
theorem Slots.of_mem {slots : Array (Option Handle)} (h : Slots k arr k slots)
    (hid : some id ∈ slots.toList) : ∃ j < k, id = multiplierAt arr j := by
  obtain ⟨j, hj⟩ := List.mem_iff_getElem?.mp hid
  rw [Array.getElem?_toList] at hj
  have hlt : j < k := h.1 ▸ (Array.getElem?_eq_some_iff.mp hj).1
  rw [h.2 j hlt] at hj
  cases hj
  exact ⟨j, hlt, rfl⟩

/-- One more slot is filled. -/
theorem Slots.next {i : Nat} {slots : Array (Option Handle)} (h : Slots k arr i slots)
    (hi : i < k) : Slots k arr (i + 1) (slots.setIfInBounds i (some (multiplierAt arr i))) := by
  obtain ⟨hsize, hslots⟩ := h
  refine ⟨by simp [hsize], fun j hj => ?_⟩
  rw [Array.getElem?_setIfInBounds]
  by_cases he : i = j
  · subst he
    rw [if_pos rfl, if_pos (hsize.symm ▸ hi)]
  · rw [if_neg he, hslots j (by omega)]

/-- So many multipliers were created, and nothing else has happened. -/
structure Created (k : Nat) (w₀ : View) (arr : Handle) (r₀ : Component) (i : Nat) (w : View) :
    Prop where
  within : w₀.Within ⟨0, 0, arr.index, k + 1⟩ w
  parent : ∃ slots, Slots k arr i slots ∧ w.records arr = some { r₀ with slots := slots }
  children : ∀ j < i, w.records (multiplierAt arr j)
    = some (freshMultiplier k arr r₀.signalStart r₀.label j)
  free : ∀ j, i ≤ j → j < k → w.records (multiplierAt arr j) = none

/-- Each round of the first pass creates the next multiplier, above the blocks of those before. -/
theorem createMultiplier_meets {enter : Enter} {i : Nat}
    (hroom : Room w₀ arr r₀.signalStart (6 * k) (k + 1)) (h : Created k w₀ arr r₀ i w)
    (hi : i < k) : Procedure.Meets enter (createMultiplier k arr r₀.signalStart r₀.label i) w
      (fun _ => Created k w₀ arr r₀ (i + 1)) E := by
  obtain ⟨⟨m, hruns⟩, -, hhandles, hwords⟩ := hroom
  obtain ⟨slots, hslots, hparent⟩ := h.parent
  have hshape : w.circuit.templates.shape? multiplierId = some multiplierShape := by
    rw [h.within.circuit]
    exact hruns.shape? multiplierId rfl
  unfold createMultiplier
  refine .bind (.handleAfter (by omega) ?_)
  refine .createChild hparent (by rw [hslots.1]; exact hi) (h.free i (Nat.le_refl i) hi)
    (by rw [h.within.capacity]; show arr.index + (1 + i) < _; omega) hshape (by decide) ?_
  show Created k w₀ arr r₀ (i + 1) ((w.put arr _).put (multiplierAt arr i) _)
  refine ⟨(h.within.put _ ?_).put _ ?_, ⟨_, hslots.next hi, ?_⟩, fun j hj => ?_, fun j hj hjk => ?_⟩
  · simp only
    omega
  · unfold multiplierAt
    simp only
    omega
  · rw [View.records_put_ne _ _ _ _ (multiplierAt_ne arr i).symm, View.records_put_self]
    rfl
  · by_cases he : i = j
    · subst he
      rw [View.records_put_self]
      rfl
    · rw [View.records_put_ne _ _ _ _ fun h => he (multiplierAt_inj h),
        View.records_put_ne _ _ _ _ (multiplierAt_ne arr j)]
      exact h.children j (by omega)
  · rw [View.records_put_ne _ _ _ _ fun h => by have := multiplierAt_inj h; omega,
      View.records_put_ne _ _ _ _ (multiplierAt_ne arr j)]
    exact h.free j (by omega) hjk

/-! ## The second pass -/

/-- The inputs of an array hold two vectors, its first `i` outputs their first products, and the
    first `i` multipliers what they were made for. -/
structure Multiplied (start : Nat) (a b : Fin k → Scalar) (i : Nat) (w : View) : Prop where
  left : ∀ j : Fin k, w.signals (start + k + j) = some (a j)
  right : ∀ j : Fin k, w.signals (start + 2 * k + j) = some (b j)
  products : ∀ j : Fin k, j < i → w.signals (start + j) = some (a j * b j)
  blocks : ∀ j : Fin k, j < i → w.Holds (start + 3 * k + 3 * j) [a j * b j, a j, b j]

/-- The products are a matter of signals only. -/
theorem Multiplied.of_signals {start i : Nat} {a b : Fin k → Scalar}
    (h : Multiplied start a b i w) (hsignals : w'.signals = w.signals) :
    Multiplied start a b i w' := by
  obtain ⟨hleft, hright, hproducts, hblocks⟩ := h
  refine ⟨?_, ?_, ?_, fun j hj => ?_⟩
  · rwa [hsignals]
  · rwa [hsignals]
  · rwa [hsignals]
  · have hblock := hblocks j hj
    rw [View.holds_iff] at hblock ⊢
    rwa [hsignals]

/-- So many multipliers were fed, and the others wait. -/
structure Fed (k : Nat) (w₀ : View) (arr : Handle) (r₀ : Component) (a b : Fin k → Scalar)
    (i : Nat) (w : View) : Prop extends Multiplied r₀.signalStart a b i w where
  within : w₀.Within ⟨r₀.signalStart, 6 * k, arr.index, k + 1⟩ w
  parent : ∃ slots, Slots k arr k slots ∧ w.records arr = some { r₀ with slots := slots }
  done : ∀ j < i, w.Done (multiplierAt arr j)
  waiting : ∀ j, i ≤ j → j < k → w.records (multiplierAt arr j)
    = some (freshMultiplier k arr r₀.signalStart r₀.label j)

/-- The second pass begins where the first one ends. -/
theorem Created.fed {a b : Fin k → Scalar} (h : Created k w₀ arr r₀ k w)
    (hleft : w₀.Holds (r₀.signalStart + k) (List.ofFn a))
    (hright : w₀.Holds (r₀.signalStart + 2 * k) (List.ofFn b)) :
    Fed k w₀ arr r₀ a b 0 w where
  left := View.holds_ofFn.mp (h.within.holds hleft (.inr (Nat.zero_le _)))
  right := View.holds_ofFn.mp (h.within.holds hright (.inr (Nat.zero_le _)))
  products _ hj := absurd hj (Nat.not_lt_zero _)
  blocks _ hj := absurd hj (Nat.not_lt_zero _)
  within := h.within.mono ⟨fun _ _ => .inr (Nat.zero_le _), fun _ => id⟩
  parent := h.parent
  done _ hj := absurd hj (Nat.not_lt_zero _)
  waiting j _ hj := h.children j hj

/-- Once the next multiplier has run and its product is copied, one more is fed. -/
theorem Fed.next {i : Nat} {a b : Fin k → Scalar} (h : Fed k w₀ arr r₀ a b i w) (hi : i < k)
    (hw' : w.Within ⟨r₀.signalStart + 3 * k + 3 * i, 3, arr.index + (1 + i), 1⟩ w')
    (hblock : w'.Holds (r₀.signalStart + 3 * k + 3 * i)
      [a ⟨i, hi⟩ * b ⟨i, hi⟩, a ⟨i, hi⟩, b ⟨i, hi⟩])
    (hrecord : w'.records (multiplierAt arr i)
      = some { freshMultiplier k arr r₀.signalStart r₀.label i with
          pending := 0, stage := .finished }) :
    Fed k w₀ arr r₀ a b (i + 1) (w'.write (r₀.signalStart + i) (a ⟨i, hi⟩ * b ⟨i, hi⟩)) := by
  have hwrite := (View.Within.refl ⟨r₀.signalStart + i, 1, 0, 0⟩ w').write
    (a ⟨i, hi⟩ * b ⟨i, hi⟩) (i := r₀.signalStart + i) (by simp only; omega)
  -- Signals of other positions, and records of other components, are as before.
  have hsignals : ∀ x, x ≠ r₀.signalStart + i → x < r₀.signalStart + 3 * k →
      (w'.write (r₀.signalStart + i) (a ⟨i, hi⟩ * b ⟨i, hi⟩)).signals x = w.signals x := by
    intro x hne hx
    rw [View.signals_write_ne _ _ _ _ hne.symm, hw'.signals x (by simp only; omega)]
  have hrecords : ∀ other, other ≠ multiplierAt arr i →
      (w'.write (r₀.signalStart + i) (a ⟨i, hi⟩ * b ⟨i, hi⟩)).records other
        = w.records other := by
    intro other hne
    have hindex : other.index ≠ arr.index + (1 + i) := fun he => hne (by
      cases other
      exact congrArg Handle.mk he)
    rw [View.records_write, hw'.records other (by simp only; omega)]
  obtain ⟨slots, hslots, hparent⟩ := h.parent
  refine { left := fun j => ?_, right := fun j => ?_, products := fun j hj => ?_,
           blocks := fun j hj => ?_, within := ?_, parent := ⟨slots, hslots, ?_⟩,
           done := fun j hj => ?_, waiting := fun j hj hjk => ?_ }
  · rw [hsignals _ (by omega) (by omega)]
    exact h.left j
  · rw [hsignals _ (by omega) (by omega)]
    exact h.right j
  · by_cases he : j = ⟨i, hi⟩
    · rw [he, View.signals_write_self]
    · have hne : (j : Nat) ≠ i := fun h => he (Fin.ext h)
      rw [hsignals _ (by omega) (by omega)]
      exact h.products j (by omega)
  · refine hwrite.holds ?_ (.inr (by simp only; omega))
    by_cases he : j = ⟨i, hi⟩
    · rw [he]
      exact hblock
    · have hne : (j : Nat) ≠ i := fun h => he (Fin.ext h)
      refine hw'.holds (h.blocks j (by omega)) (.inl ?_)
      simp only [List.length_cons, List.length_nil]
      omega
  · refine (h.within.trans (hw'.mono ⟨fun x => ?_, fun x => ?_⟩)).write _ ?_
    · simp only
      omega
    · simp only
      omega
    · simp only
      omega
  · rw [hrecords _ (multiplierAt_ne arr i)]
    exact hparent
  · by_cases he : j = i
    · rw [he]
      exact ⟨_, (congrFun (View.records_write ..) _).trans hrecord, .inl rfl⟩
    · have hsame := hrecords (multiplierAt arr j) fun h => he (multiplierAt_inj h)
      exact (h.done j (by omega)).congr hsame
  · rw [hrecords _ fun h => by have := multiplierAt_inj h; omega]
    exact h.waiting j (by omega) hjk

/-- Each round of the second pass feeds a multiplier and takes its product; the second input runs
    it, whichever of the two that is. -/
theorem feedMultiplier_meets {levels i : Nat} {a b : Fin k → Scalar}
    (hroom : Room w₀ arr r₀.signalStart (6 * k) (k + 1)) (h : Fed k w₀ arr r₀ a b i w)
    (hi : i < k) : Procedure.Meets (enterWithin (levels + 1))
      (feedMultiplier k arr r₀.signalStart i) w (fun _ => Fed k w₀ arr r₀ a b (i + 1)) E := by
  obtain ⟨⟨m, hruns⟩, hsignals, -, -⟩ := hroom
  obtain ⟨slots, hslots, hparent⟩ := h.parent
  have hwaiting := h.waiting i (Nat.le_refl i) hi
  have hruns' : Runs w.circuit m := h.within.circuit.symm ▸ hruns
  have hsize := h.within.size
  -- Whichever input came first, the product is copied to its place.
  have hrest : ∀ w', w.Within ⟨r₀.signalStart + 3 * k + 3 * i, 3, arr.index + (1 + i), 1⟩ w' →
      w'.Holds (r₀.signalStart + 3 * k + 3 * i) [a ⟨i, hi⟩ * b ⟨i, hi⟩, a ⟨i, hi⟩, b ⟨i, hi⟩] →
      w'.records (multiplierAt arr i)
        = some { freshMultiplier k arr r₀.signalStart r₀.label i with
            pending := 0, stage := .finished } →
      Procedure.Meets (enterWithin (levels + 1)) (do
        let childStart ← Procedure.signalStart (multiplierAt arr i)
        let c ← Procedure.signal childStart
        Procedure.setSignal (r₀.signalStart + i) c) w'
          (fun _ => Fed k w₀ arr r₀ a b (i + 1)) E := by
    intro w' hw' hblock hrecord
    refine .bind (.signalStart hrecord ?_)
    refine .bind (.signal hblock.1 ?_)
    refine .setSignal (by rw [hw'.size]; omega) ?_
    exact h.next hi hw' hblock hrecord
  unfold feedMultiplier
  refine .bind (.child hparent (hslots.2 i hi) ?_)
  refine .bind (.signal (h.left ⟨i, hi⟩) ?_)
  refine .bind (.signal (h.right ⟨i, hi⟩) ?_)
  split
  · exact multiplier_meets (.inl ⟨rfl, rfl, rfl, rfl⟩) hruns' hwaiting rfl rfl rfl
      (by show r₀.signalStart + 3 * k + 3 * i + 3 ≤ _; omega) hrest
  · exact multiplier_meets (.inr ⟨rfl, rfl, rfl, rfl⟩) hruns' hwaiting rfl rfl rfl
      (by show r₀.signalStart + 3 * k + 3 * i + 3 ≤ _; omega) hrest

/-! ## The body -/

/-- The products, in the outputs of the array; what else is in its region, the multipliers have
    left there. -/
theorem multiplierArrayBody_meets {levels : Nat} {a b : Fin k → Scalar} {Q : Unit → View → Prop}
    (hroom : Room w arr r.signalStart (6 * k) (k + 1)) (hlevels : k ≤ levels)
    (hr : w.records arr = some r) (hslots : r.slots.size = k)
    (hfree : ∀ j < k, w.records (multiplierAt arr j) = none)
    (hleft : w.Holds (r.signalStart + k) (List.ofFn a))
    (hright : w.Holds (r.signalStart + 2 * k) (List.ofFn b))
    (hQ : ∀ w', w.Within ⟨r.signalStart, 6 * k, arr.index, k + 1⟩ w' →
      (∃ r', w'.records arr = some r') → Multiplied r.signalStart a b k w' → Q () w') :
    Procedure.Meets (enterWithin levels) (multiplierArrayBody k arr) w Q E := by
  unfold multiplierArrayBody
  refine .bind (.signalStart hr ?_)
  refine .bind (.label hr ?_)
  refine .bind (.forM_range (Created k w arr r)
    ⟨.refl _ w, ⟨r.slots, ⟨hslots, fun j hj => absurd hj (Nat.not_lt_zero j)⟩, hr⟩,
      fun j hj => absurd hj (Nat.not_lt_zero j), fun j _ => hfree j⟩
    (fun i hi w' h => createMultiplier_meets hroom h hi) fun w₁ hcreated => ?_)
  refine .bind (.forM_range (Fed k w arr r a b) (hcreated.fed hleft hright)
    (fun i hi w' h => ?_) fun w₂ hfed => ?_)
  · -- A round enters a body, so there has to be a level for it.
    obtain ⟨l, rfl⟩ : ∃ l, levels = l + 1 := ⟨levels - 1, by omega⟩
    exact feedMultiplier_meets hroom h hi
  · obtain ⟨slots, hslots, hparent⟩ := hfed.parent
    refine .releaseChildren hfed.within rfl hparent (fun id hid => ?_) fun w₃ hw₃ hr₃ hsignals =>
      hQ w₃ hw₃ ⟨_, hr₃⟩ (hfed.toMultiplied.of_signals hsignals)
    obtain ⟨j, hj, rfl⟩ := hslots.of_mem hid
    refine ⟨hfed.done j hj, ?_⟩
    unfold multiplierAt
    simp only
    omega

/-! ## The circuit -/

/-- The main inputs of an array, in order. -/
theorem gives_array {a b : Fin k → Scalar} {inputs : InputValues}
    (hinputs : inputs.entries.Perm [("a", List.ofFn a), ("b", List.ofFn b)]) :
    (arrayCircuit k).Gives (List.ofFn a ++ List.ofFn b) inputs := by
  have hslices : (arrayCircuit k).inputs.signals.map
      (fun s => (s.name, s.slice (List.ofFn a ++ List.ofFn b)))
        = [("a", List.ofFn a), ("b", List.ofFn b)] := by
    simp [arrayCircuit, arrayDescription, InputSignal.slice]
  unfold Circuit.Gives
  rwa [hslices]

theorem length_array (a b : Fin k → Scalar) :
    (List.ofFn a ++ List.ofFn b).length = (arrayCircuit k).mainInputCount := by
  rw [List.length_append, List.length_ofFn, List.length_ofFn, ← Nat.two_mul]
  rfl

/-- Each name of the index leads back to its signals. -/
theorem addressed_array (hk : 2 * k < 2 ^ 32) : (arrayCircuit k).Addressed := by
  refine .of_accept (arrayInputs_eq k) (accept_array k) rfl hk ?_
  show 1 + k + 2 * k ≤ 1 + (3 * k + k * 3)
  omega

/-- One, the products, the inputs, and then the product and the inputs of each multiplier. -/
def arrayWitness (a b : Fin k → Scalar) : List Scalar :=
  1 :: (List.ofFn (fun i => a i * b i) ++ List.ofFn a ++ List.ofFn b ++
    (List.finRange k).flatMap fun i => [a i * b i, a i, b i])

/-- The one, the products, the two vectors, and the block of each multiplier. -/
theorem length_arrayWitness (a b : Fin k → Scalar) : (arrayWitness a b).length = 1 + 6 * k := by
  unfold arrayWitness
  simp
  omega

/-- What an array leaves is the witness, from the first signal to the last. -/
theorem Multiplied.witness_eq {a b : Fin k → Scalar} (h : Multiplied 1 a b k w)
    (hone : w.signals 0 = some 1) (hall : w.circuit.witness = []) (hsize : w.size = 1 + 6 * k) :
    w.witness = arrayWitness a b := by
  obtain ⟨hleft, hright, hproducts, hblocks⟩ := h
  refine View.Holds.witness_eq ⟨hone, ?_⟩ hall ((length_arrayWitness a b).trans hsize.symm)
  rw [View.holds_append, View.holds_append, View.holds_append,
    View.holds_flatMap (n := 3) fun _ => rfl]
  simp only [List.length_append, List.length_ofFn]
  refine ⟨⟨⟨View.holds_ofFn.mpr fun j => hproducts j j.isLt, View.holds_ofFn.mpr hleft⟩,
    View.holds_ofFn.mpr fun j => ?_⟩, fun j => ?_⟩
  · rw [show 0 + 1 + (k + k) + j = 1 + 2 * k + j by omega]
    exact hright j
  · rw [show 0 + 1 + (k + k + k) + 3 * j = 1 + 3 * k + 3 * j by omega]
    exact hblocks j j.isLt

theorem totalSignals_array (k : Nat) : (arrayCircuit k).totalSignals = 1 + 6 * k := by
  show 1 + (3 * k + k * 3) = _
  omega

/-- There is room for an array at the main component. -/
theorem room_array (hk : 2 * k < 2 ^ 32) (hcircuit : w.circuit = arrayCircuit k)
    (hsize : w.size = (arrayCircuit k).totalSignals)
    (hcapacity : w.capacity = (arrayCircuit k).totalComponents) :
    Room w .mainComponent 1 (6 * k) (k + 1) := by
  refine ⟨⟨k, hcircuit ▸ ⟨rfl, rfl⟩⟩, ?_, ?_, ?_⟩
  · rw [hsize, totalSignals_array]
  · rw [hcapacity]
    show 0 + (k + 1) ≤ k + 1
    omega
  · show 0 + (k + 1) ≤ 2 ^ 32
    omega

/-- From where a calculation begins it, the body of an array comes to the witness. -/
theorem arrayCircuit_meets {levels : Nat} {config : Config} {a b : Fin k → Scalar}
    (hk : 2 * k < 2 ^ 32) (hlevels : k ≤ levels) :
    Procedure.Meets (enterWithin levels) (multiplierArrayBody k .mainComponent)
      ((arrayCircuit k).begunView config (List.ofFn a ++ List.ofFn b))
      (fun _ w' => (∃ r, w'.records .mainComponent = some r) ∧
        w'.witness = arrayWitness a b) E := by
  obtain ⟨hone, hin⟩ := (addressed_array hk).holds_begunView config (List.ofFn a ++ List.ofFn b)
  rw [View.holds_append, List.length_ofFn] at hin
  refine multiplierArrayBody_meets (a := a) (b := b)
    (room_array hk (circuit_begunView ..) (size_begunView ..) (capacity_begunView ..)) hlevels
    (records_begunView ..) ?_ (fun j _ => records_begunView_ne _ _ _ (multiplierAt_ne _ j)) hin.1
    ?_ ?_
  · exact Array.size_replicate
  · show View.Holds _ (1 + 2 * k) _
    rw [Nat.two_mul, ← Nat.add_assoc]
    exact hin.2
  · intro w' hw' hrecord hdone
    refine ⟨hrecord, hdone.witness_eq ?_ ?_ ?_⟩
    · rw [hw'.signals 0 (.inl Nat.one_pos), hone]
    · rw [hw'.circuit, circuit_begunView]
      rfl
    · rw [hw'.size, size_begunView, totalSignals_array]

/-- **An array of multipliers multiplies, whatever its width.**  Every calculation succeeds, and
    shows the products, the inputs, and then each multiplier's product and inputs. -/
theorem multiplierArray_calculates (k : Nat) (hk : 2 * k < 2 ^ 32) (config : Config)
    (a b : Fin k → Scalar) {inputs : InputValues}
    (hinputs : inputs.entries.Perm [("a", List.ofFn a), ("b", List.ofFn b)]) :
    ∃ circuit ws, multiplierArray k = .ok circuit ∧ circuit.calculate config inputs = .ok ws ∧
      ws.length = 1 + 6 * k ∧
      ws = 1 :: (List.ofFn (fun i => a i * b i) ++ List.ofFn a ++ List.ofFn b ++
        (List.finRange k).flatMap fun i => [a i * b i, a i, b i]) := by
  have hruns : Runs (arrayCircuit k) k := ⟨rfl, rfl⟩
  have hend := (addressed_array hk).calculate_meets (Q := (· = arrayWitness a b))
    (E := fun _ => False) (length_array a b) (gives_array hinputs) config
    (hruns.body? multiplierArrayId rfl _) (arrayCircuit_meets hk (Nat.le_refl k))
  cases hc : (arrayCircuit k).calculate config inputs with
  | ok ws =>
    rw [hc] at hend
    have hws : ws = arrayWitness a b := hend
    exact ⟨arrayCircuit k, ws, multiplierArray_eq k, hc, hws ▸ length_arrayWitness a b, hws⟩
  | error f =>
    rw [hc] at hend
    exact hend.elim

/-- Two products, with the inputs given the other way round. -/
theorem multiplierArray_calculates_two :
    ∃ circuit ws, multiplierArray 2 = .ok circuit ∧
      circuit.calculate .diagnostic ⟨[("b", [5, 7]), ("a", [2, 3])]⟩ = .ok ws ∧
      ws.length = 13 ∧ ws = [1, 10, 21, 2, 3, 5, 7, 10, 2, 5, 21, 3, 7] := by
  obtain ⟨circuit, ws, hcircuit, hcalculate, hlength, hws⟩ :=
    multiplierArray_calculates 2 (by decide) .diagnostic ![2, 3] ![5, 7] (.swap _ _ _)
  exact ⟨circuit, ws, hcircuit, hcalculate, hlength, hws.trans (by decide +kernel)⟩

end CircuitWitness.Sample
