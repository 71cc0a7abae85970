import CircuitWitness.Proofs.Sample.Array
import CircuitWitness.Proofs.Sample.Gate
/-
  What the large sample circuit comes to.

  Its body has three children: one that holds the seed, an array and a gate.  The inputs are copied
  to the array and to the gate, and the outcome is put together from what the children leave in
  their signals (`mainBody_meets`).  Only the gate can fail, so the circuit fails exactly when the
  gate does, and in the name of the child that the gate has for the bits.
-/

namespace CircuitWitness.Sample

open Circuit

variable {k levels : Nat} {enter : Enter} {w w' : View} {self id : Handle} {r : Component}
  {x flag : Scalar} {a b : Fin 3 → Scalar} {name : String} {E : Fault → View → Prop}

/-! ## Handing inputs on -/

/-- Values are handed on one by one, and with the last of its inputs the component runs. -/
theorem copyInputs_meets {l : List Scalar} {count more i j : Nat} {shape : TemplateShape}
    {body : Body} {Q : Unit → View → Prop} (hcount : l.length = count)
    (hr : w.records id = some r) (hs : r.stage = .created) (hp : r.pending = count + more)
    (hpos : r.pending ≠ 0) (hshape : w.circuit.templates.shape? r.template = some shape)
    (hl : ∀ n, j ≤ n → n < j + count → shape.isInput n = true)
    (hsize : r.signalStart + j + count ≤ w.size) (hin : w.Holds i l)
    (hbefore : i + count ≤ r.signalStart + j)
    (hbody : w.circuit.templates.body? r.template w.config.useAlternate = some body)
    (hwaiting : more ≠ 0 → ∀ w', w.Within ⟨r.signalStart + j, count, id.index, 1⟩ w' →
      w'.Holds (r.signalStart + j) l → w'.records id = some { r with pending := more } → Q () w')
    (hrun : more = 0 → ∀ w', w.Within ⟨r.signalStart + j, count, id.index, 1⟩ w' →
      w'.Holds (r.signalStart + j) l →
      w'.records id = some { r with pending := 0, stage := .running } →
      (enter body id).Meets w' (fun _ w'' => ∃ r', w''.records id = some r' ∧
        Q () (w''.put id { r' with stage := .finished })) E) :
    Procedure.Meets enter (copyInputs id count i j) w Q E := by
  subst hcount
  induction l generalizing w r i j with
  | nil =>
    simp only [List.length_nil, Nat.zero_add] at hp
    have hsame : { r with pending := more } = r := by rw [← hp]
    exact .pure (hwaiting (hp ▸ hpos) w (.refl _ w) trivial (hsame.symm ▸ hr))
  | cons v rest ih =>
    simp only [List.length_cons] at hp hl hsize hbefore hwaiting hrun
    have hone : ∀ r', w.Within ⟨r.signalStart + j, 1, id.index, 1⟩
        ((w.write (r.signalStart + j) v).put id r') := fun r' =>
      ((View.Within.refl _ w).write v (by simp only; omega)).put r' (by simp only; omega)
    refine .bind (.signal hin.1 ?_)
    by_cases hlast : rest.length + more = 0
    · -- This is the last one, and nothing is left to be handed on.
      obtain rfl : rest = [] := List.eq_nil_of_length_eq_zero (by omega)
      refine .bind (.writeInput_last hr hs hshape (hl j (Nat.le_refl j) (by omega)) (by omega)
        (by simp only [List.length_nil] at hp; omega) hbody ?_)
      refine (hrun (by omega) _ (hone _) ⟨?_, trivial⟩ (View.records_put_self ..)).mono
        (fun _ w' h => ?_) fun _ _ h => h
      · rw [View.signals_put, View.signals_write_self]
      · obtain ⟨r', hr', hQ⟩ := h
        exact ⟨r', hr', .pure hQ⟩
    · refine .bind (.writeInput (n := rest.length + more) hr hs hshape
        (hl j (Nat.le_refl j) (by omega)) (by omega) (by omega) hlast ?_)
      have hall : ∀ w', View.Within ⟨r.signalStart + (j + 1), rest.length, id.index, 1⟩
          ((w.write (r.signalStart + j) v).put id { r with pending := rest.length + more }) w' →
          w'.Holds (r.signalStart + (j + 1)) rest →
          w.Within ⟨r.signalStart + j, rest.length + 1, id.index, 1⟩ w' ∧
            w'.Holds (r.signalStart + j) (v :: rest) := by
        intro w' hw' hrest
        refine ⟨.trans ((hone _).mono ⟨fun i => ?_, fun _ hi => hi⟩)
          (hw'.mono ⟨fun i => ?_, fun _ hi => hi⟩), ?_, hrest⟩
        · simp only
          omega
        · simp only
          omega
        · rw [hw'.signals _ (by simp only; omega), View.signals_put, View.signals_write_self]
      refine ih (r := { r with pending := rest.length + more }) (View.records_put_self ..) hs
        hlast (by simpa using hshape) ?_ (by simpa using hbody) rfl
        (fun n hn hn' => hl n (by omega) (by omega)) ?_ ?_
        (fun hm w' hw' hrest => (hall w' hw' hrest).elim (hwaiting hm w'))
        (fun hm w' hw' hrest => (hall w' hw' hrest).elim (hrun hm w'))
      · exact (hone _).holds hin.2 (.inl (by simp only; omega))
      · rw [View.size_put, View.size_write]
        simp only
        omega
      · simp only
        omega

/-! ## The children -/

/-- The first child is there for the seed and its square. -/
theorem mainLeaf_meets {β : Type} {start : Nat} {p : Procedure β} {Q : β → View → Prop}
    (hroom : Room w self start 42 9) (hr : w.records self = some r)
    (hslots : r.slots.size = 3) (hfree : w.records ⟨self.index + 1⟩ = none)
    (hQ : ∀ w', (w.put self
        { r with slots := r.slots.setIfInBounds 0 (some ⟨self.index + 1⟩) }).Within
          ⟨start + 11, 2, self.index + 1, 1⟩ w' → w'.Done ⟨self.index + 1⟩ →
      w'.Holds (start + 11) [Scalar.ofNat seed, Scalar.ofNat seed * Scalar.ofNat seed] →
      Procedure.Meets (enterWithin (levels + 1)) p w' Q E) :
    Procedure.Meets (enterWithin (levels + 1)) (do
      let leaf ← Procedure.handleAfter self 1
      Procedure.createChild self 0 leaf constantLeafId (start + 11) name
      p) w Q E := by
  obtain ⟨⟨k, hruns⟩, hsize, hhandles, hwords⟩ := hroom
  refine .bind (.handleAfter (by omega) (.bind ?_))
  refine .createChild_run hr (by omega) hfree (by simp only; omega)
    (hruns.shape? constantLeafId rfl) rfl (hruns.body? constantLeafId rfl _) ?_
  show Procedure.Meets (enterWithin levels) (constantLeafBody _) _ _ _
  refine constantLeafBody_meets (k := k) (by simpa using hruns) (View.records_put_self ..)
    (by rw [View.size_put, View.size_put]; show start + 11 + 2 ≤ _; omega)
    fun w' hw' hout => ⟨_, (hw'.records _ (.inr (Nat.zero_le _))).trans (View.records_put_self ..),
      hQ _ (.put (.trans ((View.Within.refl _ _).put _ ?_)
          (hw'.mono ⟨fun i => ?_, fun i => ?_⟩)) _ ?_)
        (View.done_put ..) (View.holds_put.mpr hout)⟩
  all_goals simp only [Component.fresh]; omega

/-- An array that waits for its inputs is handed two vectors, and then it runs. -/
theorem copyArray_meets {β : Type} {i : Nat} {p : Procedure β} {Q : β → View → Prop}
    (hruns : Runs w.circuit arrayWidth) (hlevels : arrayWidth ≤ levels)
    (hroom : Room w id r.signalStart 18 4) (hr : w.records id = some r)
    (htemplate : r.template = multiplierArrayId) (hs : r.stage = .created) (hp : r.pending = 6)
    (hslots : r.slots.size = arrayWidth)
    (hfree : ∀ j < arrayWidth, w.records (multiplierAt id j) = none)
    (ha : w.Holds i (List.ofFn a)) (hb : w.Holds (i + 3) (List.ofFn b))
    (hbefore : i + 6 ≤ r.signalStart)
    (hQ : ∀ w', w.Within ⟨r.signalStart, 18, id.index, 4⟩ w' → w'.Done id →
      w'.Holds r.signalStart (List.ofFn fun i => a i * b i) →
      Procedure.Meets (enterWithin (levels + 1)) p w' Q E) :
    Procedure.Meets (enterWithin (levels + 1)) (do
      copyInputs id arrayWidth i 3
      copyInputs id arrayWidth (i + 3) 6
      p) w Q E := by
  have hsignals := hroom.signals
  have hlength : ∀ v : Fin 3 → Scalar, (List.ofFn v).length = arrayWidth := fun _ =>
    List.length_ofFn
  have hwidth : arrayWidth = 3 := rfl
  have hshape : w.circuit.templates.shape? r.template = some (multiplierArrayShape arrayWidth) := by
    rw [htemplate]
    exact hruns.shape? multiplierArrayId rfl
  have hbody : w.circuit.templates.body? r.template w.config.useAlternate
      = some (multiplierArrayBody arrayWidth) := by
    rw [htemplate]
    exact hruns.body? multiplierArrayId rfl _
  have hinput : ∀ n, 3 ≤ n → n < 9 → (multiplierArrayShape arrayWidth).isInput n = true := by
    intro n hn hn'
    rw [TemplateShape.isInput_iff]
    exact ⟨hn, hn'⟩
  refine .bind (copyInputs_meets (hlength a) hr hs
    (show _ = arrayWidth + 3 from hp) (by omega) hshape (fun n hn hn' => hinput n hn (by omega))
    (by omega) ha (by omega) hbody (fun _ w₁ hw₁ ha₁ hr₁ => ?_) fun h => absurd h (by decide))
  have hb₁ : w₁.Holds (i + 3) (List.ofFn b) :=
    hw₁.holds hb (.inl (by rw [List.length_ofFn]; simp only; omega))
  refine .bind (copyInputs_meets (r := { r with pending := 3 }) (hlength b) hr₁ hs
    (show _ = arrayWidth + 0 from rfl) (Nat.succ_ne_zero 2) (hw₁.circuit.symm ▸ hshape)
    (fun n hn hn' => hinput n (by omega) (by omega))
    (by rw [hw₁.size]; simp only; omega) hb₁ (by simp only; omega)
    (by rw [hw₁.circuit, hw₁.config]; exact hbody) (fun h => absurd rfl h)
    fun _ w₂ hw₂ hb₂ hr₂ => ?_)
  have ha₂ := hw₂.holds ha₁ (.inl (by rw [List.length_ofFn]))
  have hwithin : w.Within ⟨r.signalStart, 18, id.index, 4⟩ w₂ := by
    refine .trans (hw₁.mono ⟨fun n => ?_, fun n => ?_⟩) (hw₂.mono ⟨fun n => ?_, fun n => ?_⟩)
    all_goals simp only; omega
  have hothers : ∀ j, w₂.records (multiplierAt id j) = w.records (multiplierAt id j) := by
    intro j
    rw [hw₂.records _ (by unfold multiplierAt; simp only; omega),
      hw₁.records _ (by unfold multiplierAt; simp only; omega)]
  show Procedure.Meets (enterWithin levels) (multiplierArrayBody arrayWidth id) _ _ _
  refine multiplierArrayBody_meets (a := a) (b := b)
    (r := { r with pending := 0, stage := .running }) (hroom.within hwithin) hlevels hr₂ hslots
    (fun j hj => (hothers j).trans (hfree j hj)) ha₂ hb₂ fun w₃ hw₃ hr₃ hdone => ?_
  obtain ⟨r₃, hr₃⟩ := hr₃
  exact ⟨r₃, hr₃, hQ _ ((hwithin.trans hw₃).put _ (by simp only; omega))
    (View.done_put ..) (View.holds_put.mpr (View.holds_ofFn.mpr fun j => hdone.products j j.isLt))⟩

/-- The second child is an array, and multiplies the two vectors. -/
theorem mainArray_meets {β : Type} {start : Nat} {p : Procedure β} {Q : β → View → Prop}
    (hruns : Runs w.circuit arrayWidth) (hlevels : arrayWidth ≤ levels)
    (hroom : Room w self start 42 9) (hr : w.records self = some r)
    (hslots : r.slots.size = 3)
    (hfree : ∀ j, 2 ≤ j → j ≤ 5 → w.records ⟨self.index + j⟩ = none)
    (ha : w.Holds (start + 2) (List.ofFn a))
    (hb : w.Holds (start + 5) (List.ofFn b))
    (hQ : ∀ w', (w.put self
        { r with slots := r.slots.setIfInBounds 1 (some ⟨self.index + 2⟩) }).Within
          ⟨start + 13, 18, self.index + 2, 4⟩ w' → w'.Done ⟨self.index + 2⟩ →
      w'.Holds (start + 13) (List.ofFn fun i => a i * b i) →
      Procedure.Meets (enterWithin (levels + 1)) p w' Q E) :
    Procedure.Meets (enterWithin (levels + 1)) (do
      let arrayHandle ← Procedure.handleAfter self 2
      Procedure.createChild self 1 arrayHandle multiplierArrayId (start + 13) name
      let array ← Procedure.child self 1
      copyInputs array arrayWidth (start + 2) 3
      copyInputs array arrayWidth (start + 5) 6
      p) w Q E := by
  refine hroom.newChild 18 4 hr (by omega) (by decide) (by decide) (by decide) (by decide)
    (fun j hj hj' => hfree j hj (by omega)) (hruns.shape? multiplierArrayId rfl) (by decide)
    fun w₁ hcircuit hroom₁ hr₁ hfree₁ hkept hwithin => ?_
  refine copyArray_meets (hcircuit.symm ▸ hruns) hlevels hroom₁ hr₁ rfl rfl rfl rfl
    (fun j hj => ?_) (hkept _ _ ha) (hkept _ _ hb) (by simp only [Component.fresh]; omega)
    fun w' hw' => hQ w' (hwithin w' hw')
  have hj3 : j < 3 := hj
  exact hfree₁ (1 + j) (by omega) (by omega)

/-- The third child is a gate. -/
theorem mainGate_meets {β : Type} {start : Nat} {p : Procedure β} {Q : β → View → Prop}
    (hroom : Room w self start 42 9) (hr : w.records self = some r)
    (hslots : r.slots.size = 3)
    (hfree : ∀ j, 6 ≤ j → j ≤ 8 → w.records ⟨self.index + j⟩ = none)
    (hin : w.Holds (start + 8) [x, flag])
    (hQ : flag = 0 ∨ x.val < 2 ^ bits → ∀ w', (w.put self
        { r with slots := r.slots.setIfInBounds 2 (some ⟨self.index + 6⟩) }).Within
          ⟨start + 31, 11, self.index + 6, 3⟩ w' → w'.Done ⟨self.index + 6⟩ →
      w'.signals (start + 31) = some (gateOutput x flag) →
      Procedure.Meets (enterWithin (levels + 2)) p w' Q E)
    (hE : ¬ (flag = 0 ∨ x.val < 2 ^ bits) → ∀ w', E (.refused
      (.assertionFailed num2BitsShape.name s!"{name}.n2b" sumAssertLine)) w') :
    Procedure.Meets (enterWithin (levels + 2)) (do
      let gateHandle ← Procedure.handleAfter self 6
      Procedure.createChild self 2 gateHandle gateId (start + 31) name
      let gate ← Procedure.child self 2
      let x ← Procedure.signal (start + 8)
      let flag ← Procedure.signal (start + 9)
      Procedure.writeInput gate 1 x
      Procedure.writeInput gate 2 flag
      p) w Q E := by
  obtain ⟨k, hruns⟩ := hroom.runs
  refine hroom.newChild 11 3 hr (by omega) (by decide) (by decide) (by decide) (by decide)
    (fun j hj hj' => hfree j hj (by omega)) (hruns.shape? gateId rfl) (by decide)
    fun w₁ hcircuit hroom₁ hr₁ hfree₁ hkept hwithin => ?_
  obtain ⟨hx, hflag, -⟩ := hkept _ _ hin
  refine .bind (.signal hx (.bind (.signal hflag ?_)))
  exact feedGate_meets hroom₁ hr₁ rfl rfl rfl rfl hfree₁
    (fun hx w' hw' => hQ hx w' (hwithin w' hw')) hE

/-! ## The body -/

/-- The dot product of two vectors. -/
def dotProduct (a b : Fin 3 → Scalar) : Scalar := a 0 * b 0 + a 1 * b 1 + a 2 * b 2

/-- The products add up to the dot product. -/
theorem sumProducts_meets {start : Nat} {Q : Scalar → View → Prop}
    (h : w.Holds start (List.ofFn fun i => a i * b i)) (hQ : Q (dotProduct a b) w) :
    Procedure.Meets enter (sumSignals start arrayWidth 0) w Q E := by
  have hlength : (List.ofFn fun i => a i * b i).length = arrayWidth := List.length_ofFn
  have hdot : (List.ofFn fun i => a i * b i).foldl (· + ·) 0 = dotProduct a b := by
    simp [List.ofFn_succ, dotProduct, Scalar.zero_add]
  exact sumSignals_meets hlength h (hdot.symm ▸ hQ)

/-- The two outputs are set, and the children that have run are released. -/
theorem mainEnd_meets {w₀ : View} {start next : Nat} {slots : Array (Option Handle)}
    {l : List Scalar} {dot square y root : Scalar} {Q : Unit → View → Prop}
    (hsize : start + 42 ≤ w₀.size) (h : View.Underway w₀ self start 42 9 r slots next w)
    (hl : l.length = 8) (hheld : w.Holds (start + 2) (l ++ [dot, root, square]))
    (hy : w.signals (start + 31) = some y)
    (hQ : ∀ w', w₀.Within ⟨start, 42, self.index, 9⟩ w' → (∃ r', w'.records self = some r') →
      w'.Holds start ([dot + square + y, root] ++ l ++ [dot]) →
      w'.signals (start + 31) = some y → Q () w') :
    Procedure.Meets enter (do
      let dot ← Procedure.signal (start + 10)
      let square ← Procedure.signal (start + 11 + 1)
      let y ← Procedure.signal (start + 31)
      Procedure.setSignal start (dot + square + y)
      let seedValue ← Procedure.signal (start + 11)
      Procedure.setSignal (start + 1) seedValue
      Procedure.releaseChildren self) w Q E := by
  obtain ⟨-, hdot, hroot, hsquare, -⟩ := View.holds_append.mp hheld
  rw [hl] at hdot hroot hsquare
  have hroom : start + 42 ≤ w.size := h.within.size.symm ▸ hsize
  refine .bind (.signal hdot (.bind (.signal hsquare (.bind (.signal hy (.bind ?_))))))
  refine .setSignal (by omega) (.bind (.signal (v := root) ?_ (.bind (.setSignal ?_ ?_))))
  · rw [View.signals_write_ne _ _ _ _ (by omega)]
    exact hroot
  · rw [View.size_write]
    omega
  have hwrites : w.Within ⟨start, 2, 0, 0⟩
      ((w.write start (dot + square + y)).write (start + 1) root) := by
    refine ((View.Within.refl _ w).write _ ?_).write _ ?_
    all_goals simp only; omega
  have houts : ((w.write start (dot + square + y)).write (start + 1) root).Holds start
      [dot + square + y, root] := by simp [View.Holds]
  refine ((h.write _ (by omega)).write _ (by omega)).releaseChildren
    fun w' hw' hr' hsignals => hQ w' hw' hr' (View.Holds.congr ?_ hsignals) ?_
  · have hkept := hwrites.holds hheld (.inr (Nat.le_refl _))
    rw [List.append_cons, View.holds_append] at hkept
    rw [List.append_assoc, View.holds_append]
    exact ⟨houts, hkept.1⟩
  · rw [hsignals, hwrites.signals _ (by simp only; omega)]
    exact hy

/-- The inputs of the large circuit, one after another. -/
def mainInputValues (a b : Fin 3 → Scalar) (x flag : Scalar) : List Scalar :=
  List.ofFn a ++ List.ofFn b ++ [x, flag]

theorem length_mainInputValues : (mainInputValues a b x flag).length = 8 := by
  simp [mainInputValues]

theorem holds_mainInputValues {start : Nat} (h : w.Holds start (mainInputValues a b x flag)) :
    w.Holds start (List.ofFn a) ∧ w.Holds (start + 3) (List.ofFn b) ∧
      w.Holds (start + 6) [x, flag] := by
  unfold mainInputValues at h
  rw [View.holds_append, View.holds_append, List.length_append, List.length_ofFn,
    List.length_ofFn] at h
  exact ⟨h.1.1, h.1.2, h.2⟩

/-- **The body of the large circuit adds the dot product, the square of the seed and the output of
    the gate, or fails as the gate does.** -/
theorem mainBody_meets {Q : Unit → View → Prop} (hruns : Runs w.circuit arrayWidth)
    (hroom : Room w self r.signalStart 42 9) (hr : w.records self = some r)
    (hslots : r.slots = #[none, none, none])
    (hfree : ∀ j, 1 ≤ j → j < 9 → w.records ⟨self.index + j⟩ = none)
    (hin : w.Holds (r.signalStart + 2) (mainInputValues a b x flag))
    (hQ : flag = 0 ∨ x.val < 2 ^ bits → ∀ w', w.Within ⟨r.signalStart, 42, self.index, 9⟩ w' →
      (∃ r', w'.records self = some r') →
      w'.Holds r.signalStart ([dotProduct a b + Scalar.ofNat seed * Scalar.ofNat seed +
        gateOutput x flag, Scalar.ofNat seed] ++ mainInputValues a b x flag ++
        [dotProduct a b]) →
      w'.signals (r.signalStart + 31) = some (gateOutput x flag) → Q () w')
    (hE : ¬ (flag = 0 ∨ x.val < 2 ^ bits) → ∀ w', E (.refused
      (.assertionFailed num2BitsShape.name (s!"{r.label}.gate" ++ ".n2b") sumAssertLine)) w') :
    Procedure.Meets (enterWithin (levels + 4)) (mainBody self) w Q E := by
  have hsize := hroom.signals
  have hlength : (mainInputValues a b x flag).length = 8 := length_mainInputValues
  have h₀ : View.Underway w self r.signalStart 42 9 r #[none, none, none] 1 w :=
    .begin hr hslots (by simp) (by decide) hfree
  unfold mainBody
  refine .bind (.signalStart hr ?_)
  refine .bind (.label hr ?_)
  refine mainLeaf_meets hroom h₀.record rfl (hfree 1 (by decide) (by decide))
    fun w₁ hw₁ hleaf hseed => ?_
  have h₁ := h₀.child hw₁ (by decide) (by decide) (by decide) hleaf
  have hin₁ := hw₁.holds_of_put hin (.inl (by rw [hlength]; simp only; omega))
  obtain ⟨ha₁, hb₁, -⟩ := holds_mainInputValues hin₁
  refine mainArray_meets (a := a) (b := b) (h₁.within.circuit.symm ▸ hruns)
    (Nat.le_add_left 3 levels) (hroom.within h₁.within) h₁.record rfl
    (fun j hj hj' => h₁.free j hj (by omega)) ha₁ hb₁ fun w₂ hw₂ harray hproducts => ?_
  have h₂ := h₁.child hw₂ (by decide) (by decide) (by decide) harray
  have hin₂ := hw₂.holds_of_put hin₁ (.inl (by rw [hlength]; simp only; omega))
  have hseed₂ := hw₂.holds_of_put hseed (.inl (Nat.le_refl _))
  refine .bind (sumProducts_meets hproducts ?_)
  refine .bind (.setSignal (by rw [h₂.within.size]; show r.signalStart + 10 < _; omega) ?_)
  have h₃ := h₂.write (i := r.signalStart + 10) (dotProduct a b) (by omega)
  -- The inputs, the dot product, the seed and its square follow one another.
  have hheld₃ : (w₂.write (r.signalStart + 10) (dotProduct a b)).Holds (r.signalStart + 2)
      (mainInputValues a b x flag ++
        [dotProduct a b, Scalar.ofNat seed, Scalar.ofNat seed * Scalar.ofNat seed]) := by
    have hwrite := (View.Within.refl ⟨r.signalStart + 10, 1, 0, 0⟩ w₂).write (dotProduct a b)
      (i := r.signalStart + 10) (by simp only; omega)
    rw [View.holds_append, hlength]
    exact ⟨hwrite.holds hin₂ (.inl (by rw [hlength])), View.signals_write_self ..,
      hwrite.holds hseed₂ (.inr (Nat.le_refl _))⟩
  show Procedure.Meets _ _ (w₂.write (r.signalStart + 10) (dotProduct a b)) Q E
  generalize w₂.write (r.signalStart + 10) (dotProduct a b) = w₃ at h₃ hheld₃
  refine mainGate_meets (hroom.within h₃.within) h₃.record rfl
    (fun j hj hj' => h₃.free j hj (by omega))
    (holds_mainInputValues (View.holds_append.mp hheld₃).1).2.2 (fun hx w₄ hw₄ hgate hout => ?_) hE
  have h₄ := h₃.child hw₄ (by decide) (by decide) (by decide) hgate
  have hheld₄ := hw₄.holds_of_put hheld₃ (.inl (by simp [hlength]))
  exact mainEnd_meets hsize h₄ hlength hheld₄ hout (hQ hx)

/-! ## The circuit -/

theorem gives_sample {inputs : InputValues} (hinputs : inputs.entries.Perm
    [("a", List.ofFn a), ("b", List.ofFn b), ("x", [x]), ("flag", [flag])]) :
    sampleCircuit.Gives (mainInputValues a b x flag) inputs := by
  have hslices : sampleCircuit.inputs.signals.map
      (fun s => (s.name, s.slice (mainInputValues a b x flag)))
        = [("a", List.ofFn a), ("b", List.ofFn b), ("x", [x]), ("flag", [flag])] := by
    simp [sampleCircuit, sampleDescription, InputSignal.slice, mainInputValues, arrayWidth,
      List.ofFn_succ]
  unfold Circuit.Gives
  rwa [hslices]

theorem addressed_sample : sampleCircuit.Addressed :=
  .of_accept sampleInputs_eq accept_sample rfl (by decide) (by decide)

/-- The witness of the large circuit. -/
def sampleWitness (a b : Fin 3 → Scalar) (x flag : Scalar) : List Scalar :=
  1 :: ([dotProduct a b + Scalar.ofNat seed * Scalar.ofNat seed + gateOutput x flag,
    Scalar.ofNat seed] ++ mainInputValues a b x flag ++ [dotProduct a b]) ++ [gateOutput x flag]

theorem sampleWitness_eq {z s : Scalar} (h : gateOutput x flag = z + s) :
    sampleWitness a b x flag = [1, dotProduct a b + 49 + z + s, 7, a 0, a 1, a 2, b 0, b 1, b 2,
      x, flag, dotProduct a b, z + s] := by
  have hsquare : Scalar.ofNat seed * Scalar.ofNat seed = 49 := by decide
  unfold sampleWitness mainInputValues
  rw [h, hsquare, Scalar.add_assoc (dotProduct a b + 49)]
  simp [List.ofFn_succ]
  rfl

/-- From where a calculation begins it, the body of the large circuit comes to the witness. -/
theorem sampleCircuit_meets (levels : Nat) {config : Config}
    (hE : ¬ (flag = 0 ∨ x.val < 2 ^ bits) → ∀ w', E (.refused
      (.assertionFailed num2BitsShape.name "main.gate.n2b" sumAssertLine)) w') :
    Procedure.Meets (enterWithin (levels + 4)) (mainBody .mainComponent)
      (sampleCircuit.begunView config (mainInputValues a b x flag))
      (fun _ w' => (∃ r, w'.records .mainComponent = some r) ∧
        (flag = 0 ∨ x.val < 2 ^ bits) ∧ w'.witness = sampleWitness a b x flag) E := by
  obtain ⟨hone, hin⟩ := addressed_sample.holds_begunView config (mainInputValues a b x flag)
  have hroom : Room (sampleCircuit.begunView config (mainInputValues a b x flag)) .mainComponent
      1 42 9 := by
    refine ⟨⟨arrayWidth, ?_⟩, ?_, ?_, by decide⟩
    · rw [circuit_begunView]
      exact ⟨rfl, rfl⟩
    · rw [size_begunView]
      decide
    · rw [capacity_begunView]
      decide
  refine mainBody_meets (by rw [circuit_begunView]; exact ⟨rfl, rfl⟩) hroom
    (records_begunView ..) rfl
    (fun j hj _ => records_begunView_ne _ _ _ (Handle.ne_after _ (by omega))) hin
    (fun hx w' hw' hrecord houts hgate => ⟨hrecord, hx, ?_⟩) hE
  refine View.Holds.witness_concat (n := leafStart) (i := gateStart) ⟨?_, houts⟩ hgate ?_ ?_
  · rw [hw'.signals 0 (.inl Nat.one_pos), hone]
  · rw [hw'.circuit, circuit_begunView]
    rfl
  · rfl

/-- **The large circuit adds the dot product, the square of the seed, whether `x` is zero, and the
    number of ones of `x` if the flag is set.**  It fails if the flag is set and `x` has more bits
    than the gate takes, and then with the assertion on the sum of the bits; no other one fails. -/
theorem sample_calculates (config : Config) (a b : Fin 3 → Scalar) (x flag : Scalar)
    {inputs : InputValues} (hinputs : inputs.entries.Perm
      [("a", List.ofFn a), ("b", List.ofFn b), ("x", [x]), ("flag", [flag])]) :
    ∃ circuit, sample = .ok circuit ∧
      let dot := a 0 * b 0 + a 1 * b 1 + a 2 * b 2
      let z : Scalar := if x = 0 then 1 else 0
      let s : Scalar := if flag = 0 then 0 else .ofNat x.ones
      circuit.calculate config inputs =
        if flag = 0 ∨ x.val < 16 then
          .ok [1, dot + 49 + z + s, 7, a 0, a 1, a 2, b 0, b 1, b 2, x, flag, dot, z + s]
        else .error (.refused (.assertionFailed "Num2Bits" "main.gate.n2b" sumAssertLine)) := by
  have hruns : Runs sampleCircuit arrayWidth := ⟨rfl, rfl⟩
  have hend := addressed_sample.calculate_meets
    (Q := fun ws => (flag = 0 ∨ x.val < 2 ^ bits) ∧ ws = sampleWitness a b x flag)
    (E := fun f => ¬ (flag = 0 ∨ x.val < 2 ^ bits) ∧
      f = .refused (.assertionFailed num2BitsShape.name "main.gate.n2b" sumAssertLine))
    length_mainInputValues (gives_sample hinputs) config (hruns.body? mainId rfl _)
    (sampleCircuit_meets 4 fun hx _ => ⟨hx, rfl⟩)
  refine ⟨sampleCircuit, sample_eq, ?_⟩
  intro dot z s
  have houtput : gateOutput x flag = z + s := by
    simp only [gateOutput, Scalar.eqFlag, Scalar.ofBool, beq_iff_eq, z, s]
  cases hc : sampleCircuit.calculate config inputs with
  | ok ws =>
    rw [hc] at hend
    obtain ⟨hx, hws⟩ : (flag = 0 ∨ x.val < 16) ∧ ws = sampleWitness a b x flag := hend
    rw [if_pos hx, hws, sampleWitness_eq houtput]
    rfl
  | error f =>
    rw [hc] at hend
    obtain ⟨hx, hf⟩ : ¬ (flag = 0 ∨ x.val < 16) ∧ f = _ := hend
    rw [if_neg hx, hf]
    rfl

/-- Six has two ones.  Sixteen has a bit too many, which only matters if the flag is set. -/
theorem sample_calculates_six : ∃ circuit, sample = .ok circuit ∧
    circuit.calculate .diagnostic
        ⟨[("flag", [1]), ("x", [6]), ("a", [1, 2, 3]), ("b", [4, 5, 6])]⟩
      = .ok [1, 83, 7, 1, 2, 3, 4, 5, 6, 6, 1, 32, 2] ∧
    circuit.calculate {} ⟨[("a", [1, 2, 3]), ("b", [4, 5, 6]), ("x", [16]), ("flag", [1])]⟩
      = .error (.refused (.assertionFailed "Num2Bits" "main.gate.n2b" 12)) := by
  obtain ⟨circuit, hcircuit, hsix⟩ := sample_calculates .diagnostic ![1, 2, 3] ![4, 5, 6] 6 1
    (show List.Perm [("flag", [1]), ("x", [6]), ("a", [1, 2, 3]), ("b", [4, 5, 6])] _ by decide)
  obtain ⟨circuit', hcircuit', hsixteen⟩ := sample_calculates {} ![1, 2, 3] ![4, 5, 6] 16 1
    (show List.Perm [("a", [1, 2, 3]), ("b", [4, 5, 6]), ("x", [16]), ("flag", [1])] _ by decide)
  obtain rfl : circuit = circuit' := Except.ok.inj (hcircuit.symm.trans hcircuit')
  exact ⟨circuit, hcircuit, hsix.trans (by decide +kernel), hsixteen.trans (by decide +kernel)⟩

end CircuitWitness.Sample
