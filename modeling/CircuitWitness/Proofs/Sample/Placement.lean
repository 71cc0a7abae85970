import CircuitWitness.Proofs.Confined
import CircuitWitness.Proofs.Sample.Circuit
/-
  The sample templates keep to the blocks that are set aside for them.

  A parent leaves room for a child by numbers: so many signals after its own block, so many handles
  after its own.  The numbers are those of `extents`, and here they are compared with what the
  bodies do.  It makes no difference what the signals hold, nor how a body ends.  The room of `Main`
  is laid out for arrays of width three, so nothing is said of it in other circuits.
-/

namespace CircuitWitness

namespace Sample

open CircuitWitness.Action

/-! ## What the templates take up -/

/-- Signals of a main component and its descendants. -/
def mainSignals : Nat :=
  mainShape.signals + constantLeafShape.signals + multiplierArraySignals arrayWidth + gateSignals

/-- A main component and its descendants. -/
def mainComponents : Nat := 2 + multiplierArrayComponents arrayWidth + gateComponents

/-- The signals and the handles that are set aside for a component of a template. -/
def extents (k : Nat) (t : TemplateId) : Option (Nat × Nat) :=
  if t = multiplierId then some (multiplierShape.signals, 1)
  else if t = constantLeafId then some (constantLeafShape.signals, 1)
  else if t = num2BitsId then some (num2BitsShape.signals, 1)
  else if t = isZeroId then some (isZeroShape.signals, 1)
  else if t = multiplierArrayId then
    some (multiplierArraySignals k, multiplierArrayComponents k)
  else if t = gateId then some (gateSignals, gateComponents)
  else if t = mainId ∧ k = arrayWidth then some (mainSignals, mainComponents)
  else none

example : [extents 3 multiplierArrayId, extents 3 gateId, extents 3 mainId]
    = [some (18, 4), some (11, 3), some (42, 9)] := rfl

section

variable {circuit : Circuit} {k : Nat}

/-- What holds of each template, with what is set aside for it, holds of all that have something set
    aside. -/
theorem extents_cases {P : TemplateId → Nat → Nat → Prop}
    (hmultiplier : P multiplierId 3 1) (hleaf : P constantLeafId 2 1) (hbits : P num2BitsId 5 1)
    (hzero : P isZeroId 3 1) (harray : P multiplierArrayId (multiplierArraySignals k) (k + 1))
    (hgate : P gateId 11 3) (hmain : k = 3 → P mainId 42 9) {t : TemplateId} {n m : Nat}
    (h : extents k t = some (n, m)) : P t n m := by
  unfold extents at h
  split_ifs at h with h₁ h₂ h₃ h₄ h₅ h₆ h₇
  all_goals cases h
  · exact h₁ ▸ hmultiplier
  · exact h₂ ▸ hleaf
  · exact h₃ ▸ hbits
  · exact h₄ ▸ hzero
  · exact h₅ ▸ harray
  · exact h₆ ▸ hgate
  · exact h₇.1 ▸ hmain h₇.2

/-- Every template has its inputs among the signals that are set aside. -/
theorem Runs.fits (h : Runs circuit k) : circuit.templates.Fits (extents k) where
  inputs t n m shape hextent hshape := by
    have hone : ∀ {id : TemplateId} {e : Template} {n : Nat},
        (Sample.templates k)[id.index]? = some (id, e) → e.shape.inputEnd ≤ n →
        circuit.templates.shape? id = some shape → shape.inputEnd ≤ n := by
      intro id e n he hn hs
      cases (h.shape? id he).symm.trans hs
      exact hn
    have harray : (multiplierArrayShape k).inputEnd ≤ multiplierArraySignals k := by
      show k + 2 * k ≤ 3 * k + k * 3
      omega
    exact extents_cases (k := k)
      (P := fun t n _ => circuit.templates.shape? t = some shape → shape.inputEnd ≤ n)
      (hone rfl (by decide)) (hone rfl (by decide)) (hone rfl (by decide)) (hone rfl (by decide))
      (hone rfl harray) (hone rfl (by decide)) (fun _ => hone rfl (by decide)) hextent hshape
  handle t n m :=
    extents_cases (k := k) (P := fun _ _ m => 0 < m) Nat.one_pos Nat.one_pos Nat.one_pos Nat.one_pos
      k.succ_pos (by decide) fun _ => by decide

end

/-! ## Bodies without children -/

section

variable {circuit : Circuit} {k : Nat} {enter : Enter} {R : Region} {c₀ c : Computation}
  {self : Handle} {r : Component} {slots : Array (Option Handle)}

/-- Each body of the sample keeps to its block, one lemma for each: the multiplier writes its
    output. -/
theorem multiplierBody_keeps : Body.Keeps (extents k) circuit multiplierId multiplierBody := by
  rintro enter c self r R - - ht hvacant h
  obtain ⟨hn, -, -⟩ := h.extent ht (show extents k multiplierId = some (3, 1) from rfl)
  unfold multiplierBody
  refine h.stands ?_
  refine h.ask trivial fun a c₁ h => ?_
  refine h.ask trivial fun b c₂ h => ?_
  exact (h.sets (by omega)).mono fun _ c₃ h => h.cleared_of_vacant hvacant

/-- The leaf writes its two outputs. -/
theorem constantLeafBody_keeps :
    Body.Keeps (extents k) circuit constantLeafId constantLeafBody := by
  rintro enter c self r R - - ht hvacant h
  obtain ⟨hn, -, -⟩ := h.extent ht (show extents k constantLeafId = some (2, 1) from rfl)
  unfold constantLeafBody
  refine h.stands ?_
  refine h.ask trivial fun s c₁ h => ?_
  refine .bind ((h.sets (by omega)).mono fun _ c₂ h => ?_)
  exact (h.sets (by omega)).mono fun _ c₃ h => h.cleared_of_vacant hvacant

/-- The rounds of the decomposition write one bit after the other. -/
theorem num2BitsLoop_keeps {one input sum weight : Scalar} {count i : Nat}
    (h : c₀.Placed (extents k) R self r slots c) (hi : i + count ≤ R.signals) :
    Procedure.Confined enter (num2BitsLoop self R.start one input count i sum weight) R c₀ c
      fun _ c' => c₀.Placed (extents k) R self r slots c' := by
  induction count generalizing i sum weight c with
  | zero => exact .pure h
  | succ count ih =>
    unfold num2BitsLoop
    refine .bind ((h.sets (by omega)).mono fun _ c₁ h => ?_)
    refine h.ask trivial fun bit c₂ h => ?_
    refine h.ask trivial fun _ c₃ h => ?_
    exact ih h (by omega)

/-- The decomposition has a signal for each bit. -/
theorem num2BitsBody_keeps : Body.Keeps (extents k) circuit num2BitsId num2BitsBody := by
  rintro enter c self r R - - ht hvacant h
  obtain ⟨hn, -, -⟩ := h.extent ht (show extents k num2BitsId = some (5, 1) from rfl)
  unfold num2BitsBody
  refine h.stands ?_
  refine h.ask trivial fun one c₁ h => ?_
  refine h.ask trivial fun input c₂ h => ?_
  refine .bind ((num2BitsLoop_keeps h ?_).mono fun sum c₃ h => ?_)
  · rw [hn]
    decide
  · exact (h.idle (q := .assert _ _ _) trivial).mono fun _ c₄ h => h.cleared_of_vacant hvacant

/-- The zero test writes its output and its inverse. -/
theorem isZeroBody_keeps : Body.Keeps (extents k) circuit isZeroId isZeroBody := by
  rintro enter c self r R - - ht hvacant h
  obtain ⟨hn, -, -⟩ := h.extent ht (show extents k isZeroId = some (3, 1) from rfl)
  unfold isZeroBody
  refine h.stands ?_
  refine h.ask trivial fun input c₁ h => ?_
  refine .bind ((h.sets (by omega)).mono fun _ c₂ h => ?_)
  refine h.ask trivial fun inv c₃ h => ?_
  refine h.ask trivial fun one c₄ h => ?_
  refine .bind ((h.sets (by omega)).mono fun _ c₅ h => ?_)
  exact (h.idle (q := .assert _ _ _) trivial).mono fun _ c₆ h => h.cleared_of_vacant hvacant

/-! ## Arrays -/

section

variable (hfits : c₀.circuit.templates.Fits (extents k))
  (henter : enter.Confines (extents k) c₀.circuit)

include hfits henter

/-- The block of each multiplier lies in that of the array, and so does its handle. -/
theorem createMultiplier_keeps {i : Nat} {name : String} (hi : i < k)
    (hn : R.signals = 3 * k + k * 3) (hm : R.components = k + 1) (hfirst : R.first = self.index)
    (h : ∃ slots, c₀.Placed (extents k) R self r slots c ∧ VacantFrom i slots) :
    Procedure.Confined enter (createMultiplier k self R.start name i) R c₀ c fun _ c' =>
      ∃ slots, c₀.Placed (extents k) R self r slots c' ∧ VacantFrom (i + 1) slots := by
  obtain ⟨slots, h, hvacant⟩ := h
  have hbelow : Region.Below ⟨R.start + 3 * k + multiplierShape.signals * i, 3,
      self.index + (1 + i), 1⟩ R := by
    refine .of_le ?_
    simp only [multiplierShape]
    omega
  unfold createMultiplier
  refine h.counts ?_
  exact (h.creates hfits henter _ hvacant hbelow rfl rfl).mono fun _ _ h => ⟨_, h, hvacant.set _⟩

/-- A product of the array is taken from a child's block to the array's own. -/
theorem feedMultiplier_keeps {i : Nat} (hi : i < k) (hn : R.signals = 3 * k + k * 3)
    (h : c₀.Placed (extents k) R self r slots c) :
    Procedure.Confined enter (feedMultiplier k self R.start i) R c₀ c fun _ c' =>
      c₀.Placed (extents k) R self r slots c' := by
  unfold feedMultiplier
  refine h.names fun child hslot => ?_
  refine h.ask trivial fun a c₁ h => ?_
  refine h.ask trivial fun b c₂ h => ?_
  have hcopy : ∀ c', c₀.Placed (extents k) R self r slots c' → Procedure.Confined enter (do
      let childStart ← Procedure.signalStart child
      let c ← Procedure.signal childStart
      Procedure.setSignal (R.start + i) c) R c₀ c' fun _ c' =>
        c₀.Placed (extents k) R self r slots c' := by
    intro c' h
    refine h.ask trivial fun childStart c₃ h => ?_
    refine h.ask trivial fun v c₄ h => ?_
    exact h.sets (by omega)
  split
  all_goals
    exact .bind ((h.writes hfits henter hslot).mono fun _ c₃ h =>
      .bind ((h.writes hfits henter hslot).mono fun _ c₄ h => hcopy c₄ h))

end

/-- The blocks of the children follow that of the array, and each has room for a multiplier. -/
theorem multiplierArrayBody_keeps (hfits : circuit.templates.Fits (extents k)) :
    Body.Keeps (extents k) circuit multiplierArrayId (multiplierArrayBody k) := by
  rintro enter c self r R rfl henter ht hvacant h
  obtain ⟨hn, hm, hfirst⟩ := h.extent ht
    (show extents k multiplierArrayId = some (3 * k + k * 3, k + 1) from rfl)
  unfold multiplierArrayBody
  refine h.stands ?_
  refine h.ask trivial fun name c₁ h => ?_
  refine .bind (.forM_range
    (fun i c' => ∃ slots, c.Placed (extents k) R self r slots c' ∧ VacantFrom i slots)
    ⟨_, h, hvacant⟩ (fun i hi c' h => createMultiplier_keeps hfits henter hi hn hm hfirst h)
    fun c₂ ⟨slots, h, _⟩ => ?_)
  exact .bind (.forM_range (fun _ c' => c.Placed (extents k) R self r slots c') h
    (fun i hi c' h => feedMultiplier_keeps hfits henter hi hn h) fun c₃ h => h.releases hfits)

/-! ## Gates -/

/-- To read changes nothing. -/
theorem sumSignals_keeps {start count : Nat} {sum : Scalar}
    (h : c₀.Placed (extents k) R self r slots c) :
    Procedure.Confined enter (sumSignals start count sum) R c₀ c fun _ c' =>
      c₀.Placed (extents k) R self r slots c' := by
  induction count generalizing start sum c with
  | zero => exact .pure h
  | succ count ih => exact h.ask trivial fun _ c₁ h => ih h

/-- The blocks of the two children follow that of the gate. -/
theorem gateBody_keeps (hfits : circuit.templates.Fits (extents k)) :
    Body.Keeps (extents k) circuit gateId gateBody := by
  rintro enter c self r R rfl henter ht hvacant h
  obtain ⟨hn, hm, hfirst⟩ := h.extent ht (show extents k gateId = some (11, 3) from rfl)
  have hend : ∀ slots y c', c.Placed (extents k) R self r slots c' → Procedure.Confined enter (do
      Procedure.setSignal R.start y
      Procedure.releaseChildren self) R c c' fun _ c' => c.Cleared R self r c' := by
    intro slots y c' h
    exact .bind ((h.sets (by omega)).mono fun _ c'' h => h.releases hfits)
  have hzero : Region.Below ⟨R.start + gateShape.signals, 3, self.index + 1, 1⟩ R :=
    .of_le (by simp only [gateShape]; omega)
  have hbits : Region.Below
      ⟨R.start + gateShape.signals + isZeroShape.signals, 5, self.index + 2, 1⟩ R :=
    .of_le (by simp only [gateShape, isZeroShape]; omega)
  unfold gateBody
  refine h.stands ?_
  refine h.ask trivial fun name c₁ h => ?_
  refine h.ask trivial fun x c₂ h => ?_
  refine h.ask trivial fun flag c₃ h => ?_
  refine h.newChild hfits henter hvacant hzero rfl fun slots zero c₄ h hvacant hslot => ?_
  refine .bind ((h.writes hfits henter hslot).mono fun _ c₅ h => ?_)
  refine h.ask trivial fun isZero c₆ h => ?_
  split
  · refine h.newChild hfits henter hvacant hbits rfl fun slots n2b c₇ h _ hslot => ?_
    refine .bind ((h.writes hfits henter hslot).mono fun _ c₈ h => ?_)
    exact .bind ((sumSignals_keeps h).mono fun y c₉ h => hend _ y c₉ h)
  · exact .bind (.pure (hend _ isZero c₆ h))

/-! ## The main component of the large circuit -/

/-- Inputs are copied to a child in a slot, whose block lies inside of the parent's. -/
theorem copyInputs_keeps {child : Handle} {count source l slot : Nat}
    (hfits : c₀.circuit.templates.Fits (extents k))
    (henter : enter.Confines (extents k) c₀.circuit)
    (h : c₀.Placed (extents k) R self r slots c) (hslot : slots[slot]? = some (some child)) :
    Procedure.Confined enter (copyInputs child count source l) R c₀ c fun _ c' =>
      c₀.Placed (extents k) R self r slots c' := by
  induction count generalizing source l c with
  | zero => exact .pure h
  | succ count ih =>
    refine h.ask trivial fun _ c₁ h => ?_
    exact .bind ((h.writes hfits henter hslot).mono fun _ c₂ h => ih h)

/-- The blocks of the three children follow the component's own. -/
theorem mainBody_keeps (hk : k = 3) (hfits : circuit.templates.Fits (extents k)) :
    Body.Keeps (extents k) circuit mainId mainBody := by
  subst hk
  rintro enter c self r R rfl henter ht hvacant h
  obtain ⟨hn, hm, hfirst⟩ := h.extent ht (show extents 3 mainId = some (42, 9) from rfl)
  have hdot : mainDot = 10 := rfl
  let leafStart := R.start + mainShape.signals
  let arrayStart := leafStart + constantLeafShape.signals
  have hleaf : Region.Below ⟨leafStart, 2, self.index + 1, 1⟩ R :=
    .of_le (by simp only [leafStart, mainShape, arrayWidth]; omega)
  have harray : Region.Below ⟨arrayStart, 18, self.index + 2, 4⟩ R :=
    .of_le (by simp only [arrayStart, leafStart, mainShape, constantLeafShape, arrayWidth]; omega)
  have hgate : Region.Below ⟨arrayStart + multiplierArraySignals arrayWidth, 11,
      self.index + (2 + multiplierArrayComponents arrayWidth), 3⟩ R :=
    .of_le (by
      simp only [arrayStart, leafStart, mainShape, constantLeafShape, multiplierArraySignals,
        multiplierArrayComponents, multiplierShape, arrayWidth]
      omega)
  unfold mainBody
  refine h.stands ?_
  refine h.ask trivial fun name c₁ h => ?_
  refine h.counts (.bind ?_)
  refine (h.creates hfits henter _ hvacant hleaf rfl rfl).mono fun _ c₂ h => ?_
  refine h.newChild hfits henter (hvacant.set _) harray rfl fun slots array c₃ h hvacant hslot => ?_
  refine .bind ((copyInputs_keeps hfits henter h hslot).mono fun _ c₄ h => ?_)
  refine .bind ((copyInputs_keeps hfits henter h hslot).mono fun _ c₅ h => ?_)
  refine .bind ((sumSignals_keeps h).mono fun total c₆ h => ?_)
  refine .bind ((h.sets (by omega)).mono fun _ c₇ h => ?_)
  refine h.newChild (t := gateId) hfits henter hvacant hgate rfl fun slots gate c₈ h _ hslot => ?_
  refine h.ask trivial fun x c₉ h => ?_
  refine h.ask trivial fun flag c₁₀ h => ?_
  refine .bind ((h.writes hfits henter hslot).mono fun _ c₁₁ h => ?_)
  refine .bind ((h.writes hfits henter hslot).mono fun _ c₁₂ h => ?_)
  refine h.ask trivial fun dot c₁₃ h => ?_
  refine h.ask trivial fun square c₁₄ h => ?_
  refine h.ask trivial fun y c₁₅ h => ?_
  refine .bind ((h.sets (by omega)).mono fun _ c₁₆ h => ?_)
  refine h.ask trivial fun seedValue c₁₇ h => ?_
  exact .bind ((h.sets (by omega)).mono fun _ c₁₈ h => h.releases hfits)

end

/-! ## All of them -/

section

variable {circuit : Circuit} {k : Nat}

/-- Every body keeps to what is set aside for its template. -/
theorem Runs.confines (h : Runs circuit k) (levels : Nat) :
    (enterWithin levels).Confines (extents k) circuit := by
  refine Circuit.confined (fun t prefer body hbody hsome => ?_) levels
  obtain ⟨⟨n, m⟩, hextent⟩ := Option.isSome_iff_exists.mp hsome
  have hone : ∀ {id : TemplateId} {e : Template},
      (Sample.templates k)[id.index]? = some (id, e) → e.body.Keeps (extents k) circuit id →
      circuit.templates.body? id prefer = some body → body.Keeps (extents k) circuit id := by
    intro id e he hkeeps hb
    cases (h.body? id he prefer).symm.trans hb
    exact hkeeps
  exact extents_cases (k := k)
    (P := fun t _ _ => circuit.templates.body? t prefer = some body →
      body.Keeps (extents k) circuit t)
    (hone rfl multiplierBody_keeps) (hone rfl constantLeafBody_keeps) (hone rfl num2BitsBody_keeps)
    (hone rfl isZeroBody_keeps) (hone rfl (multiplierArrayBody_keeps h.fits))
    (hone rfl (gateBody_keeps h.fits)) (fun hk => hone rfl (mainBody_keeps hk h.fits)) hextent hbody

end

/-- **A component keeps to its block.**  Wherever an array, a gate or, beside arrays of width three,
    a main component stands: when it is started without children, with any inputs and whether it
    succeeds or not, no signal outside the block of its template has changed, no record of a handle
    outside, nor the count of main inputs nor which component runs.  If it succeeds, then all that
    were created in the meantime have been released. -/
theorem trigger_keeps_to_block {c : Computation} {k levels n m : Nat} {id : Handle} {r : Component}
    (hc : Runs c.circuit k) (hr : c.registry.get? id = some r)
    (hempty : ∀ (slot : Nat) (child : Handle), r.slots[slot]? ≠ some (some child))
    (hblock : r.template = multiplierArrayId ∧ n = 6 * k ∧ m = k + 1 ∨
      r.template = gateId ∧ n = gateSignals ∧ m = gateComponents ∨
      k = 3 ∧ r.template = mainId ∧ n = 42 ∧ m = 9) :
    let run : Action Unit := (Request.trigger id).perform (enterWithin levels)
    let c' := run.after c
    (∀ i, i < r.signalStart ∨ r.signalStart + n ≤ i →
      c'.store.read? i = c.store.read? i ∧ c'.store.isWritten? i = c.store.isWritten? i) ∧
    (∀ other : Handle, other.index < id.index ∨ id.index + m ≤ other.index →
      c'.registry.get? other = c.registry.get? other) ∧
    c'.pendingInputs = c.pendingInputs ∧ c'.active = c.active ∧
    (run c = .ok () c' → ∀ other r', c.registry.get? other = none →
      c'.registry.get? other = some r' → r'.stage = .released) := by
  intro run c'
  have hextent : extents k r.template = some (n, m) := by
    rcases hblock with ⟨ht, rfl, rfl⟩ | ⟨ht, rfl, rfl⟩ | ⟨rfl, ht, rfl, rfl⟩
    · rw [ht, show 6 * k = multiplierArraySignals k by
        unfold multiplierArraySignals multiplierShape; simp only; omega]
      rfl
    · rw [ht]
      rfl
    · rw [ht]
      rfl
  have hrun : run.Confined ⟨r.signalStart, n, id.index, m⟩ c c fun _ c' =>
      c.Tends (extents k) id ⟨r.signalStart, n, id.index, m⟩ c' :=
    Computation.trigger_confined hc.fits (hc.confines levels)
      ⟨r, hr, Component.region?_eq_some.mpr ⟨hextent, rfl, rfl⟩, fun _ slot _ => hempty slot⟩
  have hspares : c.Spares ⟨r.signalStart, n, id.index, m⟩ c' := hrun.after fun _ _ h => h.spares
  refine ⟨fun i hi => hspares.signal hi, hspares.view.records, hspares.pending, hspares.active,
    fun hok other r' => ?_⟩
  exact (hrun.returns () c' hok).fresh other r'

/-- In the large circuit a gate has a place of its own, and both inputs were set and counted. -/
def gateWaiting : Computation :=
  Action.after (do
    create (enterWithin 0) ⟨3⟩ gateId 20 "gate" none
    Action.setSignal 21 5
    Action.setSignal 22 1
    let _ ← countInput ⟨3⟩
    let _ ← countInput ⟨3⟩) (.start sampleCircuit {})

/-- The gate has run. -/
def gateDone : Computation := ((Request.trigger ⟨3⟩).perform (enterWithin 2)).after gateWaiting

theorem gateDone_eq :
    (Request.trigger ⟨3⟩).perform (enterWithin 2) gateWaiting = .ok () gateDone := by
  unfold gateDone
  cases h : (Request.trigger ⟨3⟩).perform (enterWithin 2) gateWaiting with
  | ok u c => rw [after_ok h]
  | error f c =>
    have hok : (match (Request.trigger ⟨3⟩).perform (enterWithin 2) gateWaiting with
      | .ok _ _ => true
      | .error _ _ => false) = true := by decide +kernel
    rw [h] at hok
    cases hok

/-- It has counted the one bits of its input.  Around it nothing has changed, and its two children
    are released. -/
theorem trigger_keeps_to_block_gate : gateDone.store.read? 20 = some 2 ∧
    gateDone.store.isWritten? 19 = some false ∧ gateDone.store.isWritten? 31 = some false ∧
    gateDone.registry.get? ⟨6⟩ = none ∧
    ∀ other : Handle, other = ⟨4⟩ ∨ other = ⟨5⟩ →
      ∃ r', gateDone.registry.get? other = some r' ∧ r'.stage = .released := by
  have hrecord : ∃ r, gateWaiting.registry.get? ⟨3⟩ = some r ∧ r.signalStart = 20 ∧
      r.slots = #[none, none] ∧ r.template = gateId := ⟨_, rfl, rfl, rfl, rfl⟩
  obtain ⟨r, hr, hstart, hslots, ht⟩ := hrecord
  have hempty : ∀ (slot : Nat) (child : Handle), r.slots[slot]? ≠ some (some child) := by
    rw [hslots]
    exact fun slot child => vacantFrom_replicate 0 2 slot (Nat.zero_le slot) child
  obtain ⟨hsignals, hrecords, -, -, hreleased⟩ :=
    trigger_keeps_to_block (k := 3) ⟨rfl, rfl⟩ hr hempty (.inr (.inl ⟨ht, rfl, rfl⟩))
  rw [hstart] at hsignals
  refine ⟨by decide +kernel, (hsignals 19 (by decide)).2, (hsignals 31 (by decide)).2,
    hrecords ⟨6⟩ (by decide), ?_⟩
  have hchild : ∀ other : Handle, gateWaiting.registry.get? other = none →
      (gateDone.registry.get? other).isSome →
      ∃ r', gateDone.registry.get? other = some r' ∧ r'.stage = .released := by
    intro other hnone hsome
    obtain ⟨r', hr'⟩ := Option.isSome_iff_exists.mp hsome
    exact ⟨r', hr', hreleased gateDone_eq other r' hnone hr'⟩
  rintro other (rfl | rfl)
  · exact hchild ⟨4⟩ rfl (by decide +kernel)
  · exact hchild ⟨5⟩ rfl (by decide +kernel)

end Sample
end CircuitWitness
