import CircuitWitness.Proofs.Countable
import CircuitWitness.Proofs.Orderly
import CircuitWitness.Proofs.Outcome
/-
  Calculations that the audit passes.

  A calculation by name is a run of a caller (`Procedure.calculate`), so what remains to be seen is
  that one which returns does so with strict reads as well.  The main inputs settle that: a
  calculation returns only if the last main input was taken, and by then the elements that were
  taken have filled a row.  From the row alone the body of the main component returns or not
  (`Circuit.Decides`), and the switches have no part in it.
-/

namespace CircuitWitness

open CircuitWitness.Action

namespace Circuit

variable {circuit : Circuit} {config : Config} {inputs : InputValues} {taken : List Element}
  {c c' : Computation} {values : List Scalar}

/-! ## The row of main inputs -/

/-- When all main inputs are taken, their values stand in a row. -/
theorem Taken.exists_row (h : circuit.Taken config taken c) (hf : circuit.Feedable)
    (hfull : taken.length = circuit.mainInputCount) : ∃ values : List Scalar,
      values.length = circuit.mainInputCount ∧
      ∀ x ∈ taken, values[circuit.place x - circuit.mainInputStart]? = some x.value := by
  refine ⟨(List.range' circuit.mainInputStart circuit.mainInputCount).map fun i =>
    (c.store.read? i).getD 0, by rw [List.length_map, List.length_range'], fun x hx => ?_⟩
  have hmem := (h.places hf hfull).mem_iff.mp (List.mem_map_of_mem hx)
  rw [List.mem_range'_1] at hmem
  rw [List.getElem?_map, List.getElem?_range' (by omega), Option.map_some, Nat.one_mul,
    Nat.add_sub_cancel' hmem.1, h.values x hx]
  rfl

/-- The row is what the store holds. -/
theorem Taken.get?_row (h : circuit.Taken config taken c) (hf : circuit.Feedable)
    (hfull : taken.length = circuit.mainInputCount)
    (hlen : values.length = circuit.mainInputCount)
    (hrow : ∀ x ∈ taken, values[circuit.place x - circuit.mainInputStart]? = some x.value)
    (i : Nat) : c.store.get? i = circuit.fedSignal values i := by
  have hplaces := h.places hf hfull
  refine hf.get?_row hplaces hlen hrow h.one h.values (fun i => ?_) i
  rw [h.written i, ← hplaces.mem_iff, List.mem_map]

/-! ## Bodies that the row decides -/

/-- With a row of main inputs, the body of the main component returns if `P` holds and fails if it
    does not, whatever the switches are. -/
def ReturnsIff (circuit : Circuit) (values : List Scalar) (P : Prop) : Prop :=
  ∀ config body,
    circuit.templates.body? circuit.mainTemplate config.useAlternate = some body →
    (enterWithin circuit.totalComponents body .mainComponent).Meets
      (circuit.begunView config values)
      (fun _ w => (∃ r, w.records .mainComponent = some r) ∧ P) fun _ _ => ¬ P

/-- Whether the body of the main component returns is decided by the main inputs alone. -/
def Decides (circuit : Circuit) : Prop :=
  ∀ values : List Scalar, values.length = circuit.mainInputCount →
    ∃ P, circuit.ReturnsIff values P

/-- A calculation returns if it is given main inputs for which the body of the main component
    does. -/
theorem ReturnsIff.calculation_ok {P : Prop} (h : circuit.ReturnsIff values P) (hP : P)
    (ha : circuit.Addressed) (hlen : values.length = circuit.mainInputCount)
    (hgives : circuit.Gives values inputs) (config : Config) :
    ∃ c, circuit.calculation config inputs = .ok c := by
  obtain ⟨body, hbody⟩ := TemplateTable.body?_of_shape? ha.feedable.main config.useAlternate
  have hend := ha.calculate_meets (Q := fun _ => True) (E := fun _ => ¬ P) hlen hgives config
    hbody ((h config body hbody).mono (fun _ _ hr => ⟨hr.1, trivial⟩) fun _ _ hE => hE)
  unfold calculate at hend
  cases hc : circuit.calculation config inputs with
  | ok c => exact ⟨c, rfl⟩
  | error f =>
    rw [hc] at hend
    exact absurd hP hend

/-- The main component runs through with some switches if it does so with others. -/
theorem Decides.returns {config' : Config} (hd : circuit.Decides) (hf : circuit.Feedable)
    (hfull : taken.length = circuit.mainInputCount) (h : circuit.Taken config taken c)
    (h' : circuit.Taken config' taken c') {s : Computation}
    (hrun : runMain (enterWithin circuit.totalComponents) c = .ok () s) :
    ∃ s', runMain (enterWithin circuit.totalComponents) c' = .ok () s' := by
  obtain ⟨values, hlen, hrow⟩ := h.exists_row hf hfull
  obtain ⟨P, hP⟩ := hd values hlen
  -- Both computations hold the row, so the body begins in the same view but for the switches.
  have hends : ∀ {config c}, circuit.Taken config taken c →
      (∀ s, runMain (enterWithin circuit.totalComponents) c = .ok () s → P) ∧
      ∀ f s, runMain (enterWithin circuit.totalComponents) c = .error f s → ¬ P := by
    intro config c htaken
    obtain ⟨body, _, hbegins, -⟩ := htaken.begins hf hfull
    have hend := htaken.runMain_meets (Q := fun _ => P) (E := fun _ _ => ¬ P) hf
      (htaken.get?_row hf hfull hlen hrow) hbegins.body_eq
      ((hP config body hbegins.body_eq).mono (fun _ _ h => h.1.imp fun _ hr => ⟨hr, h.2⟩)
        fun _ _ hp => hp)
    constructor
    · intro s hs
      rw [hs] at hend
      exact hend
    · intro f s hs
      rw [hs] at hend
      exact hend
  cases hrun' : runMain (enterWithin circuit.totalComponents) c' with
  | ok _ s' => exact ⟨s', rfl⟩
  | error f s' => exact absurd ((hends h).1 s hrun) ((hends h').2 f s' hrun')

/-! ## Calculations that return -/

theorem feed_of_calculation (h : circuit.calculation config inputs = .ok c) :
    feed inputs (.start circuit config) = .ok () c := final_eq_ok.mp h

/-- A calculation returns only if all main inputs were taken, nothing came after them, and the main
    component ran through. -/
theorem calculation_ran (hf : circuit.Feedable) (h : circuit.calculation config inputs = .ok c) :
    circuit.Complete inputs ∧ circuit.offenceOf inputs = none ∧
    ∃ c₀, circuit.Taken config (circuit.takenOf inputs) c₀ ∧
      runMain (enterWithin circuit.totalComponents) c₀ = .ok () c := by
  have hran := feed_of_calculation h
  by_cases hcomplete : circuit.Complete inputs
  · obtain ⟨c₀, htaken, hfeed⟩ := feed_complete hf config hcomplete
    rw [hfeed] at hran
    cases hrun : runMain (enterWithin circuit.totalComponents) c₀ with
    | error f s => rw [bind_error hrun] at hran; cases hran
    | ok _ s =>
      rw [bind_ok hrun] at hran
      cases ho : circuit.offenceOf inputs with
      | some e => rw [ho] at hran; cases hran
      | none =>
        rw [ho] at hran
        cases hran
        exact ⟨hcomplete, rfl, c₀, htaken, hrun⟩
  · obtain ⟨_, -, hfeed⟩ := feed_incomplete hf config hcomplete
    rw [hfeed] at hran
    cases hran

/-- **A calculation that returns does so with strict reads as well.** -/
theorem calculation_strict (hf : circuit.Feedable) (hd : circuit.Decides)
    (h : circuit.calculation config inputs = .ok c) :
    ∃ c', circuit.calculation config.strict inputs = .ok c' := by
  obtain ⟨hcomplete, hoffence, c₀, htaken, hrun⟩ := calculation_ran hf h
  obtain ⟨c₁, htaken', hfeed⟩ := feed_complete hf config.strict hcomplete
  obtain ⟨s, hrun'⟩ := hd.returns hf hcomplete.1 htaken htaken' hrun
  refine ⟨s, ?_⟩
  unfold calculation final
  rw [hfeed, bind_ok hrun', hoffence]
  rfl

end Circuit

/-! ## Runs of callers -/

/-- To feed the main component by hand is to feed it. -/
theorem Procedure.byHand_asks (t : TemplateId) (start : Nat) (label : String)
    (parent : Option Handle) (order : List Nat) (values : Nat → Scalar) :
    (byHand .mainComponent t start label parent order values).Asks Request.Feeds :=
  .bind (.request (show Request.Feeds (.create ..) from rfl)) fun _ =>
    .forM fun _ _ => .request (show Request.Feeds (.writeInput ..) from rfl)

/-- Assign the main inputs, and start the main component if it is not there then. -/
def Procedure.calculate (inputs : InputValues) : Procedure Unit := do
  assignAll inputs
  if (← stage .mainComponent).isSome then pure () else runMain

theorem Procedure.calculate_asks (inputs : InputValues) : (calculate inputs).Asks Request.Feeds :=
  .bind (.request trivial) fun _ => .bind (.request trivial) fun
    | some _ => .pure ()
    | none => .request trivial

/-- A request from outside all bodies does not change how deep bodies can be nested. -/
theorem Request.nesting_eq {q : Request} {a : q.Answer} {c c' : Computation}
    (h : q.run c = .ok a c') : c'.nesting = c.nesting := by
  have hpath := perform_path c.nesting q c
  rw [show (q.perform (enterWithin c.nesting)).after c = c' from after_ok h] at hpath
  exact hpath.capacity_eq

/-- Feeding that returns is such a run. -/
theorem Procedure.run_calculate {inputs : InputValues} {c c' : Computation}
    (h : feed inputs c = .ok () c') : (calculate inputs).run c = .ok () c' := by
  show runWith (enterWithin c.nesting) (calculate inputs) c = _
  cases hassign : Request.run (.assignAll inputs) c with
  | error f d =>
    rw [Circuit.feed_error hassign] at h
    cases h
  | ok _ d =>
    rw [Circuit.feed_ok hassign] at h
    unfold calculate
    rw [runWith_bind]
    refine (bind_ok ((congrFun (runWith_request (.assignAll inputs)) c).trans hassign)).trans ?_
    rw [runWith_bind]
    refine (bind_ok (congrFun (runWith_request (.stage .mainComponent)) d)).trans ?_
    cases hstage : d.registry.stage? .mainComponent with
    | some s =>
      rw [hstage] at h
      exact h
    | none =>
      rw [hstage, if_neg (by simp)] at h
      split at h
      · cases h
      · refine (congrFun (runWith_request .runMain) d).trans ?_
        rw [← Request.nesting_eq hassign]
        exact h

/-- **A calculation by name that returns leaves the computation in order**, if the bodies are
    compiled ones and the main inputs decide whether the one of the main component returns. -/
theorem Circuit.calculation_inOrder {circuit : Circuit} {config : Config} {inputs : InputValues}
    {c : Computation} (hf : circuit.Feedable) (hfit : circuit.CountersFit)
    (hc : circuit.Compiled) (hd : circuit.Decides) (hon : config.recordTrace = true)
    (h : circuit.calculation config inputs = .ok c) : c.InOrder := by
  obtain ⟨hcomplete, -, c₀, htaken, hrun⟩ := calculation_ran hf h
  obtain ⟨c', hstrict⟩ := calculation_strict hf hd h
  refine Procedure.inOrder hfit hc hon (Procedure.calculate_asks inputs)
    (Procedure.run_calculate (feed_of_calculation h))
    (Procedure.run_calculate (feed_of_calculation hstrict)) ?_
  rw [(htaken.returns hf hcomplete.1 hrun).2.2]
  simp

end CircuitWitness
