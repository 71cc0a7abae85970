import CircuitWitness.Proofs.Feeding
import CircuitWitness.Proofs.Meets
/-
  What a calculation comes to.

  A calculation that is given a row of values by name begins the body of the main component in a
  view that the row determines: the main inputs hold the row, signal 0 holds one, and the main
  component is the only one.  So whatever the body comes to from there, the calculation comes to.
-/

namespace CircuitWitness

open CircuitWitness.Action

/-- Counting inputs makes no room and takes none. -/
theorem Computation.capacity_awaited (signals : List Nat) (c : Computation) :
    (c.awaited signals).registry.capacity = c.registry.capacity := by
  induction signals generalizing c with
  | nil => rfl
  | cons signal rest ih =>
    exact (ih (c.arrived .mainComponent signal rest.length)).trans (Registry.capacity_modify ..)

namespace Circuit

/-- The view in which the main component is about to begin, when the main inputs hold a row of
    values. -/
def readyView (circuit : Circuit) (config : Config) (values : List Scalar) : View where
  circuit := circuit
  config := config
  size := circuit.totalSignals
  capacity := circuit.totalComponents
  signals := circuit.fedSignal values
  records := fun id => if .mainComponent = id then
    some (Component.fresh circuit.mainTemplate circuit.mainSignalStart 0 circuit.mainShape.slots
      "main" none) else none

variable {circuit : Circuit} {config : Config} {values : List Scalar} {inputs : InputValues}
  {taken : List Element} {c : Computation}

/-- When the store holds the row, the main component is about to begin in the view that the row
    determines. -/
theorem Taken.view_ready (h : circuit.Taken config taken c) (hf : circuit.Feedable)
    (hstore : ∀ i, c.store.get? i = circuit.fedSignal values i) {reg : Registry}
    (hreg : c.registry.create .mainComponent c.mainRecord = .ok reg) :
    (c.ready reg).view = circuit.readyView config values := by
  obtain ⟨hkept, hcircuit, hconfig, -⟩ := Computation.awaited_frame
    (List.range' c.circuit.mainInputStart c.circuit.mainInputCount)
    (c.enrolled reg .mainComponent c.circuit.mainTemplate)
  have hcapacity := Computation.capacity_awaited
    (List.range' c.circuit.mainInputStart c.circuit.mainInputCount)
    (c.enrolled reg .mainComponent c.circuit.mainTemplate)
  have hcounts : c.circuit.mainShape.inputs < 2 ^ 32 := h.circuit_eq ▸ hf.counts
  have hsets := Computation.sets_ready hcounts hreg
  refine View.ext (hcircuit.trans h.circuit_eq) (hconfig.trans h.config_eq)
    ((congrArg SignalStore.size hkept).trans h.size) ?_ (funext fun i => ?_)
    (funext fun id => ?_)
  · refine hcapacity.trans ((Registry.create_ok hreg).2.2.1.trans ?_)
    rw [h.registry, Registry.capacity_empty]
    rfl
  · show (c.ready reg).store.get? i = _
    rw [show (c.ready reg).store = c.store from hkept]
    exact hstore i
  · refine (hsets id).trans ?_
    rw [h.registry, Registry.get?_empty]
    unfold Computation.mainRecord
    rw [h.circuit_eq]
    rfl

/-- When all inputs are assigned, the main component is there and waits for none. -/
theorem records_readyView (config : Config) (values : List Scalar) :
    (circuit.readyView config values).records .mainComponent = some (Component.fresh
      circuit.mainTemplate circuit.mainSignalStart 0 circuit.mainShape.slots "main" none) := by
  simp [readyView]

/-! ## The body of the main component begins -/

/-- The main component while its body runs. -/
def mainRunning (circuit : Circuit) : Component :=
  { Component.fresh circuit.mainTemplate circuit.mainSignalStart 0 circuit.mainShape.slots
      "main" none with stage := .running }

/-- The view in which the body of the main component begins. -/
def begunView (circuit : Circuit) (config : Config) (values : List Scalar) : View :=
  (circuit.readyView config values).put .mainComponent circuit.mainRunning

section

variable (circuit : Circuit) (config : Config) (values : List Scalar)

/-- The view in which its body begins: the same circuit, sizes and signals, and a running main
    component. -/
@[simp] theorem circuit_begunView : (circuit.begunView config values).circuit = circuit :=
  View.circuit_put ..

@[simp] theorem size_begunView : (circuit.begunView config values).size = circuit.totalSignals :=
  View.size_put ..

@[simp] theorem capacity_begunView :
    (circuit.begunView config values).capacity = circuit.totalComponents :=
  View.capacity_put ..

theorem records_begunView :
    (circuit.begunView config values).records .mainComponent = some circuit.mainRunning :=
  View.records_put_self ..

/-- There is no other component yet. -/
theorem records_begunView_ne {id : Handle} (h : .mainComponent ≠ id) :
    (circuit.begunView config values).records id = none :=
  (View.records_put_ne _ _ _ _ h).trans (if_neg h)

end

/-- Signal 0 holds one, and the main inputs hold the row. -/
theorem Addressed.holds_begunView (h : circuit.Addressed) (config : Config)
    (values : List Scalar) : (circuit.begunView config values).signals 0 = some 1 ∧
      (circuit.begunView config values).Holds circuit.mainInputStart values := by
  have hpos := h.feedable.start
  unfold begunView
  rw [View.signals_put, View.holds_put]
  refine ⟨by simp [readyView, fedSignal], View.holds_iff.mpr fun j v hv => ?_⟩
  have hne : circuit.mainInputStart + j ≠ 0 := by
    unfold mainInputStart
    omega
  show circuit.fedSignal values _ = _
  unfold fedSignal
  rw [if_neg hne, if_pos (Nat.le_add_right ..), Nat.add_sub_cancel_left]
  exact hv

/-! ## The outcome -/

/-- **To run the main component comes to what its body comes to**, from the view that the row
    determines. -/
theorem Taken.runMain_meets (h : circuit.Taken config taken c) (hf : circuit.Feedable)
    (hstore : ∀ i, c.store.get? i = circuit.fedSignal values i) {enter : Enter} {body : Body}
    (hbody : circuit.templates.body? circuit.mainTemplate config.useAlternate = some body)
    {Q : View → Prop} {E : Fault → View → Prop}
    (hmeets : (enter body .mainComponent).Meets (circuit.begunView config values)
      (fun _ w => ∃ r, w.records .mainComponent = some r ∧
        Q (w.put .mainComponent { r with stage := .finished })) E) :
    match runMain enter c with
    | .ok _ s => Q s.view
    | .error f s => E f s.view := by
  have hfree : c.registry.get? .mainComponent = none := by rw [h.registry, Registry.get?_empty]
  have hcreate := Registry.create_of_free c.mainRecord hfree (by
    rw [h.registry, Registry.capacity_empty]
    exact Nat.pos_of_ne_zero hf.components)
  generalize (⟨_⟩ : Registry) = reg at hcreate
  have hmain := h.circuit_eq.symm ▸ hf.main
  have hcounts : c.circuit.mainShape.inputs < 2 ^ 32 := h.circuit_eq.symm ▸ hf.counts
  rw [runMain_eq hmain hcounts hcreate]
  have hrun : (Action.trigger enter .mainComponent).Meets (circuit.readyView config values)
      (fun _ w => Q w) E :=
    .trigger (records_readyView config values) rfl rfl hbody hmeets
  have hend := hrun.outcome _ (h.view_ready hf hstore hcreate)
  cases hc : Action.trigger enter .mainComponent (c.ready reg) with
  | error f s => rwa [hc] at hend
  | ok u s => rwa [hc] at hend

/-- **A calculation comes to what the body of the main component comes to.** -/
theorem Addressed.calculate_meets (h : circuit.Addressed)
    (hlen : values.length = circuit.mainInputCount) (hgives : circuit.Gives values inputs)
    (config : Config) {body : Body}
    (hbody : circuit.templates.body? circuit.mainTemplate config.useAlternate = some body)
    {Q : List Scalar → Prop} {E : Fault → Prop}
    (hmeets : (enterWithin circuit.totalComponents body .mainComponent).Meets
      (circuit.begunView config values)
      (fun _ w => (∃ r, w.records .mainComponent = some r) ∧ Q w.witness) fun f _ => E f) :
    match circuit.calculate config inputs with
    | .ok ws => Q ws
    | .error f => E f := by
  have hl := hgives.elements_perm
  obtain ⟨hfits, hlength⟩ := h.fits hlen hl
  have htaken := (taken_start h.feedable config).assignedAll h.feedable hfits
  have hplaces := (hl.map circuit.place).trans (h.places_perm hlen)
  have hend := htaken.runMain_meets (Q := fun w => Q w.witness) (E := fun f _ => E f) h.feedable
    (h.get?_fed hlen hl htaken.one htaken.values fun i => by
      rw [htaken.written i, ← hplaces.mem_iff, List.mem_map]
      rfl) hbody
    (hmeets.mono (fun _ w ⟨⟨r, hr⟩, hQ⟩ => ⟨r, hr, (View.witness_put ..).symm ▸ hQ⟩)
      fun _ _ h => h)
  unfold calculate calculation final
  rw [h.feed_eq hlen hgives]
  cases hc : runMain (enterWithin circuit.totalComponents)
      ((Computation.start circuit config).assignedAll inputs.elements) with
  | error f s =>
    rw [hc] at hend
    exact hend
  | ok u s =>
    rw [hc] at hend
    show Q s.witness
    rw [Computation.witness_eq]
    exact hend

end Circuit
end CircuitWitness
