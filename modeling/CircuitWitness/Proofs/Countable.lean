import CircuitWitness.Proofs.ByHand
import CircuitWitness.Proofs.Calculation
import CircuitWitness.Proofs.Yields
/-
  Inputs that cannot be counted.

  The count of missing inputs is a word of 32 bits, and the number of inputs of a template need not
  fit into one.  A component of such a template starts with a count that is too low, and each input
  that arrives lowers it by one at least; so not all of its inputs can arrive.  Hence no run that
  feeds all inputs of such a component returns, and neither does a calculation if that component is
  the main one.
-/

namespace CircuitWitness

open CircuitWitness.Action

/-- Whatever a request does is a path of steps. -/
theorem Request.perform_path (levels : Nat) (q : Request) (c : Computation) :
    Path .any ⟨c.active.toList, c⟩
      ⟨c.active.toList, (q.perform (enterWithin levels)).after c⟩ := by
  have hup : Moment.Upright ⟨c.active.toList, c⟩ := by
    show c.active = c.active.toList.head?
    cases c.active <;> rfl
  exact (Request.follows_any levels q hup).1

section

variable {levels : Nat} {c : Computation} {id : Handle} {r : Component}

/-- An input that arrives lowers the count. -/
theorem Action.arrive_lowers (hr : c.registry.get? id = some r) (i : Nat) :
    (arrive (enterWithin levels) id i).Yields c fun _ c' =>
      ∃ r', c'.registry.get? id = some r' ∧ r'.pending < r.pending := by
  cases hp : r.pending with
  | zero => exact .of_error (arrive_error (countInput_underflow hr hp))
  | succ n =>
    have hget := (Registry.sets_modify hr fun r => { r with pending := n }).self
    by_cases hn : n = 0
    · subst hn
      refine .of_eq (arrive_last hr hp) fun _ c' hrun => ?_
      obtain ⟨r', hr', hages⟩ := (Request.perform_path levels (.trigger id) (c.arrived id i 0)).ages
        id _ hget
      rw [show (Request.trigger id).perform (enterWithin levels) = trigger (enterWithin levels) id
        from rfl, after_ok hrun] at hr'
      exact ⟨r', hr', Nat.lt_succ_of_le hages.pending_le⟩
    · exact .of_ok (arrive_waiting hr hp hn) ⟨_, hget, Nat.lt_succ_self n⟩

theorem Action.writeInput_lowers (hr : c.registry.get? id = some r) (l : Nat) (v : Scalar) :
    (writeInput (enterWithin levels) id l v).Yields c fun _ c' =>
      ∃ r', c'.registry.get? id = some r' ∧ r'.pending < r.pending := by
  cases hi : c.inputSignal id l with
  | error e => exact .of_error (bind_error (look_error hi))
  | ok i =>
    cases hw : c.store.isWritten? i with
    | none => exact .of_error ((bind_ok (look_ok hi)).trans (bind_error (setSignal_none hw)))
    | some w => exact .of_eq (writeInput_eq hi hw) (arrive_lowers (c := c.wrote i v) hr i)

/-- No more inputs arrive than are missing. -/
theorem Action.arriveAll_counts {signals : List Nat}
    (hr : c.registry.get? .mainComponent = some r) :
    (arriveAll (enterWithin levels) signals).Yields c fun _ _ => signals.length ≤ r.pending := by
  induction signals generalizing c r with
  | nil => exact .of_ok rfl (Nat.zero_le _)
  | cons i rest ih =>
    refine .bind ((arrive_lowers hr i).mono ?_)
    rintro _ c' ⟨r', hr', hlt⟩
    exact (ih hr').mono fun _ _ hle => Nat.lt_of_le_of_lt hle hlt

/-- No more inputs are written than are missing. -/
theorem Procedure.writes_count {locals : List Nat} {values : Nat → Scalar}
    (hr : c.registry.get? id = some r) :
    Procedure.Yields (enterWithin levels) (locals.forM fun l => writeInput id l (values l)) c
      fun _ _ => locals.length ≤ r.pending := by
  induction locals generalizing c r with
  | nil => exact .pure (Nat.zero_le _)
  | cons l rest ih =>
    refine Procedure.Yields.bind (.request ((Action.writeInput_lowers hr l (values l)).mono ?_))
    rintro _ c' ⟨r', hr', hlt⟩
    exact (ih hr').mono fun _ _ hle => Nat.lt_of_le_of_lt hle hlt

/-- A component is created with the count of its inputs, as far as it goes. -/
theorem Action.create_counts {t : TemplateId} {start : Nat} {label : String}
    {parent : Option Handle} {shape : TemplateShape}
    (ht : c.circuit.templates.shape? t = some shape) :
    (create (enterWithin levels) id t start label parent).Yields c fun _ c' =>
      ∃ r, c'.registry.get? id = some r ∧ r.pending ≤ shape.inputCounter := by
  intro _ c' hrun
  cases hr : c.registry.create id
      (Component.fresh t start shape.inputCounter shape.slots label parent) with
  | error d => cases (create_refused ht hr).symm.trans hrun
  | ok reg =>
    have hget := (Registry.sets_create hr).self
    rw [create_ok ht hr] at hrun
    split at hrun
    · obtain ⟨r, hr, hages⟩ :=
        (Request.perform_path levels (.trigger id) (c.enrolled reg id t)).ages id _ hget
      rw [show (Request.trigger id).perform (enterWithin levels) = trigger (enterWithin levels) id
        from rfl, after_ok hrun] at hr
      exact ⟨r, hr, hages.pending_le⟩
    · cases hrun
      exact ⟨_, hget, Nat.le_refl _⟩

end

theorem TemplateShape.fits_of_le {shape : TemplateShape} (h : shape.inputs ≤ shape.inputCounter) :
    shape.inputs < 2 ^ 32 :=
  Nat.lt_of_le_of_lt h (Nat.mod_lt _ (by decide))

/-- **A component that is fed by hand has inputs that can be counted**, if all its inputs are
    written. -/
theorem Procedure.byHand_countable {levels : Nat} {c : Computation} {id : Handle} {t : TemplateId}
    {start : Nat} {label : String} {parent : Option Handle} {shape : TemplateShape}
    {order : List Nat} {values : Nat → Scalar} (ht : c.circuit.templates.shape? t = some shape)
    (hlength : order.length = shape.inputs) :
    Procedure.Yields (enterWithin levels) (byHand id t start label parent order values) c
      fun _ _ => shape.inputs < 2 ^ 32 := by
  refine .bind (.request ((Action.create_counts ht).mono ?_))
  rintro _ c' ⟨r, hr, hle⟩
  refine (writes_count hr).mono fun _ _ hcount => TemplateShape.fits_of_le ?_
  omega

/-! ## Main inputs -/

/-- A main component that starts has inputs that can be counted. -/
theorem Action.runMain_countable {levels : Nat} {c : Computation}
    (hmain : c.circuit.templates.shape? c.circuit.mainTemplate = some c.circuit.mainShape) :
    (runMain (enterWithin levels)).Yields c fun _ _ => c.circuit.mainInputCount < 2 ^ 32 := by
  refine .runMain ((create_counts hmain).mono ?_)
  rintro _ c' ⟨r, hr, hle⟩
  refine (arriveAll_counts hr).mono fun _ _ hcount => TemplateShape.fits_of_le ?_
  rw [List.length_range'] at hcount
  exact Nat.le_trans hcount hle

/-- The main component is not there, or its inputs can be counted. -/
structure Computation.Counts (circuit : Circuit) (c : Computation) : Prop where
  same : c.circuit = circuit
  main : c.registry.get? .mainComponent = none ∨ circuit.mainInputCount < 2 ^ 32

namespace Computation.Counts

variable {circuit : Circuit} {c : Computation}

theorem runMain (levels : Nat)
    (hmain : circuit.templates.shape? circuit.mainTemplate = some circuit.mainShape)
    (h : c.Counts circuit) :
    (Action.runMain (enterWithin levels)).Yields c fun _ => Counts circuit := by
  obtain ⟨rfl, -⟩ := h
  intro _ c' hrun
  have hsame := (Request.perform_path levels .runMain c).circuit_eq.1
  rw [show Request.runMain.perform (enterWithin levels) = Action.runMain (enterWithin levels)
    from rfl, after_ok hrun] at hsame
  exact ⟨hsame, .inr (runMain_countable hmain _ c' hrun)⟩

theorem assignAll (levels : Nat)
    (hmain : circuit.templates.shape? circuit.mainTemplate = some circuit.mainShape)
    (h : c.Counts circuit) (inputs : InputValues) :
    (Action.assignAll (enterWithin levels) inputs).Yields c fun _ => Counts circuit :=
  .assignEntries (fun _ _ _ h => ⟨h.same, h.main⟩) (fun _ h => h.runMain levels hmain) h
    inputs.entries

end Computation.Counts

/-- Main inputs that are fed can be counted. -/
theorem Action.feed_countable {c : Computation} {inputs : InputValues}
    (hmain : c.circuit.templates.shape? c.circuit.mainTemplate = some c.circuit.mainShape)
    (hnone : c.registry.get? .mainComponent = none) :
    (feed inputs).Yields c fun _ _ => c.circuit.mainInputCount < 2 ^ 32 := by
  have hstart : c.Counts c.circuit := ⟨rfl, .inl hnone⟩
  cases hassign : Request.run (.assignAll inputs) c with
  | error f c' => exact .of_error (Circuit.feed_error hassign)
  | ok u c' =>
    obtain ⟨hsame, hthere⟩ := hstart.assignAll _ hmain inputs _ c' hassign
    by_cases hstage : (c'.registry.stage? .mainComponent).isSome
    · refine .of_ok ((Circuit.feed_ok hassign).trans (if_pos hstage))
        (hthere.resolve_left fun hnone => ?_)
      unfold Registry.stage? at hstage
      rw [hnone] at hstage
      cases hstage
    · by_cases hp : c'.pendingInputs ≠ 0
      · exact .of_error (((Circuit.feed_ok hassign).trans (if_neg hstage)).trans (if_pos hp))
      · rw [← hsame] at hmain ⊢
        exact .of_eq (((Circuit.feed_ok hassign).trans (if_neg hstage)).trans (if_neg hp))
          (runMain_countable hmain)

end CircuitWitness
