import CircuitWitness.Proofs.Missing
import CircuitWitness.Proofs.Tidy
import CircuitWitness.Proofs.View
/-
  Components that keep to their regions.

  A compiled body works at fixed distances from where its component stands: its signals follow the
  component's first one, and its children's handles follow the component's own.  So a template can
  be said to take up so many signals and so many handles, with all descendants (`Extents`), and a
  component of it has a region.  That it keeps to the region has to hold however its body ends, and
  not only if it returns, because whoever is told of a failure may go on with the computation.

  The argument goes body by body.  `Action.Confined` follows an action to both of its ends: if it
  returns, something holds, and if it fails, nothing outside the region has changed since some
  state.  `Computation.Placed` is what a body keeps from request to request: it has kept to its
  region, its children stand in regions inside of it, and every other component that is new has been
  released.  A body that keeps to its region if the bodies it enters do is enough: the induction on
  the levels of nesting is made once for all circuits (`Circuit.confined`).
-/

namespace CircuitWitness

open CircuitWitness.Action

variable {α β : Type} {enter : Enter} {R S : Region} {c₀ c c' c'' : Computation}
  {id parent : Handle} {r r' : Component} {extents : TemplateId → Option (Nat × Nat)}

/-! ## Keeping to a region -/

theorem Region.Inside.refl (R : Region) : R.Inside R := ⟨fun _ h => h, fun _ h => h⟩

/-- From one state to another, nothing has changed outside a region: no signal and no record there,
    nor the main inputs to come, nor which component runs. -/
structure Computation.Spares (R : Region) (c c' : Computation) : Prop where
  view : c.view.Within R c'.view
  pending : c'.pendingInputs = c.pendingInputs
  active : c'.active = c.active

namespace Computation.Spares

theorem refl (R : Region) (c : Computation) : c.Spares R c := ⟨.refl R _, rfl, rfl⟩

theorem trans (h : c.Spares R c') (h' : c'.Spares R c'') : c.Spares R c'' :=
  ⟨h.view.trans h'.view, h'.pending.trans h.pending, h'.active.trans h.active⟩

theorem mono (h : c.Spares S c') (hS : S.Inside R) : c.Spares R c' :=
  ⟨h.view.mono hS, h.pending, h.active⟩

/-- What changes nothing that bodies are shown. -/
theorem of_view (hview : c'.view = c.view) (hpending : c'.pendingInputs = c.pendingInputs)
    (hactive : c'.active = c.active) : c.Spares R c' :=
  ⟨hview ▸ .refl R _, hpending, hactive⟩

/-- A signal outside the region has the value that it had, or none as before. -/
theorem signal (h : c.Spares R c') {i : Nat} (hi : i < R.start ∨ R.start + R.signals ≤ i) :
    c'.store.read? i = c.store.read? i ∧ c'.store.isWritten? i = c.store.isWritten? i := by
  have hslot : c'.store.slots[i]? = c.store.slots[i]? :=
    SignalStore.slot_congr h.view.size (h.view.signals i hi)
  unfold SignalStore.read? SignalStore.isWritten?
  rw [hslot]
  exact ⟨rfl, rfl⟩

/-- A record of the region is put. -/
theorem put (hview : c'.view = c.view.put id r)
    (hid : R.first ≤ id.index ∧ id.index < R.first + R.components)
    (hpending : c'.pendingInputs = c.pendingInputs) (hactive : c'.active = c.active) :
    c.Spares R c' :=
  ⟨hview ▸ (View.Within.refl R _).put r hid, hpending, hactive⟩

/-- A signal of the region is written. -/
theorem wrote {i : Nat} {v : Scalar} (hi : R.start ≤ i ∧ i < R.start + R.signals)
    (hsize : i < c.store.size) : c.Spares R (c.wrote i v) :=
  ⟨Computation.view_wrote hsize ▸ (View.Within.refl R _).write v hi, rfl, rfl⟩

end Computation.Spares

/-- If the action returns, then so that `Q` holds; if it fails, then nothing has changed since `c₀`
    outside the region. -/
structure Action.Confined (act : Action α) (R : Region) (c₀ c : Computation)
    (Q : α → Computation → Prop) : Prop where
  returns : act.Yields c Q
  fails : ∀ f c', act c = .error f c' → c₀.Spares R c'

/-- The same of a procedure, given what it means to enter a body. -/
abbrev Procedure.Confined (enter : Enter) (p : Procedure α) (R : Region) (c₀ c : Computation)
    (Q : α → Computation → Prop) : Prop :=
  (Procedure.runWith enter p).Confined R c₀ c Q

namespace Action.Confined

variable {act : Action α} {Q Q' : α → Computation → Prop}

theorem mono (h : act.Confined R c₀ c Q) (hQ : ∀ a c', Q a c' → Q' a c') :
    act.Confined R c₀ c Q' := ⟨h.returns.mono hQ, h.fails⟩

theorem of_ok {a : α} (h : act c = .ok a c') (hQ : Q a c') : act.Confined R c₀ c Q :=
  ⟨.of_ok h hQ, fun f d hact => by cases h.symm.trans hact⟩

theorem of_error {f : Fault} (h : act c = .error f c') (hs : c₀.Spares R c') :
    act.Confined R c₀ c Q :=
  ⟨.of_error h, fun g d hact => by cases h.symm.trans hact; exact hs⟩

theorem of_eq {act' : Action α} (h : act c = act' c') (h' : act'.Confined R c₀ c' Q) :
    act.Confined R c₀ c Q :=
  ⟨.of_eq h h'.returns, fun f d hact => h'.fails f d (h.symm.trans hact)⟩

/-- What holds of the last state either way. -/
theorem of_after (hs : c₀.Spares R (act.after c)) (hQ : ∀ a, act c = .ok a (act.after c) →
    Q a (act.after c)) : act.Confined R c₀ c Q := by
  cases hact : act c with
  | ok a d =>
    rw [after_ok hact] at hQ
    exact of_ok hact (hQ a hact)
  | error f d =>
    rw [after_error hact] at hs
    exact of_error hact hs

/-- If nothing outside has changed where it returns, then nothing has in its last state. -/
theorem after (h : act.Confined R c₀ c Q) (hQ : ∀ a c', Q a c' → c₀.Spares R c') :
    c₀.Spares R (act.after c) := by
  cases hact : act c with
  | ok a d => exact (after_ok hact).symm ▸ hQ a d (h.returns a d hact)
  | error f d => exact (after_error hact).symm ▸ h.fails f d hact

/-- What keeps to a region inside another one keeps to that one, also from an earlier state on. -/
theorem widen (h : act.Confined S c c Q) (hS : S.Inside R) (hs : c₀.Spares R c) :
    act.Confined R c₀ c Q :=
  ⟨h.returns, fun f d hact => hs.trans ((h.fails f d hact).mono hS)⟩

theorem bind {k : α → Action β} {Q : β → Computation → Prop}
    (h : act.Confined R c₀ c fun a c' => (k a).Confined R c₀ c' Q) :
    (act >>= k).Confined R c₀ c Q := by
  cases hact : act c with
  | ok a d => exact of_eq (bind_ok hact) (h.returns a d hact)
  | error f d => exact of_error (bind_error hact) (h.fails f d hact)

end Action.Confined

namespace Procedure.Confined

theorem pure {a : α} {Q : α → Computation → Prop} (hQ : Q a c) :
    Confined enter (pure a) R c₀ c Q := Action.Confined.of_ok rfl hQ

theorem bind {p : Procedure α} {f : α → Procedure β} {Q : β → Computation → Prop}
    (h : Confined enter p R c₀ c fun a c' => Confined enter (f a) R c₀ c' Q) :
    Confined enter (p >>= f) R c₀ c Q := by
  unfold Confined
  rw [runWith_bind]
  exact Action.Confined.bind h

theorem request {q : Request} {Q : q.Answer → Computation → Prop}
    (h : (q.perform enter).Confined R c₀ c Q) : Confined enter (request q) R c₀ c Q := by
  unfold Confined
  rw [runWith_request]
  exact h

/-- A loop over the first numbers keeps an invariant, from round to round. -/
theorem forM_range {n : Nat} {f : Nat → Procedure Unit} {Q : Unit → Computation → Prop}
    (I : Nat → Computation → Prop) (hstart : I 0 c)
    (hround : ∀ j < n, ∀ c', I j c' → Confined enter (f j) R c₀ c' fun _ => I (j + 1))
    (hQ : ∀ c', I n c' → Q () c') : Confined enter ((List.range n).forM f) R c₀ c Q :=
  forM_range_rule (T := fun p c Q => Confined enter p R c₀ c fun _ => Q) (fun _ _ hQ => pure hQ)
    (fun _ _ _ _ _ h hf => bind (h.mono fun _ => hf)) I hstart hround hQ

end Procedure.Confined

/-! ## The regions of components -/

/-- The region of a component: what its template takes up, from where it stands. -/
def Component.region? (extents : TemplateId → Option (Nat × Nat)) (r : Component) (id : Handle) :
    Option Region :=
  (extents r.template).map fun extent => ⟨r.signalStart, extent.1, id.index, extent.2⟩

/-- The templates that take up something take up their inputs, and a handle. -/
structure TemplateTable.Fits (templates : TemplateTable)
    (extents : TemplateId → Option (Nat × Nat)) : Prop where
  inputs : ∀ t n m shape, extents t = some (n, m) → templates.shape? t = some shape →
    shape.inputEnd ≤ n
  handle : ∀ t n m, extents t = some (n, m) → 0 < m

/-- A component has a region, and no children as long as it has not begun. -/
def View.Hosts (extents : TemplateId → Option (Nat × Nat)) (w : View) (id : Handle)
    (S : Region) : Prop :=
  ∃ r, w.records id = some r ∧ r.region? extents id = some S ∧
    (r.stage = .created → VacantFrom 0 r.slots)

namespace Computation

/-- A body has ended its work for a component.  It has kept to the region, left all other components
    alone that were there, and released all that are new. -/
structure Cleared (c₀ : Computation) (R : Region) (parent : Handle) (r : Component)
    (c : Computation) : Prop where
  spares : c₀.Spares R c
  record : ∃ slots, c.registry.get? parent = some { r with slots := slots }
  others : ∀ id r', id ≠ parent → c₀.registry.get? id = some r' → c.registry.get? id = some r'
  fresh : ∀ id r', c₀.registry.get? id = none → c.registry.get? id = some r' → r'.stage = .released

/-- From one state to another, something was done for a component within its region. -/
structure Tends (extents : TemplateId → Option (Nat × Nat)) (id : Handle) (S : Region)
    (c c' : Computation) : Prop where
  spares : c.Spares S c'
  hosts : c'.view.Hosts extents id S
  others : ∀ other r', other ≠ id → c.registry.get? other = some r' →
    c'.registry.get? other = some r'
  fresh : ∀ other r', c.registry.get? other = none → c'.registry.get? other = some r' →
    r'.stage = .released

end Computation

/-- To enter a body of a template for a component is to keep to its region. -/
def Enter.Confines (extents : TemplateId → Option (Nat × Nat)) (circuit : Circuit)
    (enter : Enter) : Prop :=
  ∀ body (c : Computation) (id : Handle) r R, c.circuit = circuit → c.registry.get? id = some r →
    circuit.templates.body? r.template c.config.useAlternate = some body →
    r.region? extents id = some R → VacantFrom 0 r.slots →
    (enter body id).Confined R c c fun _ c' => c.Cleared R id r c'

/-! ## What is done for one component -/

theorem Component.region?_eq_some : r.region? extents id = some S ↔
    extents r.template = some (S.signals, S.components) ∧ S.start = r.signalStart ∧
      S.first = id.index := by
  unfold region?
  constructor
  · intro h
    obtain ⟨extent, hextent, rfl⟩ := Option.map_eq_some_iff.mp h
    exact ⟨hextent, rfl, rfl⟩
  · rintro ⟨hextent, hstart, hfirst⟩
    rw [hextent, ← hstart, ← hfirst]
    rfl

/-- A component's own handle lies in its region. -/
theorem TemplateTable.Fits.handle_mem {templates : TemplateTable} (h : templates.Fits extents)
    (hS : r.region? extents id = some S) :
    S.first ≤ id.index ∧ id.index < S.first + S.components := by
  obtain ⟨hextent, -, hfirst⟩ := Component.region?_eq_some.mp hS
  have hpos := h.handle _ _ _ hextent
  omega

/-- The record of a component may change, as long as it stays where it is. -/
theorem View.hosts_put {w : View} (hS : r.region? extents id = some S)
    (hvacant : r.stage = .created → VacantFrom 0 r.slots) : (w.put id r).Hosts extents id S :=
  ⟨r, View.records_put_self .., hS, hvacant⟩

namespace Computation

/-- A record that is put is no other one's. -/
theorem get?_of_view_put (hview : c'.view = c.view.put id r) {other : Handle} (hne : other ≠ id) :
    c'.registry.get? other = c.registry.get? other := by
  show c'.view.records other = c.view.records other
  rw [hview, View.records_put_ne _ _ _ _ hne.symm]

/-- A handle that is in use is not a free one. -/
theorem ne_of_free {other : Handle} (hr : c.registry.get? id = some r)
    (hnone : c.registry.get? other = none) : other ≠ id := by
  rintro rfl
  cases hnone.symm.trans hr

/-- Before something is done for a component, its record may change. -/
theorem Tends.after (hs : c.Spares S c')
    (hsame : ∀ other, other ≠ id → c'.registry.get? other = c.registry.get? other)
    (hr : c.registry.get? id = some r) (h : c'.Tends extents id S c'') :
    c.Tends extents id S c'' where
  spares := hs.trans h.spares
  hosts := h.hosts
  others other r' hne hr' := h.others other r' hne ((hsame other hne).trans hr')
  fresh other r' hnone hr' :=
    h.fresh other r' ((hsame other (ne_of_free hr hnone)).trans hnone) hr'

/-- The record of a component changes, and that is all. -/
theorem Tends.of_put (hr : c.registry.get? id = some r) (hview : c'.view = c.view.put id r')
    (hS : r'.region? extents id = some S)
    (hid : S.first ≤ id.index ∧ id.index < S.first + S.components)
    (hvacant : r'.stage = .created → VacantFrom 0 r'.slots)
    (hpending : c'.pendingInputs = c.pendingInputs) (hactive : c'.active = c.active) :
    c.Tends extents id S c' where
  spares := .put hview hid hpending hactive
  hosts := hview ▸ View.hosts_put hS hvacant
  others other r₁ hne hr₁ := (get?_of_view_put hview hne).trans hr₁
  fresh other r₁ hnone hr₁ := by
    rw [get?_of_view_put hview (ne_of_free hr hnone), hnone] at hr₁
    cases hr₁

/-- The body that was entered for a component has done its work, and the component finishes. -/
theorem Cleared.finish (hr : c.registry.get? id = some r) (hS : r.region? extents id = some S)
    (hid : S.first ≤ id.index ∧ id.index < S.first + S.components)
    (h : (c.begun id).Cleared S id { r with stage := .running } c') :
    c.Tends extents id S (c'.ended id c.active) := by
  obtain ⟨slots, hrecord⟩ := h.record
  have hbegun : (c.begun id).view = c.view.put id { r with stage := .running } := view_begun hr
  have hended : (c'.ended id c.active).view
      = c'.view.put id { r with slots := slots, stage := .finished } := view_ended hrecord _
  have hbefore : ∀ other, other ≠ id →
      (c.begun id).registry.get? other = c.registry.get? other :=
    fun _ hne => get?_of_view_put hbegun hne
  have hafter : ∀ other, other ≠ id →
      (c'.ended id c.active).registry.get? other = c'.registry.get? other :=
    fun _ hne => get?_of_view_put hended hne
  refine ⟨⟨?_, h.spares.pending, rfl⟩, ?_, fun other r' hne hr' => ?_,
    fun other r' hnone hr' => ?_⟩
  · rw [hended]
    exact ((hbegun ▸ (View.Within.refl S _).put _ hid).trans h.spares.view).put _ hid
  · rw [hended]
    exact View.hosts_put hS fun hs => by cases hs
  · rw [hafter other hne]
    exact h.others other r' hne ((hbefore other hne).trans hr')
  · have hne : other ≠ id := ne_of_free hr hnone
    rw [hafter other hne] at hr'
    exact h.fresh other r' ((hbefore other hne).trans hnone) hr'

section

variable (hfits : c.circuit.templates.Fits extents) (henter : enter.Confines extents c.circuit)

include hfits henter

/-- A component is run by a body that keeps to its region. -/
theorem trigger_confined (h : c.view.Hosts extents id S) :
    (trigger enter id).Confined S c c fun _ c' => c.Tends extents id S c' := by
  cases hb : c.startable id with
  | error e => exact .of_error (trigger_refused hb) (.refl S c)
  | ok body =>
    obtain ⟨r, hr, hS, hvacant⟩ := h
    have hr : c.registry.get? id = some r := hr
    obtain ⟨r₁, hr₁, hs, -, hbody⟩ := of_startable hb
    cases hr.symm.trans hr₁
    have hid := hfits.handle_mem hS
    have hget : (c.begun id).registry.get? id = some { r with stage := .running } :=
      (Registry.sets_modify hr _).self
    have hwork := henter body (c.begun id) id _ S rfl hget hbody hS (hvacant hs)
    cases he : enter body id (c.begun id) with
    | error f d =>
      have hspares := hwork.fails f d he
      have hstart : c.view.Within S (c.begun id).view :=
        view_begun hr ▸ (View.Within.refl S _).put _ hid
      exact .of_error ((trigger_eq hb).trans (runBody_error he))
        ⟨hstart.trans hspares.view, hspares.pending, rfl⟩
    | ok u d =>
      exact .of_ok ((trigger_eq hb).trans (runBody_ok he)) ((hwork.returns u d he).finish hr hS hid)

/-- An input is counted. -/
theorem arrive_confined (h : c.view.Hosts extents id S) (i : Nat) :
    (arrive enter id i).Confined S c c fun _ c' => c.Tends extents id S c' := by
  obtain ⟨r, hr, hS, hvacant⟩ := h
  have hr : c.registry.get? id = some r := hr
  cases hp : r.pending with
  | zero => exact .of_error (arrive_error (countInput_underflow hr hp)) (.refl S c)
  | succ n =>
    have hview : (c.arrived id i n).view = c.view.put id { r with pending := n } := view_arrived hr
    have hcounted : c.Tends extents id S (c.arrived id i n) :=
      .of_put hr hview hS (hfits.handle_mem hS) hvacant rfl rfl
    by_cases hn : n = 0
    · subst hn
      refine .of_eq (arrive_last hr hp) ?_
      have hrun := trigger_confined (c := c.arrived id i 0) hfits henter hcounted.hosts
      exact (hrun.mono fun _ c' ht => Tends.after hcounted.spares
        (fun _ hne => get?_of_view_put hview hne) hr ht).widen (.refl S) hcounted.spares
    · exact .of_ok (arrive_waiting hr hp hn) hcounted

/-- An input is written. -/
theorem writeInput_confined (h : c.view.Hosts extents id S) (l : Nat) (v : Scalar) :
    (writeInput enter id l v).Confined S c c fun _ c' => c.Tends extents id S c' := by
  cases hi : c.inputSignal id l with
  | error e => exact .of_error (bind_error (look_error hi)) (.refl S c)
  | ok i =>
    cases hw : c.store.isWritten? i with
    | none =>
      exact .of_error ((bind_ok (look_ok hi)).trans (bind_error (setSignal_none hw))) (.refl S c)
    | some w =>
      obtain ⟨r, hr, hS, hvacant⟩ := h
      obtain ⟨r₁, shape, hr₁, hshape, hl, -, rfl⟩ := of_inputSignal hi
      cases hr.symm.trans hr₁
      obtain ⟨hextent, hstart, -⟩ := Component.region?_eq_some.mp hS
      -- The inputs are among the signals that the component takes up.
      have hend := hfits.inputs _ _ _ _ hextent hshape
      have hlt : l < shape.inputEnd := (TemplateShape.isInput_iff.mp hl).2
      have hin : S.start ≤ r.signalStart + l ∧ r.signalStart + l < S.start + S.signals := by omega
      have hspares : c.Spares S (c.wrote (r.signalStart + l) v) :=
        .wrote hin (SignalStore.lt_of_isWritten? hw)
      refine .of_eq (writeInput_eq hi hw) ?_
      have hcount := arrive_confined (c := c.wrote (r.signalStart + l) v) hfits henter
        ⟨r, hr, hS, hvacant⟩ (r.signalStart + l)
      exact (hcount.mono fun _ c' ht => Tends.after hspares (fun _ _ => rfl) hr ht).widen
        (.refl S) hspares

end

end Computation

/-! ## What a body does -/

/-- One region is that of a descendant in another one. -/
structure Region.Below (S R : Region) : Prop where
  inside : S.Inside R
  after : R.first < S.first

theorem Region.Below.of_le {start signals first components : Nat}
    (h : R.start ≤ start ∧ start + signals ≤ R.start + R.signals ∧ R.first < first ∧
      first + components ≤ R.first + R.components) :
    Region.Below ⟨start, signals, first, components⟩ R := by
  obtain ⟨hstart, hsignals, hfirst, hcomponents⟩ := h
  exact ⟨⟨fun i hi => by simp only; omega, fun i hi => by simp only; omega⟩, hfirst⟩

/-- A body is at work for a component.  Since it began, in the state `c₀`, it has kept to the
    component's region and left alone all other components that were there.  The new ones are its
    children, which it keeps in slots and which have regions below its own, or they are released. -/
structure Computation.Placed (extents : TemplateId → Option (Nat × Nat)) (R : Region)
    (c₀ : Computation) (parent : Handle) (r : Component) (slots : Array (Option Handle))
    (c : Computation) : Prop where
  begun : c₀.registry.get? parent = some r
  region : r.region? extents parent = some R
  spares : c₀.Spares R c
  record : c.registry.get? parent = some { r with slots := slots }
  others : ∀ id r', id ≠ parent → c₀.registry.get? id = some r' → c.registry.get? id = some r'
  children : ∀ (slot : Nat) (id : Handle), slots[slot]? = some (some id) →
    c₀.registry.get? id = none ∧ ∃ S : Region, S.Below R ∧ c.view.Hosts extents id S
  fresh : ∀ id r', c₀.registry.get? id = none → c.registry.get? id = some r' →
    (∃ slot : Nat, slots[slot]? = some (some id)) ∨ r'.stage = .released

namespace Computation.Placed

variable {slots : Array (Option Handle)} {slot : Nat}

theorem begin (hr : c.registry.get? parent = some r) (hR : r.region? extents parent = some R)
    (hvacant : VacantFrom 0 r.slots) : c.Placed extents R parent r r.slots c where
  begun := hr
  region := hR
  spares := .refl R c
  record := hr
  others _ _ _ h := h
  children slot id h := absurd h (hvacant slot (Nat.zero_le slot) id)
  fresh id r' hnone h := by rw [hnone] at h; cases h

theorem circuit (h : c₀.Placed extents R parent r slots c) : c.circuit = c₀.circuit :=
  h.spares.view.circuit

/-- The component's template says how large its region is. -/
theorem extent (h : c₀.Placed extents R parent r slots c) {t : TemplateId} {n m : Nat}
    (ht : r.template = t) (hextent : extents t = some (n, m)) :
    R.signals = n ∧ R.components = m ∧ R.first = parent.index := by
  obtain ⟨hR, -, hfirst⟩ := Component.region?_eq_some.mp h.region
  rw [ht, hextent] at hR
  cases hR
  exact ⟨rfl, rfl, hfirst⟩

/-- Nothing happens that bodies are shown. -/
theorem frame (h : c₀.Placed extents R parent r slots c) (hview : c'.view = c.view)
    (hpending : c'.pendingInputs = c.pendingInputs) (hactive : c'.active = c.active) :
    c₀.Placed extents R parent r slots c' := by
  have hget : c'.registry.get? = c.registry.get? := congrArg View.records hview
  exact {
    begun := h.begun
    region := h.region
    spares := h.spares.trans (.of_view hview hpending hactive)
    record := by rw [hget]; exact h.record
    others := by rw [hget]; exact h.others
    children := by rw [hview]; exact h.children
    fresh := by rw [hget]; exact h.fresh }

/-- A signal of the region is written. -/
theorem wrote (h : c₀.Placed extents R parent r slots c) {i : Nat} {v : Scalar}
    (hi : R.start ≤ i ∧ i < R.start + R.signals) (hsize : i < c.store.size) :
    c₀.Placed extents R parent r slots (c.wrote i v) :=
  { h with spares := h.spares.trans (.wrote hi hsize) }

/-- A child is another component. -/
theorem slot_ne (h : c₀.Placed extents R parent r slots c)
    (hslot : slots[slot]? = some (some id)) : id ≠ parent :=
  ne_of_free h.begun (h.children slot id hslot).1

/-- Something is done for a child. -/
theorem tends (h : c₀.Placed extents R parent r slots c) (hslot : slots[slot]? = some (some id))
    (hbelow : S.Below R) (ht : c.Tends extents id S c') :
    c₀.Placed extents R parent r slots c' where
  begun := h.begun
  region := h.region
  spares := h.spares.trans (ht.spares.mono hbelow.inside)
  record := ht.others parent _ (h.slot_ne hslot).symm h.record
  others other r' hne hr' := by
    -- The child is new, so it is not this one.
    have hother : other ≠ id := (ne_of_free hr' (h.children slot id hslot).1).symm
    exact ht.others other r' hother (h.others other r' hne hr')
  children j other hj := by
    obtain ⟨hnew, S', hbelow', r', hr', hS', hvacant⟩ := h.children j other hj
    by_cases he : other = id
    · subst he
      exact ⟨hnew, S, hbelow, ht.hosts⟩
    · exact ⟨hnew, S', hbelow', r', ht.others other r' he hr', hS', hvacant⟩
  fresh other r' hnone hr' := by
    cases hget : c.registry.get? other with
    | none => exact .inr (ht.fresh other r' hget hr')
    | some r₁ =>
      by_cases he : other = id
      · exact .inl ⟨slot, he ▸ hslot⟩
      · obtain rfl : r₁ = r' := Option.some.inj ((ht.others other r₁ he hget).symm.trans hr')
        exact h.fresh other r₁ hnone hget

/-- A child is put into an empty slot. -/
theorem adopt (h : c₀.Placed extents R parent r slots c) (hs : c₀.Spares R c')
    (hslot : slot < slots.size) (hvacant : VacantFrom slot slots)
    (hfree : c.registry.get? id = none) {reg : Registry}
    (hkeep : c.registry.Sets reg parent { r with slots := slots.setIfInBounds slot (some id) })
    (hnew : reg.Sets c'.registry id r') (hbelow : S.Below R) (hS : r'.region? extents id = some S)
    (hempty : VacantFrom 0 r'.slots) :
    c₀.Placed extents R parent r (slots.setIfInBounds slot (some id)) c' := by
  have hne : id ≠ parent := ne_of_free h.record hfree
  have hsame : ∀ other, other ≠ parent → other ≠ id →
      c'.registry.get? other = c.registry.get? other := by
    intro other hparent hid
    rw [hnew other, if_neg hid.symm, hkeep other, if_neg hparent.symm]
  have hnone : c₀.registry.get? id = none := by
    cases hget : c₀.registry.get? id with
    | none => rfl
    | some r₀ => cases (h.others id r₀ hne hget).symm.trans hfree
  have hself : (slots.setIfInBounds slot (some id))[slot]? = some (some id) :=
    Array.getElem?_setIfInBounds_self_of_lt hslot
  refine ⟨h.begun, h.region, hs, ?_, fun other r₁ hother hr₁ => ?_, fun j other hj => ?_,
    fun other r₁ hnone₁ hr₁ => ?_⟩
  · rw [hnew parent, if_neg hne]
    exact hkeep.self
  · have hid : other ≠ id := (ne_of_free hr₁ hnone).symm
    rw [hsame other hother hid]
    exact h.others other r₁ hother hr₁
  · by_cases hj' : slot = j
    · subst hj'
      rw [hself] at hj
      cases hj
      exact ⟨hnone, S, hbelow, r', hnew.self, hS, fun _ => hempty⟩
    · rw [Array.getElem?_setIfInBounds_ne hj'] at hj
      obtain ⟨hold, S', hbelow', r₁, hr₁, hS', hvacant'⟩ := h.children j other hj
      have hr₁ : c.registry.get? other = some r₁ := hr₁
      have hid : other ≠ id := (ne_of_free hr₁ hfree).symm
      exact ⟨hold, S', hbelow', r₁, (hsame other (h.slot_ne hj) hid).trans hr₁, hS', hvacant'⟩
  · by_cases hid : other = id
    · exact .inl ⟨slot, hid ▸ hself⟩
    · rw [hsame other (ne_of_free h.begun hnone₁) hid] at hr₁
      refine (h.fresh other r₁ hnone₁ hr₁).imp_left ?_
      rintro ⟨j, hj⟩
      -- Whatever was in another slot is there still.
      have hj' : slot ≠ j := by
        rintro rfl
        exact hvacant slot (Nat.le_refl slot) other hj
      exact ⟨j, (Array.getElem?_setIfInBounds_ne hj').trans hj⟩

/-- The handle of a child is kept. -/
theorem keep (h : c₀.Placed extents R parent r slots c)
    (hfits : c₀.circuit.templates.Fits extents) (slot : Nat) (id : Handle) :
    c₀.Spares R (c.kept parent slot id) :=
  h.spares.trans (.put (view_kept h.record slot id) (hfits.handle_mem h.region) rfl rfl)

/-- The handle of a child is kept, and the child entered. -/
theorem enroll (h : c₀.Placed extents R parent r slots c)
    (hfits : c₀.circuit.templates.Fits extents) (hslot : slot < slots.size)
    (hvacant : VacantFrom slot slots) (hbelow : S.Below R)
    (hS : r'.region? extents id = some S) (hempty : VacantFrom 0 r'.slots) {reg : Registry}
    (hreg : (c.kept parent slot id).registry.create id r' = .ok reg) (t : TemplateId) :
    c₀.Placed extents R parent r (slots.setIfInBounds slot (some id))
      ((c.kept parent slot id).enrolled reg id t) := by
  have hkeep : c.registry.Sets (c.kept parent slot id).registry parent
      { r with slots := slots.setIfInBounds slot (some id) } :=
    Registry.sets_modify h.record _
  have hfree : c.registry.get? id = none := by
    have hnone := (Registry.create_ok hreg).1
    rw [hkeep id] at hnone
    split at hnone
    · cases hnone
    · exact hnone
  have hin : R.first ≤ id.index ∧ id.index < R.first + R.components := by
    have hid := hfits.handle_mem hS
    have hout := hbelow.inside.handles id.index
    omega
  exact h.adopt ((h.keep hfits slot id).trans (.put (view_enrolled hreg) hin rfl rfl)) hslot hvacant
    hfree hkeep (Registry.sets_create hreg) hbelow hS hempty

/-- What keeps to the region of a child keeps to that of its parent. -/
theorem serve (h : c₀.Placed extents R parent r slots c) {act : Action Unit}
    (hslot : slots[slot]? = some (some id))
    (hact : ∀ S, c.view.Hosts extents id S →
      act.Confined S c c fun _ c' => c.Tends extents id S c') :
    act.Confined R c₀ c fun _ c' => c₀.Placed extents R parent r slots c' := by
  obtain ⟨-, S, hbelow, hhosts⟩ := h.children slot id hslot
  exact ((hact S hhosts).mono fun _ _ ht => h.tends hslot hbelow ht).widen hbelow.inside h.spares

section

variable (h : c₀.Placed extents R parent r slots c) (hfits : c₀.circuit.templates.Fits extents)
  (henter : enter.Confines extents c₀.circuit)

include h hfits henter

/-- An input of a child is written. -/
theorem writeInput (hslot : slots[slot]? = some (some id)) (l : Nat) (v : Scalar) :
    (writeInput enter id l v).Confined R c₀ c fun _ c' =>
      c₀.Placed extents R parent r slots c' :=
  h.serve hslot fun _ hhosts =>
    writeInput_confined (h.circuit.symm ▸ hfits) (h.circuit.symm ▸ henter) hhosts l v

/-- A child is created in an empty slot, and runs if it has no inputs. -/
theorem createChild (hvacant : VacantFrom slot slots) (hbelow : S.Below R)
    (hfirst : S.first = id.index) {t : TemplateId}
    (hextent : extents t = some (S.signals, S.components)) (label : String) :
    (createChild enter parent slot id t S.start label).Confined R c₀ c fun _ c' =>
      c₀.Placed extents R parent r (slots.setIfInBounds slot (some id)) c' := by
  by_cases hslot : slot < slots.size
  · have hkept := h.keep hfits slot id
    refine .of_eq (bind_ok (keepChild_ok h.record hslot)) ?_
    cases ht : (c.kept parent slot id).circuit.templates.shape? t with
    | none => exact .of_error (create_unknown ht) hkept
    | some shape =>
      cases hr : (c.kept parent slot id).registry.create id
          (Component.fresh t S.start shape.inputCounter shape.slots label (some parent)) with
      | error d => exact .of_error (create_refused ht hr) hkept
      | ok reg =>
        have hS : (Component.fresh t S.start shape.inputCounter shape.slots label
            (some parent)).region? extents id = some S :=
          Component.region?_eq_some.mpr ⟨hextent, rfl, hfirst⟩
        have hnext := h.enroll hfits hslot hvacant hbelow hS
          (vacantFrom_replicate 0 shape.slots) hr t
        have hself : (slots.setIfInBounds slot (some id))[slot]? = some (some id) :=
          Array.getElem?_setIfInBounds_self_of_lt hslot
        by_cases hn : shape.inputs = 0
        · exact .of_eq ((create_ok ht hr).trans (if_pos hn)) (hnext.serve hself fun _ hhosts =>
            trigger_confined (hnext.circuit.symm ▸ hfits) (hnext.circuit.symm ▸ henter) hhosts)
        · exact .of_ok ((create_ok ht hr).trans (if_neg hn)) hnext
  · exact .of_error (bind_error (keepChild_outside h.record (Nat.not_lt.mp hslot))) h.spares

end

theorem release (h : c₀.Placed extents R parent r slots c)
    (hfits : c₀.circuit.templates.Fits extents) (hslot : slots[slot]? = some (some id)) :
    (release (some id)).Confined R c₀ c fun _ c' => c₀.Placed extents R parent r slots c' := by
  obtain ⟨-, S, hbelow, r₁, hr₁, hS, -⟩ := h.children slot id hslot
  have hr₁ : c.registry.get? id = some r₁ := hr₁
  rcases release_cases (some id) c with ⟨e, hend⟩ | ⟨hend, -⟩ | ⟨_, r₂, hid, hr₂, hs, hend⟩
  · exact .of_error hend h.spares
  · exact .of_ok hend h
  · cases hid
    cases hr₁.symm.trans hr₂
    have hdropped : c.Tends extents id S (c.dropped id) :=
      .of_put hr₁ (view_dropped hr₁) hS (hfits.handle_mem hS) (fun hs => by cases hs) rfl rfl
    exact .of_ok hend (h.tends hslot hbelow hdropped)

theorem releaseAll (h : c₀.Placed extents R parent r slots c)
    (hfits : c₀.circuit.templates.Fits extents) {children : List (Option Handle)}
    (hslots : ∀ id, some id ∈ children → ∃ slot : Nat, slots[slot]? = some (some id)) :
    (releaseAll children).Confined R c₀ c fun _ c' => c₀.Placed extents R parent r slots c' := by
  induction children generalizing c with
  | nil => exact .of_ok rfl h
  | cons child rest ih =>
    have hrest := fun id hid => hslots id (List.mem_cons_of_mem child hid)
    refine .bind ?_
    cases child with
    | none => exact .of_ok rfl (ih h hrest)
    | some first =>
      obtain ⟨slot, hslot⟩ := hslots first (List.mem_cons_self ..)
      exact (h.release hfits hslot).mono fun _ c₁ hplaced => ih hplaced hrest

/-- When the children are released, the work is done. -/
theorem cleared (h : c₀.Placed extents R parent r slots c)
    (hreleased : ∀ (slot : Nat) (id : Handle), slots[slot]? = some (some id) →
      c.registry.stage? id = some .released) : c₀.Cleared R parent r c where
  spares := h.spares
  record := ⟨slots, h.record⟩
  others := h.others
  fresh id r' hnone hr' := by
    rcases h.fresh id r' hnone hr' with ⟨slot, hslot⟩ | hback
    · obtain ⟨r₂, hr₂, hstage⟩ := Registry.stage?_eq_some.mp (hreleased slot id hslot)
      cases hr'.symm.trans hr₂
      exact hstage
    · exact hback

theorem releaseChildren (h : c₀.Placed extents R parent r slots c)
    (hfits : c₀.circuit.templates.Fits extents) :
    (releaseChildren parent).Confined R c₀ c fun _ c' => c₀.Cleared R parent r c' := by
  have hslots : ∀ id, some id ∈ slots.toList ↔ ∃ slot : Nat, slots[slot]? = some (some id) :=
    fun id => by simp only [List.mem_iff_getElem?, Array.getElem?_toList]
  have hall : (Action.releaseAll slots.toList).Confined R c₀ c fun _ c' =>
      c₀.Placed extents R parent r slots c' :=
    h.releaseAll hfits fun id hid => (hslots id).mp hid
  refine .of_eq (releaseChildren_eq h.record) ⟨fun u c' hend => ?_, hall.fails⟩
  exact (hall.returns u c' hend).cleared fun slot id hslot =>
    releaseAll_returns hend ((hslots id).mpr ⟨slot, hslot⟩)

end Computation.Placed

/-! ## Procedures -/

/-- A request that only asks what there is. -/
def Request.Idle : Request → Prop
  | .signal _ | .constant _ | .signalStart _ | .handleAfter _ _ | .child _ _ | .label _
  | .assert _ _ _ => True
  | _ => False

/-- It changes nothing that bodies are shown, whether it is answered or refused. -/
theorem Request.Idle.after {q : Request} (hq : q.Idle) (enter : Enter) (c : Computation) :
    ((q.perform enter).after c).view = c.view ∧
    ((q.perform enter).after c).pendingInputs = c.pendingInputs ∧
    ((q.perform enter).after c).active = c.active := by
  have hsame : ∀ {c' : Computation}, c' = c →
      c'.view = c.view ∧ c'.pendingInputs = c.pendingInputs ∧ c'.active = c.active := by
    rintro _ rfl
    exact ⟨rfl, rfl, rfl⟩
  cases q with
  | signal i =>
    cases hw : c.store.isWritten? i with
    | none => exact hsame (after_error (signal_outside hw))
    | some w =>
      have hafter : ((Request.signal i).perform enter).after c = c.recorded (.signalRead i w) :=
        after_signal hw
      rw [hafter]
      exact ⟨rfl, rfl, rfl⟩
  | constant i => exact hsame (after_inRange _)
  | signalStart id | handleAfter id offset | child id slot | assert id v line =>
    exact hsame (after_look _)
  | label id => exact ⟨rfl, rfl, rfl⟩
  | _ => exact hq.elim

namespace Computation.Placed

variable {slots : Array (Option Handle)} {slot i offset : Nat} {v : Scalar}
  {Q : β → Computation → Prop} (h : c₀.Placed extents R parent r slots c)

include h

/-- A request that only asks. -/
theorem idle {q : Request} (hq : q.Idle) :
    Procedure.Confined enter (Procedure.request q) R c₀ c fun _ c' =>
      c₀.Placed extents R parent r slots c' := by
  obtain ⟨hview, hpending, hactive⟩ := hq.after enter c
  have hnext := h.frame hview hpending hactive
  exact .request (.of_after hnext.spares fun _ _ => hnext)

/-- A request that only asks, and what follows it. -/
theorem ask {q : Request} {f : q.Answer → Procedure β} (hq : q.Idle)
    (hf : ∀ a c', c₀.Placed extents R parent r slots c' →
      Procedure.Confined enter (f a) R c₀ c' Q) :
    Procedure.Confined enter (Procedure.request q >>= f) R c₀ c Q :=
  .bind ((h.idle hq).mono hf)

/-- The component is told where it stands. -/
theorem stands {f : Nat → Procedure β}
    (hf : Procedure.Confined enter (f R.start) R c₀ c Q) :
    Procedure.Confined enter (Procedure.signalStart parent >>= f) R c₀ c Q := by
  obtain ⟨-, hstart, -⟩ := Component.region?_eq_some.mp h.region
  have hanswer : c.signalStart parent = .ok R.start := by
    unfold Computation.signalStart
    rw [component_eq h.record, hstart]
    rfl
  refine .bind (.request ?_)
  show (look fun c => c.signalStart parent).Confined R c₀ c _
  exact .of_ok (look_ok hanswer) hf

/-- A handle is counted from the component's own, if it is one. -/
theorem counts {f : Handle → Procedure β}
    (hf : Procedure.Confined enter (f ⟨parent.index + offset⟩) R c₀ c Q) :
    Procedure.Confined enter (Procedure.handleAfter parent offset >>= f) R c₀ c Q := by
  refine .bind (.request ?_)
  show (look fun c => c.handleAfter parent offset).Confined R c₀ c _
  by_cases hlimit : parent.index + offset < Handle.limit
  · have hanswer : c.handleAfter parent offset = .ok ⟨parent.index + offset⟩ := by
      unfold Computation.handleAfter Handle.offset?
      rw [if_pos hlimit]
    exact .of_ok (look_ok hanswer) hf
  · have hanswer : c.handleAfter parent offset
        = .error (c.defect parent (.componentOutOfRange c.registry.capacity)) := by
      unfold Computation.handleAfter Handle.offset?
      rw [if_neg hlimit]
    exact .of_error (look_error hanswer) h.spares

/-- A signal of the region is written. -/
theorem sets (hi : R.start ≤ i ∧ i < R.start + R.signals) :
    Procedure.Confined enter (Procedure.setSignal i v) R c₀ c fun _ c' =>
      c₀.Placed extents R parent r slots c' := by
  refine .request ?_
  cases hw : c.store.isWritten? i with
  | none => exact .of_error (setSignal_none hw) h.spares
  | some w => exact .of_ok (setSignal_ok hw) (h.wrote hi (SignalStore.lt_of_isWritten? hw))

/-- The answer is a child. -/
theorem names {f : Handle → Procedure β} (hf : ∀ id, slots[slot]? = some (some id) →
      Procedure.Confined enter (f id) R c₀ c Q) :
    Procedure.Confined enter (Procedure.child parent slot >>= f) R c₀ c Q := by
  refine .bind (.request ?_)
  show (look fun c => c.child parent slot).Confined R c₀ c _
  cases hid : c.child parent slot with
  | error e => exact .of_error (look_error hid) h.spares
  | ok id =>
    refine .of_ok (look_ok hid) (hf id ?_)
    unfold Computation.child at hid
    rw [component_eq h.record] at hid
    dsimp only at hid
    split at hid
    · rename_i child hchild
      cases hid
      exact hchild
    · cases hid
    · cases hid

section

variable (hfits : c₀.circuit.templates.Fits extents) (henter : enter.Confines extents c₀.circuit)

include hfits henter

theorem writes {l : Nat} (hslot : slots[slot]? = some (some id)) :
    Procedure.Confined enter (Procedure.writeInput id l v) R c₀ c fun _ c' =>
      c₀.Placed extents R parent r slots c' :=
  .request (h.writeInput hfits henter hslot l v)

/-- A child is created, which takes up a region below the component's. -/
theorem creates {t : TemplateId} {label : String} (S : Region) (hvacant : VacantFrom slot slots)
    (hbelow : S.Below R) (hfirst : S.first = id.index)
    (hextent : extents t = some (S.signals, S.components)) :
    Procedure.Confined enter (Procedure.createChild parent slot id t S.start label) R c₀ c
      fun _ c' => c₀.Placed extents R parent r (slots.setIfInBounds slot (some id)) c' :=
  .request (h.createChild hfits henter hvacant hbelow hfirst hextent label)

/-- A new child is put into an empty slot, its handle counted from the component's own, and named
    again. -/
theorem newChild {t : TemplateId} {start signals components : Nat} {label : String}
    {p : Handle → Procedure β} (hvacant : VacantFrom slot slots)
    (hbelow : Region.Below ⟨start, signals, parent.index + offset, components⟩ R)
    (hextent : extents t = some (signals, components))
    (hp : ∀ slots child c, c₀.Placed extents R parent r slots c → VacantFrom (slot + 1) slots →
      slots[slot]? = some (some child) → Procedure.Confined enter (p child) R c₀ c Q) :
    Procedure.Confined enter (do
      let id ← Procedure.handleAfter parent offset
      Procedure.createChild parent slot id t start label
      let id ← Procedure.child parent slot
      p id) R c₀ c Q := by
  refine h.counts (.bind ?_)
  refine (h.creates hfits henter _ hvacant hbelow rfl hextent).mono fun _ c h => ?_
  exact h.names fun child hslot => hp _ child c h (hvacant.set _) hslot

end

/-- Without children the work is done. -/
theorem cleared_of_vacant (hvacant : VacantFrom 0 slots) : c₀.Cleared R parent r c :=
  h.cleared fun slot id hslot => absurd hslot (hvacant slot (Nat.zero_le slot) id)

theorem releases (hfits : c₀.circuit.templates.Fits extents) :
    Procedure.Confined enter (Procedure.releaseChildren parent) R c₀ c fun _ c' =>
      c₀.Cleared R parent r c' :=
  .request (h.releaseChildren hfits)

end Computation.Placed

/-! ## Circuits -/

/-- A body that keeps to the region of a component, if the bodies that it enters keep to theirs. -/
def Body.Keeps (extents : TemplateId → Option (Nat × Nat)) (circuit : Circuit) (t : TemplateId)
    (body : Body) : Prop :=
  ∀ (enter : Enter) (c : Computation) (id : Handle) r R, c.circuit = circuit →
    enter.Confines extents circuit → r.template = t → VacantFrom 0 r.slots →
    c.Placed extents R id r r.slots c →
    Procedure.Confined enter (body id) R c c fun _ c' => c.Cleared R id r c'

/-- **In a circuit whose bodies keep to their regions, every body does when it is entered.** -/
theorem Circuit.confined {circuit : Circuit}
    (h : ∀ t prefer body, circuit.templates.body? t prefer = some body →
      (extents t).isSome → body.Keeps extents circuit t)
    (levels : Nat) : (enterWithin levels).Confines extents circuit := by
  induction levels with
  | zero => exact fun body c id r R _ _ _ _ _ => .of_error rfl (.refl R c)
  | succ levels ih =>
    intro body c id r R hcirc hr hbody hR hvacant
    have hsome : (extents r.template).isSome := by
      rw [(Component.region?_eq_some.mp hR).1]
      rfl
    exact h _ _ body hbody hsome _ c id r R hcirc ih rfl hvacant (.begin hr hR hvacant)

end CircuitWitness
