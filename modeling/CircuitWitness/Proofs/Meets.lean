import CircuitWitness.Proofs.Missing
import CircuitWitness.Proofs.Procedure
import CircuitWitness.Proofs.View
/-
  What bodies come to.

  `Meets` says what an action comes to from all computations with a given view: it returns, with
  an answer and a view for which `Q` holds, or it fails, with a fault and a view for which `E`
  holds.  There is a rule for sequences and one for each request, so that a body is followed request
  by request, on views alone.  A request that starts a body asks what that body comes to, and
  nothing else about it.

  A body with children goes through them one by one.  What it has to know in between is the same
  for all such bodies: where it has kept to, which children are done and which handles are still
  free (`View.Underway`).
-/

namespace CircuitWitness

open CircuitWitness.Action

/-- A handle that is counted from another one is not that one. -/
theorem Handle.ne_after (id : Handle) {offset : Nat} (h : offset ≠ 0) :
    id ≠ ⟨id.index + offset⟩ := by
  intro he
  have hindex := congrArg index he
  simp only at hindex
  omega

theorem Registry.label_eq {reg : Registry} {id : Handle} {r : Component}
    (h : reg.get? id = some r) : reg.label id = r.label := by
  unfold label
  rw [h]

/-! ## What an action comes to -/

/-- From every computation with the view, the action returns and `Q` holds, or it fails and `E`
    holds. -/
structure Action.Meets {α : Type} (act : Action α) (w : View) (Q : α → View → Prop)
    (E : Fault → View → Prop) : Prop where
  outcome : ∀ c : Computation, c.view = w → match act c with
    | .ok a c' => Q a c'.view
    | .error f c' => E f c'.view

/-- What a procedure comes to, given what it means to enter a body. -/
abbrev Procedure.Meets {α : Type} (enter : Enter) (p : Procedure α) (w : View)
    (Q : α → View → Prop) (E : Fault → View → Prop) : Prop :=
  (Procedure.runWith enter p).Meets w Q E

namespace Action.Meets

variable {α β : Type} {act : Action α} {w : View} {Q Q' : α → View → Prop}
  {E E' : Fault → View → Prop}

/-- What is known may be weakened, of returns and of failures. -/
theorem mono (h : act.Meets w Q E) (hQ : ∀ a w', Q a w' → Q' a w')
    (hE : ∀ f w', E f w' → E' f w') : act.Meets w Q' E' := by
  refine ⟨fun c hc => ?_⟩
  have hact := h.outcome c hc
  split at hact
  · exact hQ _ _ hact
  · exact hE _ _ hact

/-- The action returns the answer, and the computation has the view then. -/
theorem of_ok {a : α} {w' : View}
    (h : ∀ c : Computation, c.view = w → ∃ c', act c = .ok a c' ∧ c'.view = w') (hQ : Q a w') :
    act.Meets w Q E := by
  refine ⟨fun c hc => ?_⟩
  obtain ⟨c', hact, rfl⟩ := h c hc
  rw [hact]
  exact hQ

theorem pure {a : α} (hQ : Q a w) : Action.Meets (pure a) w Q E :=
  .of_ok (fun c hc => ⟨c, rfl, hc⟩) hQ

/-- The action does what another one does from a view that it leads to. -/
theorem of_step {act' : Action α} {w' : View}
    (h : ∀ c : Computation, c.view = w → ∃ c', act c = act' c' ∧ c'.view = w')
    (h' : act'.Meets w' Q E) : act.Meets w Q E := by
  refine ⟨fun c hc => ?_⟩
  obtain ⟨c', hact, hc'⟩ := h c hc
  rw [hact]
  exact h'.outcome c' hc'

/-- A look that finds the same in all states of one view changes nothing. -/
theorem look {f : Computation → Except Refusal α} {a : α}
    (h : ∀ c : Computation, c.view = w → f c = .ok a) (hQ : Q a w) : (look f).Meets w Q E :=
  .of_ok (fun c hc => ⟨c, look_ok (h c hc), hc⟩) hQ

theorem look_refused {f : Computation → Except Refusal α} {e : Refusal}
    (h : ∀ c : Computation, c.view = w → f c = .error e) (hE : E (.refused e) w) :
    (Action.look f).Meets w Q E := by
  refine ⟨?_⟩
  rintro c rfl
  rw [look_error (h c rfl)]
  exact hE

theorem inRange {f : Computation → Option α} {a : α}
    (h : ∀ c : Computation, c.view = w → f c = some a) (hQ : Q a w) : (inRange f).Meets w Q E :=
  .of_ok (fun c hc => ⟨c, inRange_some (h c hc), hc⟩) hQ

/-- What holds after the first part is what the second one begins with. -/
theorem bind {f : α → Action β} {Q : β → View → Prop}
    (h : act.Meets w (fun a w' => (f a).Meets w' Q E) E) : (act >>= f).Meets w Q E := by
  refine ⟨fun c hc => ?_⟩
  have hact := h.outcome c hc
  cases ha : act c with
  | ok a c' =>
    rw [ha] at hact
    rw [bind_ok ha]
    exact hact.outcome c' rfl
  | error e c' =>
    rw [ha] at hact
    rw [bind_error ha]
    exact hact

/-- What cannot fail returns. -/
theorem returns (h : act.Meets w Q fun _ _ => False) {c : Computation} (hc : c.view = w) :
    ∃ a c', act c = .ok a c' ∧ Q a c'.view := by
  have hend := h.outcome c hc
  cases hact : act c with
  | ok a c' =>
    rw [hact] at hend
    exact ⟨a, c', rfl, hend⟩
  | error f c' =>
    rw [hact] at hend
    exact hend.elim

/-- To start a component is to begin its body, follow it and end it. -/
theorem trigger {enter : Enter} {body : Body} {id : Handle} {r : Component} {Q : Unit → View → Prop}
    (hr : w.records id = some r) (hs : r.stage = .created) (hp : r.pending = 0)
    (hbody : w.circuit.templates.body? r.template w.config.useAlternate = some body)
    (h : (enter body id).Meets (w.put id { r with stage := .running }) (fun _ w' =>
      ∃ r', w'.records id = some r' ∧ Q () (w'.put id { r' with stage := .finished })) E) :
    (Action.trigger enter id).Meets w Q E := by
  refine ⟨?_⟩
  rintro c rfl
  have hstart := h.outcome (c.begun id) (Computation.view_begun hr)
  rw [trigger_eq (startable_eq hr hs hp hbody)]
  unfold runBody
  split at hstart
  · rename_i c' hc'
    obtain ⟨r', hr', hQ⟩ := hstart
    rw [hc']
    show Q () (c'.ended id c.active).view
    rw [Computation.view_ended hr']
    exact hQ
  · rename_i f c' hc'
    rw [hc']
    exact hstart

end Action.Meets

/-! ## One request at a time -/

namespace Procedure.Meets

variable {α β : Type} {enter : Enter} {w : View} {id parent : Handle} {r : Component}
  {shape : TemplateShape} {body : Body} {t : TemplateId} {i l slot start line : Nat} {v : Scalar}
  {name : String} {E : Fault → View → Prop}

theorem pure {a : α} {Q : α → View → Prop} (hQ : Q a w) : Meets enter (pure a) w Q E := by
  unfold Meets
  rw [runWith_pure]
  exact Action.Meets.pure hQ

theorem bind {p : Procedure α} {f : α → Procedure β} {Q : β → View → Prop}
    (h : Meets enter p w (fun a w' => Meets enter (f a) w' Q E) E) :
    Meets enter (p >>= f) w Q E := by
  unfold Meets
  rw [runWith_bind]
  exact Action.Meets.bind h

theorem request {q : Request} {Q : q.Answer → View → Prop} (h : (q.perform enter).Meets w Q E) :
    Meets enter (request q) w Q E := by
  unfold Meets
  rw [runWith_request]
  exact h

/-- A loop over the first numbers keeps an invariant, from round to round. -/
theorem forM_range {n : Nat} {f : Nat → Procedure Unit} {Q : Unit → View → Prop}
    (I : Nat → View → Prop) (hstart : I 0 w)
    (hround : ∀ j < n, ∀ w', I j w' → Meets enter (f j) w' (fun _ => I (j + 1)) E)
    (hQ : ∀ w', I n w' → Q () w') : Meets enter ((List.range n).forM f) w Q E :=
  forM_range_rule (T := fun p w Q => Meets enter p w (fun _ => Q) E) (fun _ _ hQ => .pure hQ)
    (fun _ _ _ _ _ h hf => .bind (h.mono (fun _ => hf) fun _ _ hE => hE)) I hstart hround hQ

/-! ### Requests that start no body -/

/-- A signal that was written is read. -/
theorem signal {Q : Scalar → View → Prop} (h : w.signals i = some v) (hQ : Q v w) :
    Meets enter (signal i) w Q E := by
  refine .request (.of_ok (a := v) ?_ hQ)
  rintro c rfl
  obtain ⟨hwritten, hread⟩ := SignalStore.get?_eq_some.mp h
  exact ⟨c.recorded (.signalRead i true), (signal_written hwritten).trans (inRange_some hread), rfl⟩

/-- To write a signal of the store is to write it in the view. -/
theorem setSignal {Q : Unit → View → Prop} (h : i < w.size) (hQ : Q () (w.write i v)) :
    Meets enter (setSignal i v) w Q E := by
  refine .request (.of_ok (a := ()) ?_ hQ)
  rintro c rfl
  obtain ⟨_, hw⟩ := SignalStore.isWritten?_of_lt h
  exact ⟨c.wrote i v, setSignal_ok hw, Computation.view_wrote h⟩

theorem constant {Q : Scalar → View → Prop} (h : w.circuit.constants.get? i = some v)
    (hQ : Q v w) : Meets enter (constant i) w Q E := by
  apply request
  show (Action.inRange fun c => c.circuit.constants.get? i).Meets w Q E
  refine .inRange ?_ hQ
  rintro c rfl
  exact h

theorem signalStart {Q : Nat → View → Prop} (h : w.records id = some r) (hQ : Q r.signalStart w) :
    Meets enter (signalStart id) w Q E := by
  apply request
  show (Action.look fun c => c.signalStart id).Meets w Q E
  refine .look ?_ hQ
  rintro c rfl
  unfold Computation.signalStart
  rw [component_eq h]
  rfl

theorem label {Q : String → View → Prop} (h : w.records id = some r) (hQ : Q r.label w) :
    Meets enter (label id) w Q E := by
  refine .request (.of_ok (a := r.label) ?_ hQ)
  rintro c rfl
  refine ⟨c, ?_, rfl⟩
  show EStateM.Result.ok (c.registry.label id) c = _
  rw [Registry.label_eq h]

theorem handleAfter {offset : Nat} {Q : Handle → View → Prop}
    (h : id.index + offset < Handle.limit) (hQ : Q ⟨id.index + offset⟩ w) :
    Meets enter (handleAfter id offset) w Q E := by
  apply request
  show (Action.look fun c => c.handleAfter id offset).Meets w Q E
  refine .look (fun c _ => ?_) hQ
  unfold Computation.handleAfter Handle.offset?
  rw [if_pos h]

theorem child {Q : Handle → View → Prop} (h : w.records parent = some r)
    (hslot : r.slots[slot]? = some (some id)) (hQ : Q id w) :
    Meets enter (child parent slot) w Q E := by
  apply request
  show (Action.look fun c => c.child parent slot).Meets w Q E
  refine .look ?_ hQ
  rintro c rfl
  unfold Computation.child
  rw [component_eq h]
  simp only [hslot]

/-- A true value passes its assertion. -/
theorem assert_true {Q : Unit → View → Prop} (hv : v.isTrue = true) (hQ : Q () w) :
    Meets enter (assert id v line) w Q E := by
  apply request
  show (Action.look fun c => c.assert id v line).Meets w Q E
  exact .look (fun c _ => if_pos hv) hQ

/-- Any other is refused in the name of the template. -/
theorem assert_false {Q : Unit → View → Prop} (hv : v.isTrue = false) (h : w.records id = some r)
    (hshape : w.circuit.templates.shape? r.template = some shape)
    (hE : E (.refused (.assertionFailed shape.name r.label line)) w) :
    Meets enter (assert id v line) w Q E := by
  apply request
  show (Action.look fun c => c.assert id v line).Meets w Q E
  refine .look_refused (e := .assertionFailed shape.name r.label line) ?_ hE
  rintro c rfl
  have htemplate : c.templateName id = shape.name := by
    unfold Computation.templateName
    rw [show c.registry.get? id = some r from h, Option.bind_some,
      show c.circuit.templates.shape? r.template = some shape from hshape]
  unfold Computation.assert
  rw [hv, htemplate, Registry.label_eq h]
  rfl

/-! ### Requests that may start a body -/

/-- A component is created, and runs if it has no inputs. -/
theorem create_step (enter : Enter) (start : Nat) (name : String) (owner : Option Handle)
    (hfree : w.records id = none) (hid : id.index < w.capacity)
    (hshape : w.circuit.templates.shape? t = some shape) {c : Computation} (hc : c.view = w) :
    ∃ c', Action.create enter id t start name owner c
        = (if shape.inputs = 0 then Action.trigger enter id else return ()) c' ∧
      c'.view = w.put id
        (Component.fresh t start shape.inputCounter shape.slots name owner) := by
  subst hc
  have hcreate := Registry.create_of_free
    (Component.fresh t start shape.inputCounter shape.slots name owner) hfree hid
  refine ⟨_, (Action.create_ok hshape hcreate).trans ?_, Computation.view_enrolled (t := t) hcreate⟩
  split <;> rfl

/-- A child is created in a slot of its parent, and runs if it has no inputs. -/
theorem createChild_step (h : w.records parent = some r) (hslot : slot < r.slots.size)
    (hfree : w.records id = none) (hid : id.index < w.capacity)
    (hshape : w.circuit.templates.shape? t = some shape) {c : Computation} (hc : c.view = w) :
    ∃ c', Action.createChild enter parent slot id t start name c
        = (if shape.inputs = 0 then Action.trigger enter id else return ()) c' ∧
      c'.view = (w.put parent { r with slots := r.slots.setIfInBounds slot (some id) }).put id
        (Component.fresh t start shape.inputCounter shape.slots name (some parent)) := by
  subst hc
  have hkept := Computation.view_kept h slot id
  have hne : parent ≠ id := fun he => by rw [he, hfree] at h; cases h
  obtain ⟨c', hcreate, hview⟩ := create_step enter start name (some parent)
    ((View.records_put_ne _ _ _ _ hne).trans hfree) ((View.capacity_put ..).symm ▸ hid)
    ((View.circuit_put ..).symm ▸ hshape) hkept
  exact ⟨c', (bind_ok (keepChild_ok h hslot)).trans hcreate, hview⟩

/-- A child with inputs is created, and waits for them. -/
theorem createChild {Q : Unit → View → Prop} (h : w.records parent = some r)
    (hslot : slot < r.slots.size) (hfree : w.records id = none) (hid : id.index < w.capacity)
    (hshape : w.circuit.templates.shape? t = some shape) (hn : shape.inputs ≠ 0)
    (hQ : Q () ((w.put parent { r with slots := r.slots.setIfInBounds slot (some id) }).put id
      (Component.fresh t start shape.inputCounter shape.slots name (some parent)))) :
    Meets enter (Procedure.createChild parent slot id t start name) w Q E := by
  refine .request (.of_step (fun c hc => createChild_step h hslot hfree hid hshape hc) ?_)
  rw [if_neg hn]
  exact .pure hQ

/-- A child that waits for its inputs, at a handle counted from its parent's, and named again. -/
theorem newChild {offset : Nat} {p : Handle → Procedure β} {Q : β → View → Prop}
    (h : w.records parent = some r) (hslot : slot < r.slots.size) (hpos : offset ≠ 0)
    (hlimit : parent.index + offset < Handle.limit) (hid : parent.index + offset < w.capacity)
    (hfree : w.records ⟨parent.index + offset⟩ = none)
    (hshape : w.circuit.templates.shape? t = some shape) (hn : shape.inputs ≠ 0)
    (hQ : ∀ w₁, (w.put parent
        { r with slots := r.slots.setIfInBounds slot (some ⟨parent.index + offset⟩) }).Within
          ⟨0, 0, parent.index + offset, 1⟩ w₁ →
      w₁.records ⟨parent.index + offset⟩
        = some (Component.fresh t start shape.inputCounter shape.slots name (some parent)) →
      Meets enter (p ⟨parent.index + offset⟩) w₁ Q E) :
    Meets enter (do
      let id ← Procedure.handleAfter parent offset
      Procedure.createChild parent slot id t start name
      let id ← Procedure.child parent slot
      p id) w Q E := by
  refine .bind (.handleAfter hlimit ?_)
  refine .bind (.createChild h hslot hfree hid hshape hn ?_)
  refine .bind (.child ((View.records_put_ne _ _ _ _ (parent.ne_after hpos).symm).trans
    (View.records_put_self ..)) ?_ (hQ _ ((View.Within.refl _ _).put _ ?_)
      (View.records_put_self ..)))
  · exact Array.getElem?_setIfInBounds_self_of_lt hslot
  · simp only
    omega

/-- A child without inputs is created, and runs at once. -/
theorem createChild_run {Q : Unit → View → Prop} (h : w.records parent = some r)
    (hslot : slot < r.slots.size) (hfree : w.records id = none) (hid : id.index < w.capacity)
    (hshape : w.circuit.templates.shape? t = some shape) (hn : shape.inputs = 0)
    (hbody : w.circuit.templates.body? t w.config.useAlternate = some body)
    (hrun : (enter body id).Meets
      ((w.put parent { r with slots := r.slots.setIfInBounds slot (some id) }).put id
        { Component.fresh t start shape.inputCounter shape.slots name (some parent) with
          stage := .running })
      (fun _ w' => ∃ r', w'.records id = some r' ∧
        Q () (w'.put id { r' with stage := .finished })) E) :
    Meets enter (Procedure.createChild parent slot id t start name) w Q E := by
  refine .request (.of_step (fun c hc => createChild_step h hslot hfree hid hshape hc) ?_)
  rw [if_pos hn]
  refine .trigger (View.records_put_self ..) rfl (TemplateShape.inputCounter_zero hn)
    (by simpa [Component.fresh] using hbody) ?_
  rw [View.put_put]
  exact hrun

/-- An input is written and counted, and the component runs if it was the last one. -/
theorem writeInput_step {n : Nat} (h : w.records id = some r) (hcreated : r.stage = .created)
    (hshape : w.circuit.templates.shape? r.template = some shape) (hl : shape.isInput l = true)
    (hi : r.signalStart + l < w.size) (hp : r.pending = n + 1) {c : Computation}
    (hc : c.view = w) :
    ∃ c', Action.writeInput enter id l v c
        = (if n = 0 then Action.trigger enter id else return ()) c' ∧
      c'.view = (w.write (r.signalStart + l) v).put id { r with pending := n } := by
  subst hc
  obtain ⟨_, hw⟩ := SignalStore.isWritten?_of_lt hi
  refine ⟨(c.wrote (r.signalStart + l) v).arrived id (r.signalStart + l) n,
    (writeInput_eq (inputSignal_eq h hshape hl hcreated) hw).trans ?_, ?_⟩
  · by_cases hn : n = 0
    · subst hn
      exact arrive_last (c := c.wrote _ v) h hp
    · rw [if_neg hn]
      exact arrive_waiting (c := c.wrote _ v) h hp hn
  · rw [Computation.view_arrived (c := c.wrote _ v) h, Computation.view_wrote hi]

/-- An input is written, and others are still to come. -/
theorem writeInput {Q : Unit → View → Prop} {n : Nat} (h : w.records id = some r)
    (hcreated : r.stage = .created) (hshape : w.circuit.templates.shape? r.template = some shape)
    (hl : shape.isInput l = true) (hi : r.signalStart + l < w.size) (hp : r.pending = n + 1)
    (hn : n ≠ 0) (hQ : Q () ((w.write (r.signalStart + l) v).put id { r with pending := n })) :
    Meets enter (Procedure.writeInput id l v) w Q E := by
  refine .request (.of_step (fun c hc => writeInput_step h hcreated hshape hl hi hp hc) ?_)
  rw [if_neg hn]
  exact .pure hQ

/-- The last input is written, and the component runs. -/
theorem writeInput_last {Q : Unit → View → Prop} (h : w.records id = some r)
    (hcreated : r.stage = .created) (hshape : w.circuit.templates.shape? r.template = some shape)
    (hl : shape.isInput l = true) (hi : r.signalStart + l < w.size) (hp : r.pending = 1)
    (hbody : w.circuit.templates.body? r.template w.config.useAlternate = some body)
    (hrun : (enter body id).Meets ((w.write (r.signalStart + l) v).put id
        { r with pending := 0, stage := .running })
      (fun _ w' => ∃ r', w'.records id = some r' ∧
        Q () (w'.put id { r' with stage := .finished })) E) :
    Meets enter (Procedure.writeInput id l v) w Q E := by
  refine .request (.of_step (fun c hc => writeInput_step h hcreated hshape hl hi hp hc) ?_)
  rw [if_pos rfl]
  refine .trigger (View.records_put_self ..) hcreated rfl (by simpa using hbody) ?_
  rw [View.put_put]
  exact hrun

end Procedure.Meets

/-! ## Release -/

namespace View

/-- A component may be released: it has finished, or was released before. -/
def Done (w : View) (id : Handle) : Prop :=
  ∃ r, w.records id = some r ∧ (r.stage = .finished ∨ r.stage = .released)

/-- Components of a region were released, and nothing else has happened. -/
structure Frees (R : Region) (w w' : View) : Prop extends Within R w w' where
  signals_eq : w'.signals = w.signals
  done : ∀ id, w.Done id → w'.Done id

variable {R : Region} {w w' w'' : View} {id : Handle} {r : Component}

/-- It depends on the record alone. -/
theorem Done.congr (h : w.Done id) (he : w'.records id = w.records id) : w'.Done id := by
  unfold Done
  rw [he]
  exact h

/-- A component whose body has ended is done. -/
theorem done_put (w : View) (id : Handle) (r : Component) :
    (w.put id { r with stage := .finished }).Done id :=
  ⟨_, records_put_self .., .inl rfl⟩

theorem Frees.refl (R : Region) (w : View) : Frees R w w := ⟨.refl R w, rfl, fun _ => id⟩

theorem Frees.trans (h : Frees R w w') (h' : Frees R w' w'') : Frees R w w'' :=
  ⟨h.toWithin.trans h'.toWithin, h'.signals_eq.trans h.signals_eq,
    fun id hid => h'.done id (h.done id hid)⟩

/-- A record that is put as released frees its handle. -/
theorem frees_put (hid : R.first ≤ id.index ∧ id.index < R.first + R.components)
    (hr : r.stage = .released) : Frees R w (w.put id r) := by
  refine ⟨(Within.refl R w).put r hid, signals_put .., fun other hother => ?_⟩
  by_cases he : id = other
  · exact ⟨r, he ▸ records_put_self .., .inr hr⟩
  · exact hother.congr (records_put_ne _ _ _ _ he)

end View

namespace Action.Meets

variable {R : Region} {w : View} {id : Handle} {E : Fault → View → Prop}

/-- A component that is done is released, also if it was before. -/
theorem release (hdone : w.Done id)
    (hid : R.first ≤ id.index ∧ id.index < R.first + R.components) :
    (release (some id)).Meets w (fun _ w' => w.Frees R w') E := by
  obtain ⟨r, hr, hs | hs⟩ := hdone
  · refine .of_ok (a := ()) ?_ (View.frees_put (r := { r with
      slots := if w.config.reclaim then #[] else r.slots, stage := .released }) hid rfl)
    rintro c rfl
    exact ⟨c.dropped id, release_ok hr hs, Computation.view_dropped hr⟩
  · refine .of_ok (a := ()) (fun c hc => ⟨c, ?_, hc⟩) (View.Frees.refl R w)
    subst hc
    exact release_again hr hs

theorem releaseAll {children : List (Option Handle)} (hdone : ∀ id, some id ∈ children →
      w.Done id ∧ R.first ≤ id.index ∧ id.index < R.first + R.components) :
    (releaseAll children).Meets w (fun _ w' => w.Frees R w') E := by
  induction children generalizing w with
  | nil => exact .pure (.refl R w)
  | cons child rest ih =>
    have hrest : ∀ w', w.Frees R w' →
        (Action.releaseAll rest).Meets w' (fun _ w'' => w.Frees R w'') E := by
      intro w' h
      refine (ih fun id hid => ?_).mono (fun _ w'' h' => h.trans h') fun _ _ h => h
      obtain ⟨hid, hin⟩ := hdone id (List.mem_cons_of_mem child hid)
      exact ⟨h.done id hid, hin⟩
    refine .bind ?_
    cases child with
    | none => exact .pure (hrest w (.refl R w))
    | some first =>
      obtain ⟨hfirst, hin⟩ := hdone first (List.mem_cons_self ..)
      exact (release hfirst hin).mono (fun _ w' h => hrest w' h) fun _ _ h => h

end Action.Meets

namespace Procedure.Meets

variable {enter : Enter} {w : View} {parent : Handle} {r : Component} {E : Fault → View → Prop}

/-- A new child with a single input runs as soon as it is fed.  If its body keeps to the child's
    own signals, then all of this keeps to the child's region, but for the slot of the parent. -/
theorem newChild_fed {β : Type} {shape : TemplateShape} {body : Body} {t : TemplateId}
    {l slot start offset : Nat} {v : Scalar} {name : String} {p : Procedure β}
    {Q : β → View → Prop} (h : w.records parent = some r) (hslot : slot < r.slots.size)
    (hpos : offset ≠ 0) (hlimit : parent.index + offset < Handle.limit)
    (hid : parent.index + offset < w.capacity)
    (hfree : w.records ⟨parent.index + offset⟩ = none)
    (hshape : w.circuit.templates.shape? t = some shape) (hn : shape.inputs = 1)
    (hl : shape.isInput l = true) (hin : l < shape.signals) (hi : start + shape.signals ≤ w.size)
    (hbody : w.circuit.templates.body? t w.config.useAlternate = some body)
    (hrun : ∀ w₁, w₁.circuit = w.circuit → w₁.size = w.size → w₁.signals (start + l) = some v →
      w₁.records ⟨parent.index + offset⟩ = some
        { Component.fresh t start 0 shape.slots name (some parent) with stage := .running } →
      (enter body ⟨parent.index + offset⟩).Meets w₁ (fun _ w₂ =>
        w₁.Within ⟨start, shape.signals, 0, 0⟩ w₂ ∧ ∀ w', (w.put parent
          { r with slots := r.slots.setIfInBounds slot (some ⟨parent.index + offset⟩) }).Within
            ⟨start, shape.signals, parent.index + offset, 1⟩ w' →
          w'.Done ⟨parent.index + offset⟩ → w'.signals = w₂.signals → Meets enter p w' Q E) E) :
    Meets enter (do
      let id ← Procedure.handleAfter parent offset
      Procedure.createChild parent slot id t start name
      let id ← Procedure.child parent slot
      Procedure.writeInput id l v
      p) w Q E := by
  have hcounter : shape.inputCounter = 1 := (TemplateShape.inputCounter_eq (by omega)).trans hn
  have hchild : parent.index + offset ≤ parent.index + offset ∧
      parent.index + offset < parent.index + offset + 1 := by omega
  refine .newChild h hslot hpos hlimit hid hfree hshape (by omega) fun w₁ hw₁ hr₁ => .bind ?_
  rw [hcounter] at hr₁
  have hcircuit : w₁.circuit = w.circuit := hw₁.circuit.trans (View.circuit_put ..)
  have hconfig : w₁.config = w.config := hw₁.config.trans (View.config_put ..)
  have hsize : w₁.size = w.size := hw₁.size.trans (View.size_put ..)
  refine .writeInput_last hr₁ rfl (hcircuit.symm ▸ hshape) hl
    (by rw [hsize]; show start + l < _; omega) rfl
    (by rw [hcircuit, hconfig]; exact hbody) ?_
  refine (hrun _ (by simp [hcircuit]) (by simp [hsize]) ?_ (View.records_put_self ..)).mono ?_
    fun _ _ hE => hE
  · rw [View.signals_put]
    exact View.signals_write_self ..
  · rintro _ w₂ ⟨hw₂, hrest⟩
    -- The body has left the record alone, and now it is put back.
    refine ⟨_, (hw₂.records _ (.inr (Nat.zero_le _))).trans (View.records_put_self ..),
      hrest _ (.put ?_ _ hchild) (View.done_put ..) (View.signals_put ..)⟩
    have hwritten := (hw₁.mono (S := ⟨start, shape.signals, parent.index + offset, 1⟩)
      ⟨fun _ _ => .inr (Nat.zero_le _), fun _ hi => hi⟩).write v
        (show start ≤ start + l ∧ start + l < start + shape.signals by omega)
    exact .trans (hwritten.put _ hchild)
      (hw₂.mono ⟨fun _ hi => hi, fun _ _ => .inr (Nat.zero_le _)⟩)

/-- A component that has kept to its region still does when its children, which are done and lie
    in that region, are released.  No signal changes, nor does its own record. -/
theorem releaseChildren {R : Region} {w₀ : View} {Q : Unit → View → Prop} (hw : w₀.Within R w)
    (hfirst : R.first = parent.index) (h : w.records parent = some r)
    (hdone : ∀ id, some id ∈ r.slots.toList →
      w.Done id ∧ parent.index < id.index ∧ id.index < parent.index + R.components)
    (hQ : ∀ w', w₀.Within R w' → w'.records parent = some r → w'.signals = w.signals → Q () w') :
    Meets enter (Procedure.releaseChildren parent) w Q E := by
  apply request
  show (Action.look (fun c => c.component parent) >>= fun p =>
    Action.releaseAll p.slots.toList).Meets w Q E
  refine .bind (.look (a := r) ?_ ?_)
  · rintro c rfl
    exact component_eq h
  have hbelow : ∀ id, some id ∈ r.slots.toList → w.Done id ∧ parent.index + 1 ≤ id.index ∧
      id.index < parent.index + 1 + (R.components - 1) := fun id hid =>
    ⟨(hdone id hid).1, by have := hdone id hid; omega⟩
  refine (Action.Meets.releaseAll (R := ⟨0, 0, parent.index + 1, R.components - 1⟩) hbelow).mono
    (fun _ w' h' => hQ w' (hw.trans (h'.toWithin.mono ⟨fun _ _ => .inr (Nat.zero_le _), ?_⟩))
      ((h'.records parent (.inl (Nat.lt_succ_self _))).trans h) h'.signals_eq) fun _ _ h => h
  intro i hi
  simp only
  omega

end Procedure.Meets

/-! ## A body and its children -/

namespace View

/-- A body is under way: it has kept to the region of its component, the children in the slots of
    the component are done, and the handles from `next` on are still free. -/
structure Underway (w₀ : View) (parent : Handle) (start signals components : Nat) (r : Component)
    (slots : Array (Option Handle)) (next : Nat) (w : View) : Prop where
  within : w₀.Within ⟨start, signals, parent.index, components⟩ w
  room : 0 < next ∧ next ≤ components
  record : w.records parent = some { r with slots := slots }
  done : ∀ id, some id ∈ slots.toList →
    w.Done id ∧ parent.index < id.index ∧ id.index < parent.index + next
  free : ∀ j, next ≤ j → j < components → w.records ⟨parent.index + j⟩ = none

namespace Underway

variable {w₀ w w' : View} {parent : Handle} {start signals components : Nat} {r : Component}
  {slots : Array (Option Handle)} {next i : Nat}

/-- A body begins without children. -/
theorem begin (hr : w.records parent = some r) (hslots : r.slots = slots)
    (hnone : ∀ id, some id ∉ slots.toList) (hpos : 0 < components)
    (hfree : ∀ j, 1 ≤ j → j < components → w.records ⟨parent.index + j⟩ = none) :
    Underway w parent start signals components r slots 1 w := by
  subst hslots
  exact ⟨.refl _ w, ⟨Nat.one_pos, hpos⟩, hr, fun id hid => absurd hid (hnone id), hfree⟩

/-- It goes on when a signal of its region is written. -/
theorem write (h : Underway w₀ parent start signals components r slots next w) (v : Scalar)
    (hi : start ≤ i ∧ i < start + signals) :
    Underway w₀ parent start signals components r slots next (w.write i v) := by
  have hrecords := records_write w i v
  refine { h with within := h.within.write v hi, record := ?_, done := ?_, free := ?_ }
  · rw [hrecords]
    exact h.record
  · exact fun id hid => ⟨(h.done id hid).1.congr (congrFun hrecords id), (h.done id hid).2⟩
  · rw [hrecords]
    exact h.free

/-- It goes on when a child was put into a slot, has kept to a region of its own, and is done. -/
theorem child {slot place count signals' : Nat}
    (h : Underway w₀ parent start signals components r slots next w)
    (hw : (w.put parent { r with
        slots := slots.setIfInBounds slot (some ⟨parent.index + next⟩) }).Within
      ⟨start + place, signals', parent.index + next, count⟩ w')
    (hsignals : place + signals' ≤ signals) (hpos : 0 < count)
    (hcount : next + count ≤ components) (hdone : w'.Done ⟨parent.index + next⟩) :
    Underway w₀ parent start signals components r
      (slots.setIfInBounds slot (some ⟨parent.index + next⟩)) (next + count) w' := by
  obtain ⟨hwithin, hroom, -, hbefore, hfree⟩ := h
  have hrecords : ∀ j, j ≠ 0 → j < next ∨ next + count ≤ j →
      w'.records ⟨parent.index + j⟩ = w.records ⟨parent.index + j⟩ := by
    intro j hj hout
    rw [hw.records _ (by simp only; omega), records_put_ne _ _ _ _ (parent.ne_after hj)]
  refine ⟨hwithin.trans (hw.of_put ⟨fun i => ?_, fun i => ?_⟩ ?_), by omega, ?_, ?_, ?_⟩
  · simp only
    omega
  · simp only
    omega
  · simp only
    omega
  · rw [hw.records _ (by simp only; omega), records_put_self]
  · intro id hid
    rw [Array.toList_setIfInBounds] at hid
    rcases List.mem_or_eq_of_mem_set hid with hold | hnew
    · -- An earlier child is counted from the parent too, and was left alone.
      obtain ⟨hd, hlow, hhigh⟩ := hbefore id hold
      have hid : id = ⟨parent.index + (id.index - parent.index)⟩ := by
        rw [Nat.add_sub_cancel' (Nat.le_of_lt hlow)]
      refine ⟨hd.congr ?_, hlow, by omega⟩
      rw [hid]
      exact hrecords _ (by omega) (by omega)
    · cases hnew
      exact ⟨hdone, by simp only; omega⟩
  · intro j hj hj'
    rw [hrecords j (by omega) (by omega)]
    exact hfree j (by omega) hj'

/-- At its end it releases the children. -/
theorem releaseChildren {enter : Enter} {Q : Unit → View → Prop} {E : Fault → View → Prop}
    (h : Underway w₀ parent start signals components r slots next w)
    (hQ : ∀ w', w₀.Within ⟨start, signals, parent.index, components⟩ w' →
      (∃ r', w'.records parent = some r') → w'.signals = w.signals → Q () w') :
    Procedure.Meets enter (Procedure.releaseChildren parent) w Q E := by
  have hroom := h.room
  refine .releaseChildren h.within rfl h.record (fun id hid => ?_)
    fun w' hw' hr' => hQ w' hw' ⟨_, hr'⟩
  obtain ⟨hdone, hlow, hhigh⟩ := h.done id hid
  exact ⟨hdone, hlow, by simp only; omega⟩

end Underway
end View
end CircuitWitness
