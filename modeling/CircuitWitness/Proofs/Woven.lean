import CircuitWitness.Proofs.Schematic
/-
  What the operations of the engine are put together from.

  An operation looks at the state, makes a few plain changes, and starts components; there is
  nothing else to it.  `Plain` lists the looks and the changes, and `Woven` is what can be made of
  them, of reads of signals and of starts.

  The looks are of a particular kind: none of them depends on the configuration, the trace, the
  notes, the slots of components or the bodies of templates.  `Computation.bare` is the state
  without these, and a plain look finds on the bare state what it finds on the full one.  Reads are
  kept apart because they do depend on the configuration, and they are the only ones.

  All requests are woven but four (`Request.woven`): those for the trace, for a child, for a new
  child and for the release of children begin with a look that is not plain.  With these four, all
  requests are schematic (`Request.schematic`).
-/

namespace CircuitWitness

open CircuitWitness.Action

variable {α β : Type}

/-! ## The bare state -/

namespace Registry

/-- Change all records in the same way. -/
def map (f : Component → Component) (reg : Registry) : Registry :=
  ⟨reg.records.map (Option.map f)⟩

variable {f : Component → Component} {reg : Registry}

/-- A record is looked up and changed in either order. -/
@[simp] theorem get?_map (id : Handle) : (reg.map f).get? id = (reg.get? id).map f := by
  unfold map get?
  rw [Array.getElem?_map]
  cases reg.records[id.index]? with
  | none => rfl
  | some slot => rfl

/-- As many components fit as before. -/
@[simp] theorem capacity_map : (reg.map f).capacity = reg.capacity := Array.size_map

/-- A change that leaves the stages alone is not seen by a look at one. -/
theorem stage?_map (hf : ∀ r, (f r).stage = r.stage) (id : Handle) :
    (reg.map f).stage? id = reg.stage? id := by
  unfold stage?
  rw [get?_map, Option.map_map]
  exact congrArg (fun g => (reg.get? id).map g) (funext hf)

/-- Nor is a change that leaves the labels alone seen by a look at a label. -/
theorem label_map (hf : ∀ r, (f r).label = r.label) (id : Handle) :
    (reg.map f).label id = reg.label id := by
  unfold label
  rw [get?_map]
  cases reg.get? id with
  | none => rfl
  | some r => exact hf r

/-- Two changes of all records are one. -/
theorem map_map (g : Component → Component) : (reg.map f).map g = reg.map (g ∘ f) := by
  unfold map
  rw [Array.map_map, Option.map_comp_map]

end Registry

/-- A record without its slots. -/
def Component.bare (r : Component) : Component := { r with slots := #[] }

/-- A table of templates that have nothing to run. -/
def TemplateTable.bare (t : TemplateTable) : TemplateTable :=
  ⟨t.entries.map (Option.map fun e => { e with body := fun _ => pure (), alternate := none })⟩

/-- A table without bodies has all its shapes. -/
@[simp] theorem TemplateTable.shape?_bare (t : TemplateTable) (id : TemplateId) :
    t.bare.shape? id = t.shape? id := by
  unfold bare shape? get?
  rw [Array.getElem?_map]
  rcases t.entries[id.index]? with _ | _ | e <;> rfl

/-- A state without configuration, trace, notes, slots and bodies. -/
def Computation.bare (c : Computation) : Computation :=
  { c with
    circuit := { c.circuit with templates := c.circuit.templates.bare }
    config := {}
    registry := c.registry.map Component.bare
    trace := .empty false
    notes := #[] }

namespace Computation

variable {c : Computation}

/-- Taking away twice takes away no more than once. -/
theorem bare_bare : c.bare.bare = c.bare := by
  have htemplates : c.circuit.templates.bare.bare = c.circuit.templates.bare := by
    unfold TemplateTable.bare
    rw [Array.map_map, Option.map_comp_map]
    rfl
  have hregistry : (c.registry.map Component.bare).map Component.bare
      = c.registry.map Component.bare := by
    rw [Registry.map_map]
    rfl
  unfold bare
  simp only [htemplates, hregistry]

theorem label_bare (id : Handle) : c.bare.registry.label id = c.registry.label id :=
  Registry.label_map (f := Component.bare) (fun _ => rfl) id

/-- A defect is reported with the label of its component, which the bare state has. -/
theorem defect_bare (id : Handle) (d : GraphDefect) : c.bare.defect id d = c.defect id d := by
  unfold defect
  rw [label_bare]

/-- A component is found on the bare state without its slots. -/
theorem component_bare (id : Handle) : c.bare.component id = (c.component id).map .bare := by
  cases hr : c.registry.get? id with
  | none =>
    have hbare : c.bare.registry.get? id = none := by simp [bare, hr]
    rw [component_none hr, component_none hbare, defect_bare]
    rfl
  | some r =>
    have hbare : c.bare.registry.get? id = some r.bare := by simp [bare, hr]
    rw [component_eq hr, component_eq hbare]
    rfl

/-- The looks that follow find the same on both states, because they go no further into a record
    than its block, its label, its template and its stage. -/
theorem signalStart_bare (id : Handle) : c.bare.signalStart id = c.signalStart id := by
  unfold signalStart
  rw [component_bare]
  cases c.component id <;> rfl

theorem templateName_bare (id : Handle) : c.bare.templateName id = c.templateName id := by
  have hget : c.bare.registry.get? id = (c.registry.get? id).map .bare := Registry.get?_map id
  have hshape : ((c.bare.registry.get? id).bind fun r => c.bare.circuit.templates.shape? r.template)
      = (c.registry.get? id).bind fun r => c.circuit.templates.shape? r.template := by
    rw [hget]
    cases c.registry.get? id with
    | none => rfl
    | some r => exact TemplateTable.shape?_bare _ r.template
  unfold templateName
  rw [hshape]

theorem handleAfter_bare (parent : Handle) (offset : Nat) :
    c.bare.handleAfter parent offset = c.handleAfter parent offset := by
  have hcapacity : c.bare.registry.capacity = c.registry.capacity := Registry.capacity_map
  unfold handleAfter
  rw [hcapacity, defect_bare]

theorem assert_bare (id : Handle) (value : Scalar) (line : Nat) :
    c.bare.assert id value line = c.assert id value line := by
  unfold assert
  rw [templateName_bare, label_bare]

theorem inputSignal_bare (id : Handle) (l : Nat) :
    c.bare.inputSignal id l = c.inputSignal id l := by
  unfold inputSignal
  rw [component_bare]
  cases c.component id with
  | error e => rfl
  | ok r =>
    have hshape : c.bare.circuit.templates.shape? r.bare.template
        = c.circuit.templates.shape? r.template := TemplateTable.shape?_bare _ r.template
    simp only [Except.map, hshape, defect_bare]
    rfl

end Computation

/-! ## Plain steps -/

/-- An event that tells neither of a read nor of the start or end of a body. -/
structure Event.Calm (e : Event) : Prop where
  read : ∀ i w, e ≠ .signalRead i w
  nest : ∀ outer, e.nest outer = some outer

/-- The looks and the changes that operations are put together from. -/
inductive Plain : {α : Type} → Action α → Prop
  | look {α : Type} {f : Computation → Except Refusal α} (hf : ∀ c : Computation, f c.bare = f c) :
      Plain (look f)
  | inRange {α : Type} {f : Computation → Option α} (hf : ∀ c : Computation, f c.bare = f c) :
      Plain (inRange f)
  | reads {α : Type} {f : Computation → α} (hf : ∀ c : Computation, f c.bare = f c) :
      Plain (do return f (← get) : Action α)
  /-- Append an event. -/
  | record {e : Event} (he : e.Calm) : Plain (record e)
  /-- Write a signal. -/
  | store (i : Nat) (v : Scalar) :
      Plain (modify fun c => { c with store := c.store.write i v } : Action Unit)
  /-- Leave so many inputs of a component to come. -/
  | count (id : Handle) (n : Nat) : Plain (modifyComponent id fun r => { r with pending := n })
  /-- Enter a new component into the registry. -/
  | enroll (id : Handle) (t : TemplateId) (start inputs slots : Nat) (label : String)
      (parent : Option Handle) :
      Plain (enroll id (.fresh t start inputs slots label parent))
  | release (child : Option Handle) : Plain (release child)
  /-- Leave so many main inputs to come. -/
  | await (n : Nat) : Plain (modify fun c => { c with pendingInputs := n } : Action Unit)
  | note (n : Note) : Plain (modify fun c => { c with notes := c.notes.push n } : Action Unit)

/-- What operations are: plain steps, reads of signals and starts of components, in a row. -/
inductive Woven : {α : Type} → (Enter → Action α) → Prop
  | plain {α : Type} {act : Action α} (h : Plain act) : Woven fun _ => act
  | signal (i : Nat) : Woven fun _ => Action.signal i
  | trigger (id : Handle) : Woven fun enter => trigger enter id
  | bind {α β : Type} {x : Enter → Action α} {f : α → Enter → Action β} (hx : Woven x)
      (hf : ∀ a, Woven (f a)) : Woven fun enter => x enter >>= fun a => f a enter

namespace Woven

/-- What changes nothing is woven, of no looks and no changes. -/
theorem pure (a : α) : Woven fun _ => (pure a : Action α) :=
  .plain (.reads (f := fun _ => a) fun _ => rfl)

/-- A refusal of its own is a look that always fails. -/
theorem refuse (e : Refusal) : Woven fun _ => (refuse e : Action α) :=
  .plain (.look (f := fun _ => .error e) fun _ => rfl)

theorem defect (id : Handle) (d : GraphDefect) : Woven fun _ => (Action.defect id d : Action α) :=
  .plain (.look fun c => by rw [c.defect_bare])

/-- One of two actions. -/
theorem ite {p : Prop} [Decidable p] {x y : Enter → Action α} (hx : Woven x) (hy : Woven y) :
    Woven fun enter => if p then x enter else y enter := by
  by_cases h : p
  · simpa only [if_pos h] using hx
  · simpa only [if_neg h] using hy

/-- A look at more than the bare state, of which what follows depends on the bare state only. -/
theorem look_then {f : Computation → Except Refusal α} (p : α → α)
    {k : α → Enter → Action β} (hf : ∀ c : Computation, f c.bare = (f c).map p)
    (hp : ∀ a, k (p a) = k a) (hk : ∀ a, Woven (k a)) :
    Woven fun enter => look f >>= fun a => k a enter := by
  have hsame : (fun enter => look f >>= fun a => k a enter)
      = fun enter => look (fun c => f c.bare) >>= fun a => k a enter := by
    funext enter c
    have hbare := hf c
    cases hr : f c with
    | error e =>
      rw [hr] at hbare
      rw [bind_error (look_error hr), bind_error (look_error (f := fun c => f c.bare) hbare)]
    | ok a =>
      rw [hr] at hbare
      rw [bind_ok (look_ok hr), bind_ok (look_ok (f := fun c => f c.bare) hbare), hp]
  rw [hsame]
  exact .bind (.plain (.look fun c => by rw [c.bare_bare])) hk

/-- What follows depends on the bare state only. -/
theorem get_then {k : Computation → Enter → Action β} (hp : ∀ c : Computation, k c.bare = k c)
    (hk : ∀ c, Woven (k c)) : Woven fun enter => get >>= fun c => k c enter := by
  have hsame : (fun enter => get >>= fun c => k c enter)
      = fun enter => (do return (← get).bare : Action Computation) >>= fun c => k c enter := by
    funext enter c
    show k c enter c = k c.bare enter c
    rw [hp]
  rw [hsame]
  exact .bind (.plain (.reads fun c => c.bare_bare)) hk

/-! ### What the engine does -/

/-- Writing a signal is a look whether it is in range, the write, and its event. -/
theorem setSignal (i : Nat) (v : Scalar) : Woven fun _ => setSignal i v :=
  .bind (.plain (.inRange fun _ => rfl)) fun _ => .bind (.plain (.store i v)) fun _ =>
    .plain (.record ⟨fun _ _ => by simp, fun outer => by cases outer <;> rfl⟩)

/-- The counter is read off the record, and one less is written back. -/
theorem countInput (id : Handle) : Woven fun _ => countInput id := by
  refine .look_then .bare (fun c => c.component_bare id) (fun _ => rfl) fun r => ?_
  cases r.pending with
  | zero => exact .defect _ _
  | succ n => exact .bind (.plain (.count id n)) fun _ => .pure n

/-- After the count and its event, the last input starts the component. -/
theorem arrive (id : Handle) (i : Nat) : Woven fun enter => arrive enter id i :=
  .bind (.countInput id) fun _ =>
    .bind (.plain (.record ⟨fun _ _ => by simp, fun outer => by cases outer <;> rfl⟩)) fun _ =>
      .ite (.trigger id) (.pure ())

/-- A component is entered with the shape that the bare state has for it, and one without inputs
    starts at once. -/
theorem create (id : Handle) (t : TemplateId) (start : Nat) (label : String)
    (parent : Option Handle) : Woven fun enter => create enter id t start label parent := by
  refine .get_then (fun c => ?_) fun c => ?_
  · have hshape : c.bare.circuit.templates.shape? t = c.circuit.templates.shape? t :=
      TemplateTable.shape?_bare c.circuit.templates t
    simp only [hshape]
  · cases c.circuit.templates.shape? t with
    | none => exact .refuse _
    | some shape =>
      exact .bind (.plain (.enroll id t start _ _ label parent)) fun _ =>
        .bind (.plain (.record ⟨fun _ _ => by simp, fun outer => by cases outer <;> rfl⟩))
          fun _ => .ite (.trigger id) (.pure ())

theorem writeInput (id : Handle) (l : Nat) (v : Scalar) :
    Woven fun enter => writeInput enter id l v :=
  .bind (.plain (.look fun c => c.inputSignal_bare id l)) fun i =>
    .bind (.setSignal i v) fun _ => .arrive id i

/-- One write after another: the parts are woven, so the walk is. -/
theorem writeInputs (id : Handle) (vs : List Scalar) :
    ∀ l, Woven fun enter => writeInputs enter id l vs := by
  induction vs with
  | nil => exact fun _ => .pure ()
  | cons v rest ih => exact fun l => .bind (.writeInput id l v) fun _ => ih (l + 1)

/-- One release after another. -/
theorem releaseAll (children : List (Option Handle)) : Woven fun _ => releaseAll children := by
  induction children with
  | nil => exact .pure ()
  | cons child rest ih => exact .bind (.plain (.release child)) fun _ => ih

theorem arriveAll (signals : List Nat) : Woven fun enter => arriveAll enter signals := by
  induction signals with
  | nil => exact .pure ()
  | cons i rest ih => exact .bind (.arrive .mainComponent i) fun _ => ih

/-- The main component is created over its inputs, which then arrive one by one. -/
theorem runMain : Woven fun enter => runMain enter :=
  .get_then (fun _ => rfl) fun _ => .bind (.create _ _ _ _ _) fun _ => .arriveAll _

/-- An assignment looks its signal up, writes and counts it, and the last one runs the main
    component. -/
theorem assignByHash (hash : UInt64) (index : Nat) (v : Scalar) :
    Woven fun enter => assignByHash enter hash index v :=
  .bind (.plain (.look fun _ => rfl)) fun i => .bind (.plain (.inRange fun _ => rfl)) fun _ =>
    .ite (.refuse _) (.bind (.setSignal i v) fun _ => .get_then (fun _ => rfl) fun _ =>
      .bind (.plain (.await _)) fun _ => .ite .runMain (.pure ()))

/-- A name is only looked at for its hash, once it is known to be declared. -/
theorem assignByName (name : String) (index : Nat) (v : Scalar) :
    Woven fun enter => assignByName enter name index v :=
  .get_then (fun _ => rfl) fun _ => .ite (.refuse _) (.assignByHash _ index v)

theorem assignElements (name : String) (vs : List Scalar) :
    ∀ index, Woven fun enter => assignElements enter name index vs := by
  induction vs with
  | nil => exact fun _ => .pure ()
  | cons v rest ih => exact fun index => .bind (.assignByName name index v) fun _ => ih (index + 1)

theorem assignEntries (entries : List (String × List Scalar)) :
    Woven fun enter => assignEntries enter entries := by
  induction entries with
  | nil => exact .pure ()
  | cons entry rest ih => exact .bind (.assignElements entry.1 entry.2 0) fun _ => ih

end Woven

/-! ## Requests -/

/-- A request that looks neither at the trace nor at the slots of a component. -/
def Request.Bare : Request → Prop
  | .trace | .child _ _ | .createChild _ _ _ _ _ _ | .releaseChildren _ => False
  | _ => True

/-- **Bare requests are woven.** -/
theorem Request.woven {q : Request} (h : q.Bare) : Woven fun enter => q.perform enter := by
  cases q with
  | trace | child | createChild | releaseChildren => cases h
  | signal i => exact .signal i
  | setSignal i v => exact .setSignal i v
  | constant | witness | peek => exact .plain (.inRange fun _ => rfl)
  | signalStart id => exact .plain (.look fun c => c.signalStart_bare id)
  | handleAfter parent offset => exact .plain (.look fun c => c.handleAfter_bare parent offset)
  | assert id v line => exact .plain (.look fun c => c.assert_bare id v line)
  | active | witnessLength => exact .plain (.reads fun _ => rfl)
  | stage id =>
    exact .plain (.reads fun c => Registry.stage?_map (f := Component.bare) (fun _ => rfl) id)
  | label id => exact .plain (.reads fun c => c.label_bare id)
  | templateName id => exact .plain (.reads fun c => c.templateName_bare id)
  | create => exact .create _ _ _ _ _
  | writeInput id l v => exact .writeInput id l v
  | writeInputs id l vs => exact .writeInputs id vs l
  | countInput id => exact .countInput id
  | trigger id => exact .trigger id
  | release child => exact .plain (.release child)
  | assignByHash hash index v => exact .assignByHash hash index v
  | assignByName name index v => exact .assignByName name index v
  | assignAll inputs => exact .assignEntries inputs.entries
  | runMain => exact .runMain
  | note n => exact .plain (.note n)

/-- A plain step neither starts nor ends a body. -/
theorem Plain.quiet {act : Action α} (h : Plain act) : Action.Quiet act := by
  cases h with
  | look => exact .look _
  | inRange => exact .inRange _
  | reads => exact .reads _
  | record he => exact .record he.nest
  | store | await | note => exact .modify (fun _ => rfl) (fun _ _ => rfl) fun _ => rfl
  | count id n => exact .modifyComponent id fun _ => rfl
  | enroll id => exact .enroll id (by simp [Component.fresh])
  | release child => exact .release child

/-- Plain looks and reads are looks, and plain changes are changes, so what is woven is schematic.
    -/
theorem Woven.schematic {act : Enter → Action α} (h : Woven act) : Schematic act := by
  induction h with
  | plain h => exact .quiet h.quiet
  | signal i => exact .signal i
  | trigger id => exact .trigger id
  | bind _ _ ihx ihf => exact .bind ihx ihf

/-- **All requests are schematic.** -/
theorem Request.schematic (q : Request) : Schematic fun enter => q.perform enter := by
  by_cases h : q.Bare
  · exact (Request.woven h).schematic
  · cases q with
    | trace => exact .quiet (.reads _)
    | child => exact .look _
    | createChild => exact .bind (.keepChild _ _ _) fun _ => (Woven.create _ _ _ _ _).schematic
    | releaseChildren => exact .bind (.look _) fun r => (Woven.releaseAll _).schematic
    | _ => exact absurd trivial h

end CircuitWitness
