import Mathlib.Algebra.Ring.Nat
import CircuitWitness.Computation.Calculate
/-
  What the actions do to the state, one change at a time.

  A computation moves by a handful of changes: an event is appended, a record is altered, a signal
  is written, an input is counted, a body begins, ends or is left.  Each has a name here, together
  with the laws that say which part of the state it touches and which it leaves alone.  The second
  half says what the actions of the engine do in terms of these changes, so that later proofs never
  open an action again.
-/

namespace CircuitWitness

/-! ## Registries -/

namespace Registry

/-- A component has a stage if it has a record, and then the stage is that of the record. -/
theorem stage?_eq_some {reg : Registry} {id : Handle} {stage : Stage} :
    reg.stage? id = some stage ↔ ∃ r, reg.get? id = some r ∧ r.stage = stage :=
  Option.map_eq_some_iff

/-- A handle can be entered only if it is declared and not in use, and from then on it finds the
    new component; all other handles find what they found. -/
theorem create_ok {reg reg' : Registry} {id : Handle} {r : Component}
    (h : reg.create id r = .ok reg') :
    reg.get? id = none ∧ id.index < reg.capacity ∧ reg'.capacity = reg.capacity ∧
    ∀ other, reg'.get? other = if id = other then some r else reg.get? other := by
  unfold create at h
  split at h
  · cases h
  rename_i hcap
  split at h
  · cases h
  rename_i hfree
  have hid : id.index < reg.records.size := by unfold capacity at hcap; omega
  injection h with h
  subst h
  refine ⟨by simpa using hfree, hid, by simp [capacity], fun other => ?_⟩
  simp only [get?, Array.getElem?_setIfInBounds]
  by_cases he : id = other
  · subst he; simp [hid]
  · have hne : id.index ≠ other.index := fun e => he (by cases id; cases other; simp_all)
    simp [he, hne]

/-- A handle is refused for two reasons only. -/
theorem create_error {reg : Registry} {id : Handle} {r : Component} {d : GraphDefect}
    (h : reg.create id r = .error d) :
    d = .componentOutOfRange reg.capacity ∨ d = .duplicateComponent := by
  unfold create at h
  split at h
  · injection h with h; exact .inl h.symm
  split at h
  · injection h with h; exact .inr h.symm
  · cases h

/-- Entering succeeds on every declared handle that is not in use. -/
theorem create_of_free {reg : Registry} {id : Handle} (r : Component)
    (hfree : reg.get? id = none) (hid : id.index < reg.capacity) :
    reg.create id r = .ok ⟨reg.records.setIfInBounds id.index (some r)⟩ := by
  unfold create
  rw [if_neg (by omega), if_neg (by simp [hfree])]

/-- One registry is another with a record put at a handle. -/
def Sets (reg reg' : Registry) (id : Handle) (r : Component) : Prop :=
  ∀ other, reg'.get? other = if id = other then some r else reg.get? other

/-- What was set is found. -/
theorem Sets.self {reg reg' : Registry} {id : Handle} {r : Component} (h : reg.Sets reg' id r) :
    reg'.get? id = some r := by
  rw [h id, if_pos rfl]

/-- Of two records set at one handle, the later one counts. -/
theorem Sets.trans {reg reg' reg'' : Registry} {id : Handle} {r r' : Component}
    (h : reg.Sets reg' id r) (h' : reg'.Sets reg'' id r') : reg.Sets reg'' id r' := by
  intro other
  rw [h' other, h other]
  by_cases he : id = other
  · rw [if_pos he, if_pos he]
  · rw [if_neg he, if_neg he, if_neg he]

/-- To modify a component is to set the modified record. -/
theorem sets_modify {reg : Registry} {id : Handle} {r : Component} (hr : reg.get? id = some r)
    (f : Component → Component) : reg.Sets (reg.modify id f) id (f r) := by
  intro other
  rw [get?_modify, hr]; rfl

/-- To create a component is to set its record. -/
theorem sets_create {reg reg' : Registry} {id : Handle} {r : Component}
    (h : reg.create id r = .ok reg') : reg.Sets reg' id r := (create_ok h).2.2.2

/-- At first there are no components. -/
theorem get?_empty (n : Nat) (id : Handle) : (empty n).get? id = none := by
  simp only [empty, get?, Array.getElem?_replicate]
  split <;> rfl

@[simp] theorem capacity_empty (n : Nat) : (empty n).capacity = n := by simp [empty, capacity]

end Registry

/-- A template with a shape has a body. -/
theorem TemplateTable.body?_of_shape? {templates : TemplateTable} {t : TemplateId}
    {shape : TemplateShape} (h : templates.shape? t = some shape) (prefer : Bool) :
    ∃ body, templates.body? t prefer = some body := by
  unfold TemplateTable.shape? at h
  obtain ⟨e, he, -⟩ := Option.map_eq_some_iff.mp h
  exact ⟨e.chosen prefer, by unfold TemplateTable.body?; rw [he]; rfl⟩

/-- A template with fewer inputs than a word can count has all of them counted. -/
theorem TemplateShape.inputCounter_eq {shape : TemplateShape} (h : shape.inputs < 2 ^ 32) :
    shape.inputCounter = shape.inputs := Nat.mod_eq_of_lt h

/-- Where there are no inputs, none are waited for. -/
theorem TemplateShape.inputCounter_zero {shape : TemplateShape} (h : shape.inputs = 0) :
    shape.inputCounter = 0 := by
  unfold inputCounter
  rw [h, Nat.zero_mod]

/-! ## Named changes -/

namespace Computation

variable (c : Computation)

/-- Append an event to the trace. -/
def recorded (e : Event) : Computation := { c with trace := c.trace.record e }

/-- Alter the record of a component. -/
def modified (id : Handle) (f : Component → Component) : Computation :=
  { c with registry := c.registry.modify id f }

/-- Let a component be the running one, or none. -/
def left (caller : Option Handle) : Computation := { c with active := caller }

/-- Write a signal. -/
def wrote (i : Nat) (v : Scalar) : Computation :=
  { c with store := c.store.write i v }.recorded (.signalWritten i)

/-- Enter a component, with a registry that holds it. -/
def enrolled (reg : Registry) (id : Handle) (t : TemplateId) : Computation :=
  { c with registry := reg }.recorded (.created id t)

/-- Leave so many inputs of a component to come. -/
def counted (id : Handle) (remaining : Nat) : Computation :=
  c.modified id fun r => { r with pending := remaining }

/-- Count an input of a component, and say so in the trace. -/
def arrived (id : Handle) (signal remaining : Nat) : Computation :=
  (c.counted id remaining).recorded (.inputWritten id signal remaining)

/-- Begin the body of a component. -/
def begun (id : Handle) : Computation :=
  ((c.modified id fun r => { r with stage := .running }).recorded (.triggered id)).left (some id)

/-- End the body of a component and go back to the caller. -/
def ended (id : Handle) (caller : Option Handle) : Computation :=
  ((c.left caller).modified id fun r => { r with stage := .finished }).recorded (.finished id)

/-- Release a component. -/
def dropped (id : Handle) : Computation :=
  (c.modified id fun r =>
    { r with slots := if c.config.reclaim then #[] else r.slots, stage := .released }).recorded
    (.released id)

/-- Keep the handle of a child in a slot. -/
def kept (parent : Handle) (slot : Nat) (child : Handle) : Computation :=
  c.modified parent fun r => { r with slots := r.slots.setIfInBounds slot (some child) }

/-- Assign a main input. -/
def assigned (i : Nat) (v : Scalar) : Computation :=
  { c.wrote i v with pendingInputs := c.pendingInputs - 1 }

/-- Note something down. -/
def noted (n : Note) : Computation := { c with notes := c.notes.push n }

end Computation

/-! ## What the actions do -/

namespace Action

variable {α β : Type} {c c' : Computation}

/-- Actions are followed one by one: after one that returns comes the next. -/
theorem bind_ok {x : Action α} {f : α → Action β} {a : α} (h : x c = .ok a c') :
    (x >>= f) c = f a c' := by
  simp only [bind, EStateM.bind, h]

/-- What fails ends the sequence. -/
theorem bind_error {x : Action α} {f : α → Action β} {e : Fault} (h : x c = .error e c') :
    (x >>= f) c = .error e c' := by
  simp only [bind, EStateM.bind, h]

/-- Of two actions in a row that return, each one returns. -/
theorem of_bind_ok {x : Action α} {f : α → Action β} {b : β} (h : (x >>= f) c = .ok b c') :
    ∃ a d, x c = .ok a d ∧ f a d = .ok b c' := by
  cases hx : x c with
  | ok a d => exact ⟨a, d, rfl, (bind_ok hx).symm.trans h⟩
  | error e d => cases (bind_error hx).symm.trans h

theorem get_bind {f : Computation → Action β} : (get >>= f) c = f c c := rfl

/-- Looks leave the state as it is, whether they find anything or not. -/
theorem look_ok {f : Computation → Except Refusal α} {a : α} (h : f c = .ok a) :
    look f c = .ok a c := by
  unfold look; rw [h]

theorem look_error {f : Computation → Except Refusal α} {e : Refusal} (h : f c = .error e) :
    look f c = .error (.refused e) c := by
  unfold look; rw [h]

/-- The same of looks that go out of range. -/
theorem inRange_some {f : Computation → Option α} {a : α} (h : f c = some a) :
    inRange f c = .ok a c := by
  unfold inRange; rw [h]

theorem inRange_none {f : Computation → Option α} (h : f c = none) :
    inRange f c = .error .outOfRange c := by
  unfold inRange; rw [h]

/-- A component is looked up by its record. -/
theorem component_eq {id : Handle} {r : Component} (h : c.registry.get? id = some r) :
    c.component id = .ok r := by
  unfold Computation.component; rw [h]

/-- Without a record, the refusal names the component by its handle. -/
theorem component_none {id : Handle} (h : c.registry.get? id = none) :
    c.component id = .error (c.defect id .unknownComponent) := by
  unfold Computation.component; rw [h]

/-- What the operations do, one equation for each outcome: a signal outside of the store goes out
    of range. -/
theorem signal_outside {i : Nat} (h : c.store.isWritten? i = none) :
    Action.signal i c = .error .outOfRange c := bind_error (inRange_none h)

/-- A signal that was written is read with an event that says so. -/
theorem signal_written {i : Nat} (h : c.store.isWritten? i = some true) :
    Action.signal i c = inRange (fun c => c.store.read? i) (c.recorded (.signalRead i true)) := by
  unfold Action.signal
  rw [bind_ok (inRange_some h)]
  rfl

/-- The one place where it matters whether reads are strict. -/
theorem signal_unwritten {i : Nat} (h : c.store.isWritten? i = some false)
    (hstrict : c.config.checkReads = true) :
    Action.signal i c = .error (.refused (c.defect (c.active.getD .mainComponent)
      (.unwrittenSignal i))) (c.recorded (.signalRead i false)) := by
  unfold Action.signal
  rw [bind_ok (inRange_some h)]
  show (if (!false && c.config.checkReads) = true then _ else _ : Action Scalar)
    (c.recorded (.signalRead i false)) = _
  rw [hstrict]
  rfl

/-- A write inside of the store is the write and its event. -/
theorem setSignal_ok {i : Nat} {v : Scalar} {w : Bool} (h : c.store.isWritten? i = some w) :
    setSignal i v c = .ok () (c.wrote i v) := by
  unfold setSignal
  rw [bind_ok (inRange_some h)]; rfl

/-- A write outside of the store changes nothing. -/
theorem setSignal_none {i : Nat} {v : Scalar} (h : c.store.isWritten? i = none) :
    setSignal i v c = .error .outOfRange c := by
  unfold setSignal
  rw [bind_error (inRange_none h)]

/-- An input is counted. -/
theorem countInput_ok {id : Handle} {r : Component} {n : Nat} (h : c.registry.get? id = some r)
    (hp : r.pending = n + 1) : countInput id c = .ok n (c.counted id n) := by
  unfold countInput
  rw [bind_ok (look_ok (component_eq h)), hp]; rfl

/-- No input is counted twice: at zero the component refuses. -/
theorem countInput_underflow {id : Handle} {r : Component} (h : c.registry.get? id = some r)
    (hp : r.pending = 0) :
    countInput id c = .error (.refused (c.defect id .counterUnderflow)) c := by
  unfold countInput
  rw [bind_ok (look_ok (component_eq h)), hp]; rfl

/-- Inputs of unknown components are not counted. -/
theorem countInput_none {id : Handle} (h : c.registry.get? id = none) :
    countInput id c = .error (.refused (c.defect id .unknownComponent)) c := by
  unfold countInput
  rw [bind_error (look_error (component_none h))]

/-! ### Starting a body -/

/-- What runs in the place of another component gives the place back, -/
theorem whileActive_ok {id : Handle} {act : Action α} {a : α}
    (h : act (c.left (some id)) = .ok a c') :
    whileActive id act c = .ok a (c'.left c.active) := by
  unfold Computation.left at h
  simp only [whileActive, h]; rfl

/-- and gives it back when it fails, too. -/
theorem whileActive_error {id : Handle} {act : Action α} {f : Fault}
    (h : act (c.left (some id)) = .error f c') :
    whileActive id act c = .error f (c'.left c.active) := by
  unfold Computation.left at h
  simp only [whileActive, h]; rfl

/-- Begin a body, follow it, and end it or leave it. -/
def runBody (enter : Enter) (body : Body) (id : Handle) : Action Unit := fun c =>
  match enter body id (c.begun id) with
  | .ok () c' => .ok () (c'.ended id c.active)
  | .error f c' => .error f (c'.left c.active)

/-- A body that returns is ended. -/
theorem runBody_ok {enter : Enter} {body : Body} {id : Handle} {u : Unit}
    (h : enter body id (c.begun id) = .ok u c') :
    runBody enter body id c = .ok () (c'.ended id c.active) := by
  unfold runBody
  rw [h]

/-- A body that fails is left behind. -/
theorem runBody_error {enter : Enter} {body : Body} {id : Handle} {f : Fault}
    (h : enter body id (c.begun id) = .error f c') :
    runBody enter body id c = .error f (c'.left c.active) := by
  unfold runBody
  rw [h]

/-- A component that cannot start refuses before anything is changed. -/
theorem trigger_refused {enter : Enter} {id : Handle} {e : Refusal}
    (h : c.startable id = .error e) : trigger enter id c = .error (.refused e) c :=
  bind_error (look_error h)

/-- One that can start runs its body. -/
theorem trigger_eq {enter : Enter} {id : Handle} {body : Body} (h : c.startable id = .ok body) :
    trigger enter id c = runBody enter body id c := by
  unfold trigger
  rw [bind_ok (look_ok h)]
  show (whileActive id (enter body id) >>= _) ((c.modified id _).recorded _) = _
  unfold runBody
  cases hb : enter body id (c.begun id) with
  | ok u c' => rw [bind_ok (whileActive_ok hb)]; rfl
  | error f c' => rw [bind_error (whileActive_error hb)]; rfl

/-- A component is startable exactly if it was created, has all its inputs and has a template. -/
theorem startable_eq {id : Handle} {r : Component} {body : Body}
    (h : c.registry.get? id = some r) (hs : r.stage = .created) (hp : r.pending = 0)
    (hb : c.circuit.templates.body? r.template c.config.useAlternate = some body) :
    c.startable id = .ok body := by
  unfold Computation.startable
  rw [component_eq h]
  simp [hs, hp, hb]

/-- What it takes to start: a component that is created, all of its inputs, and a body. -/
theorem of_startable {id : Handle} {body : Body} (h : c.startable id = .ok body) :
    ∃ r, c.registry.get? id = some r ∧ r.stage = .created ∧ r.pending = 0 ∧
      c.circuit.templates.body? r.template c.config.useAlternate = some body := by
  unfold Computation.startable at h
  cases hr : c.registry.get? id with
  | none => rw [component_none hr] at h; cases h
  | some r =>
    rw [component_eq hr] at h
    simp only at h
    split at h
    · cases h
    rename_i hs
    split at h
    · cases h
    rename_i hp
    split at h
    · rename_i b hb
      injection h with h
      exact ⟨r, rfl, by simpa using hs, by simpa using hp, h ▸ hb⟩
    · cases h

/-! ### Counting inputs and creating components -/

/-- An input that is not the last one is counted, and nothing else happens. -/
theorem arrive_waiting {enter : Enter} {id : Handle} {i n : Nat} {r : Component}
    (h : c.registry.get? id = some r) (hp : r.pending = n + 1) (hn : n ≠ 0) :
    arrive enter id i c = .ok () (c.arrived id i n) := by
  unfold arrive
  rw [bind_ok (countInput_ok h hp)]
  show (if n = 0 then trigger enter id else return ()) (c.arrived id i n) = _
  rw [if_neg hn]; rfl

/-- The last one starts the component. -/
theorem arrive_last {enter : Enter} {id : Handle} {i : Nat} {r : Component}
    (h : c.registry.get? id = some r) (hp : r.pending = 1) :
    arrive enter id i c = trigger enter id (c.arrived id i 0) := by
  unfold arrive
  rw [bind_ok (countInput_ok h hp)]; rfl

/-- If it cannot be counted, it does not start anything. -/
theorem arrive_error {enter : Enter} {id : Handle} {i : Nat} {e : Refusal}
    (h : countInput id c = .error (.refused e) c) :
    arrive enter id i c = .error (.refused e) c :=
  bind_error h

/-- A component of an unknown template is not entered. -/
theorem create_unknown {enter : Enter} {id : Handle} {t : TemplateId} {start : Nat}
    {label : String} {parent : Option Handle} (h : c.circuit.templates.shape? t = none) :
    create enter id t start label parent c
      = .error (.refused (.graphDefect id label (.unknownTemplate t))) c := by
  unfold create
  rw [get_bind, h]; rfl

/-- Nor is one whose handle is taken or out of range. -/
theorem create_refused {enter : Enter} {id : Handle} {t : TemplateId} {start : Nat}
    {label : String} {parent : Option Handle} {shape : TemplateShape} {d : GraphDefect}
    (h : c.circuit.templates.shape? t = some shape)
    (hr : c.registry.create id
      (Component.fresh t start shape.inputCounter shape.slots label parent) = .error d) :
    create enter id t start label parent c = .error (.refused (c.defect id d)) c := by
  unfold create
  rw [get_bind, h]
  exact bind_error (by unfold enroll; rw [hr])

/-- A created component waits, or runs at once if it has no inputs. -/
theorem create_ok {enter : Enter} {id : Handle} {t : TemplateId} {start : Nat}
    {label : String} {parent : Option Handle} {shape : TemplateShape} {reg : Registry}
    (h : c.circuit.templates.shape? t = some shape)
    (hr : c.registry.create id
      (Component.fresh t start shape.inputCounter shape.slots label parent) = .ok reg) :
    create enter id t start label parent c
      = if shape.inputs = 0 then trigger enter id (c.enrolled reg id t)
        else .ok () (c.enrolled reg id t) := by
  unfold create
  rw [get_bind, h]
  have he : enroll id (Component.fresh t start shape.inputCounter shape.slots label parent) c
      = .ok () { c with registry := reg } := by unfold enroll; rw [hr]
  show (enroll id _ >>= _) c = _
  rw [bind_ok he]
  show (if shape.inputs = 0 then trigger enter id else return ()) (c.enrolled reg id t) = _
  split <;> rfl

/-- An unknown component keeps no child. -/
theorem keepChild_unknown {parent child : Handle} {slot : Nat} (h : c.registry.get? parent = none) :
    keepChild parent slot child c = .error (.refused (c.defect parent .unknownComponent)) c :=
  bind_error (look_error (component_none h))

/-- A child is kept in no slot that the parent does not have. -/
theorem keepChild_outside {parent child : Handle} {slot : Nat} {r : Component}
    (h : c.registry.get? parent = some r) (hs : r.slots.size ≤ slot) :
    keepChild parent slot child c
      = .error (.refused (c.defect parent (.slotOutOfRange slot r.slots.size))) c := by
  unfold keepChild
  rw [bind_ok (look_ok (component_eq h)), if_pos hs]
  exact look_error rfl

/-- Otherwise the slot holds the handle, whether or not there is such a child. -/
theorem keepChild_ok {parent child : Handle} {slot : Nat} {r : Component}
    (h : c.registry.get? parent = some r) (hs : slot < r.slots.size) :
    keepChild parent slot child c = .ok () (c.kept parent slot child) := by
  unfold keepChild
  rw [bind_ok (look_ok (component_eq h)), if_neg (by omega)]; rfl

/-- To write an input is to write its signal and to let it arrive. -/
theorem writeInput_eq {enter : Enter} {id : Handle} {l i : Nat} {v : Scalar} {w : Bool}
    (h : c.inputSignal id l = .ok i) (hw : c.store.isWritten? i = some w) :
    writeInput enter id l v c = arrive enter id i (c.wrote i v) := by
  unfold writeInput
  rw [bind_ok (look_ok h), bind_ok (setSignal_ok hw)]

/-! ### Releasing components -/

/-- Unknown components are not released. -/
theorem release_unknown {id : Handle} (h : c.registry.get? id = none) :
    release (some id) c = .error (.refused (c.defect id .unknownComponent)) c :=
  bind_error (look_error (component_none h))

/-- A component that has not finished refuses. -/
theorem release_early {id : Handle} {r : Component} (h : c.registry.get? id = some r)
    (hs : r.stage = .created ∨ r.stage = .running) :
    release (some id) c = .error (.refused (c.defect id (.releasedEarly r.stage))) c := by
  show (look (fun c => c.component id) >>= _) c = _
  rw [bind_ok (look_ok (component_eq h))]
  rcases hs with hs | hs <;> rw [hs] <;> rfl

/-- One that has finished is dropped. -/
theorem release_ok {id : Handle} {r : Component} (h : c.registry.get? id = some r)
    (hs : r.stage = .finished) : release (some id) c = .ok () (c.dropped id) := by
  show (look (fun c => c.component id) >>= _) c = _
  rw [bind_ok (look_ok (component_eq h)), hs]
  rfl

/-- One that is released already is left alone. -/
theorem release_again {id : Handle} {r : Component} (h : c.registry.get? id = some r)
    (hs : r.stage = .released) : release (some id) c = .ok () c := by
  show (look (fun c => c.component id) >>= _) c = _
  rw [bind_ok (look_ok (component_eq h)), hs]
  rfl

/-- A release is refused and changes nothing, or there is nothing to release, or a finished
    component is dropped. -/
theorem release_cases (child : Option Handle) (c : Computation) :
    (∃ e, release child c = .error (.refused e) c) ∨
    (release child c = .ok () c ∧
      ∀ id, child = some id → c.registry.stage? id = some .released) ∨
    ∃ id r, child = some id ∧ c.registry.get? id = some r ∧ r.stage = .finished ∧
      release child c = .ok () (c.dropped id) := by
  cases child with
  | none => exact .inr (.inl ⟨rfl, fun _ h => by cases h⟩)
  | some id =>
    cases hr : c.registry.get? id with
    | none => exact .inl ⟨_, release_unknown hr⟩
    | some r =>
      cases hs : r.stage with
      | created => exact .inl ⟨_, release_early hr (.inl hs)⟩
      | running => exact .inl ⟨_, release_early hr (.inr hs)⟩
      | finished => exact .inr (.inr ⟨id, r, rfl, hr, hs, release_ok hr hs⟩)
      | released =>
        refine .inr (.inl ⟨release_again hr hs, fun other he => ?_⟩)
        cases he
        exact Registry.stage?_eq_some.mpr ⟨r, hr, hs⟩

/-! ### Assigning main inputs -/

/-- An assignment to no input, or past the end of one, is refused. -/
theorem assignByHash_refused {enter : Enter} {hash : UInt64} {index : Nat} {v : Scalar}
    {e : Refusal} (h : c.inputSlot hash index = .error e) :
    assignByHash enter hash index v c = .error (.refused e) c :=
  bind_error (look_error h)

/-- One whose signal is not in the store goes out of range. -/
theorem assignByHash_outOfRange {enter : Enter} {hash : UInt64} {index i : Nat} {v : Scalar}
    (h : c.inputSlot hash index = .ok i) (hw : c.store.isWritten? i = none) :
    assignByHash enter hash index v c = .error .outOfRange c := by
  unfold assignByHash
  rw [bind_ok (look_ok h), bind_error (inRange_none hw)]

/-- A second one to the same element is refused. -/
theorem assignByHash_twice {enter : Enter} {hash : UInt64} {index i : Nat} {v : Scalar}
    (h : c.inputSlot hash index = .ok i) (hw : c.store.isWritten? i = some true) :
    assignByHash enter hash index v c = .error (.refused (.inputAssignedTwice hash index)) c := by
  unfold assignByHash
  rw [bind_ok (look_ok h), bind_ok (inRange_some hw)]; rfl

/-- An accepted assignment runs the main component if it was the last one. -/
theorem assignByHash_ok {enter : Enter} {hash : UInt64} {index i : Nat} {v : Scalar}
    (h : c.inputSlot hash index = .ok i) (hw : c.store.isWritten? i = some false) :
    assignByHash enter hash index v c
      = if c.pendingInputs - 1 = 0 then runMain enter (c.assigned i v)
        else .ok () (c.assigned i v) := by
  unfold assignByHash
  rw [bind_ok (look_ok h), bind_ok (inRange_some hw)]
  show (setSignal i v >>= _) c = _
  rw [bind_ok (setSignal_ok hw), get_bind]
  show (if c.pendingInputs - 1 = 0 then runMain enter else return ()) (c.assigned i v) = _
  split <;> rfl

/-- A name that is not declared is refused before its hash is taken. -/
theorem assignByName_unknown {enter : Enter} {name : String} {index : Nat} {v : Scalar}
    (h : c.circuit.inputs.findName? name = none) :
    assignByName enter name index v c = .error (.refused (.unknownInputName name)) c := by
  unfold assignByName
  rw [get_bind, h]; rfl

/-- A declared name stands for its hash. -/
theorem assignByName_known {enter : Enter} {name : String} {index : Nat} {v : Scalar}
    {signal : InputSignal} (h : c.circuit.inputs.findName? name = some signal) :
    assignByName enter name index v c = assignByHash enter (inputHash name) index v c := by
  unfold assignByName
  rw [get_bind, h]; rfl

end Action
end CircuitWitness
