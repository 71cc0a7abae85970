import Mathlib.Logic.Relation
import CircuitWitness.Proofs.Moment
/-
  The steps of a computation, seen from outside.

  Between two moments of a run nothing happens but a few kinds of change, and `Step` lists them
  all.  A step is what can be told apart at a moment: writing an input and counting it is one step,
  and where the count comes to zero, so is the start of the body.  What a body does from there on
  are steps of their own, with the body on the stack, up to the step that ends the body or leaves
  it behind.

  Everything that a computation keeps is then a law about single steps: it holds at the start, each
  step preserves it, and `Path.keeps` carries it to every moment of every run.
-/

namespace CircuitWitness

/-- The body of a component has begun at some time. -/
def Computation.Started (c : Computation) (id : Handle) : Prop :=
  ∃ r, c.registry.get? id = some r ∧ r.stage ≠ .created

/-- The requests that may be made, depending on the state in which they are made.  Writing inputs
    in a row counts as writing them one by one: what is allowed of a row is allowed of its first
    input, and of the others after it was written. -/
structure Policy where
  allows : Computation → Request → Prop
  first {c : Computation} {id : Handle} {l : Nat} {v : Scalar} {vs : List Scalar} :
    allows c (.writeInputs id l (v :: vs)) → allows c (.writeInput id l v)
  later {c : Computation} {id : Handle} {l i n : Nat} {v : Scalar} {vs : List Scalar} :
    allows c (.writeInputs id l (v :: vs)) → c.inputSignal id l = .ok i →
    allows ((c.wrote i v).arrived id i n) (.writeInputs id (l + 1) vs)
  started {c c' : Computation} {id : Handle} {l : Nat} {v : Scalar} {vs : List Scalar} :
    allows c (.writeInputs id l (v :: vs)) → c'.Started id →
    allows c' (.writeInputs id (l + 1) vs)

/-- All requests may be made. -/
def Policy.any : Policy where
  allows _ _ := True
  first _ := trivial
  later _ _ := trivial
  started _ _ := trivial

/-- All requests may be made except to count an input without writing one. -/
def Policy.noCount : Policy where
  allows _ q := ∀ id, q ≠ .countInput id
  first _ id := by simp
  later _ _ id := by simp
  started _ _ id := by simp

variable {π : Policy}

/-- One step of a computation. -/
inductive Step (π : Policy) : Moment → Moment → Prop
  /-- A signal is read. -/
  | read {s : List Handle} {c : Computation} {i : Nat} {written : Bool}
      (hw : c.store.isWritten? i = some written) :
      Step π ⟨s, c⟩ ⟨s, c.recorded (.signalRead i written)⟩
  /-- A signal is written. -/
  | write {s : List Handle} {c : Computation} {i : Nat} {v : Scalar} {written : Bool}
      (hw : c.store.isWritten? i = some written) : Step π ⟨s, c⟩ ⟨s, c.wrote i v⟩
  /-- The handle of a child is kept in a slot of its parent. -/
  | keep {s : List Handle} {c : Computation} {parent child : Handle} {slot : Nat} {r : Component}
      (hr : c.registry.get? parent = some r) (hs : slot < r.slots.size) :
      Step π ⟨s, c⟩ ⟨s, c.kept parent slot child⟩
  /-- A component is created, and waits for its inputs. -/
  | create {s : List Handle} {c : Computation} {id : Handle} {t : TemplateId} {start : Nat}
      {label : String} {parent : Option Handle} {shape : TemplateShape} {reg : Registry}
      (ht : c.circuit.templates.shape? t = some shape)
      (hr : c.registry.create id
        (Component.fresh t start shape.inputCounter shape.slots label parent) = .ok reg)
      (hn : shape.inputs ≠ 0) : Step π ⟨s, c⟩ ⟨s, c.enrolled reg id t⟩
  /-- A component without inputs is created, and begins. -/
  | createRun {s : List Handle} {c : Computation} {id : Handle} {t : TemplateId} {start : Nat}
      {label : String} {parent : Option Handle} {shape : TemplateShape} {reg : Registry}
      (ht : c.circuit.templates.shape? t = some shape)
      (hr : c.registry.create id
        (Component.fresh t start shape.inputCounter shape.slots label parent) = .ok reg)
      (hn : shape.inputs = 0) : Step π ⟨s, c⟩ ⟨id :: s, (c.enrolled reg id t).begun id⟩
  /-- An input is written and counted, and it is not the last one. -/
  | input {s : List Handle} {c : Computation} {id : Handle} {l i n : Nat} {v : Scalar}
      {r : Component} {written : Bool} (hq : π.allows c (.writeInput id l v))
      (hi : c.inputSignal id l = .ok i) (hw : c.store.isWritten? i = some written)
      (hr : c.registry.get? id = some r) (hp : r.pending = n + 1) (hn : n ≠ 0) :
      Step π ⟨s, c⟩ ⟨s, (c.wrote i v).arrived id i n⟩
  /-- The last input is written and counted, and the component begins. -/
  | inputRun {s : List Handle} {c : Computation} {id : Handle} {l i : Nat} {v : Scalar}
      {r : Component} {written : Bool} (hq : π.allows c (.writeInput id l v))
      (hi : c.inputSignal id l = .ok i) (hw : c.store.isWritten? i = some written)
      (hr : c.registry.get? id = some r) (hp : r.pending = 1) :
      Step π ⟨s, c⟩ ⟨id :: s, ((c.wrote i v).arrived id i 0).begun id⟩
  /-- An input of the main component is counted, and the component does not begin. -/
  | account {s : List Handle} {c : Computation} {i n : Nat} {r : Component}
      (hq : (∃ c₀, π.allows c₀ .runMain) ∨ c.pendingInputs = 0)
      (hr : c.registry.get? .mainComponent = some r)
      (ht : r.template = c.circuit.mainTemplate) (hs : r.signalStart = c.circuit.mainSignalStart)
      (hp : r.pending = n + 1)
      (hn : n ≠ 0 ∨ ∃ e, (c.arrived .mainComponent i n).startable .mainComponent = .error e)
      (hi : i ∈ List.range' c.circuit.mainInputStart c.circuit.mainInputCount) :
      Step π ⟨s, c⟩ ⟨s, c.arrived .mainComponent i n⟩
  /-- The last input of the main component is counted, and the component begins. -/
  | accountRun {s : List Handle} {c : Computation} {i : Nat} {r : Component} {body : Body}
      (hq : (∃ c₀, π.allows c₀ .runMain) ∨ c.pendingInputs = 0)
      (hr : c.registry.get? .mainComponent = some r)
      (ht : r.template = c.circuit.mainTemplate) (hs : r.signalStart = c.circuit.mainSignalStart)
      (hp : r.pending = 1)
      (hb : (c.arrived .mainComponent i 0).startable .mainComponent = .ok body)
      (hi : i ∈ List.range' c.circuit.mainInputStart c.circuit.mainInputCount) :
      Step π ⟨s, c⟩ ⟨.mainComponent :: s, (c.arrived .mainComponent i 0).begun .mainComponent⟩
  /-- A component is begun by hand. -/
  | trigger {s : List Handle} {c : Computation} {id : Handle} {body : Body}
      (hb : c.startable id = .ok body) : Step π ⟨s, c⟩ ⟨id :: s, c.begun id⟩
  /-- The innermost body returns. -/
  | finish {s : List Handle} {c : Computation} {id : Handle} :
      Step π ⟨id :: s, c⟩ ⟨s, c.ended id s.head?⟩
  /-- The innermost body fails. -/
  | leave {s : List Handle} {c : Computation} {id : Handle} :
      Step π ⟨id :: s, c⟩ ⟨s, c.left s.head?⟩
  /-- A finished component is released. -/
  | release {s : List Handle} {c : Computation} {id : Handle} {r : Component}
      (hr : c.registry.get? id = some r) (hf : r.stage = .finished) :
      Step π ⟨s, c⟩ ⟨s, c.dropped id⟩
  /-- A main input is assigned. -/
  | assign {s : List Handle} {c : Computation} {hash : UInt64} {index i : Nat} {v : Scalar}
      (hi : c.inputSlot hash index = .ok i) (hw : c.store.isWritten? i = some false) :
      Step π ⟨s, c⟩ ⟨s, c.assigned i v⟩
  /-- An input is counted by hand. -/
  | count {s : List Handle} {c : Computation} {id : Handle} {n : Nat} {r : Component}
      (hq : π.allows c (.countInput id)) (hr : c.registry.get? id = some r)
      (hp : r.pending = n + 1) : Step π ⟨s, c⟩ ⟨s, c.counted id n⟩
  /-- A note is left. -/
  | note {s : List Handle} {c : Computation} {n : Note} : Step π ⟨s, c⟩ ⟨s, c.noted n⟩

/-- Some steps, one after another. -/
abbrev Path (π : Policy) : Moment → Moment → Prop := Relation.ReflTransGen (Step π)

/-- What every step preserves holds along every path. -/
theorem Path.keeps {I : Moment → Prop} (hI : ∀ m m', I m → Step π m m' → I m') {m m' : Moment}
    (h : Path π m m') (h0 : I m) : I m' := by
  induction h with
  | refl => exact h0
  | tail _ hstep ih => exact hI _ _ ih hstep

/-! ## What every step preserves -/

/-- The innermost body on the stack is the one that runs. -/
def Moment.Upright (m : Moment) : Prop := m.state.active = m.stack.head?

/-- The component in the state is the top of the stack, and each step keeps it so. -/
theorem Step.upright {m m' : Moment} (h : Step π m m') (hm : m.Upright) : m'.Upright := by
  cases h <;> first | exact hm | exact rfl

theorem Path.upright {m m' : Moment} (h : Path π m m') (hm : m.Upright) : m'.Upright :=
  h.keeps (fun _ _ hi hs => hs.upright hi) hm

/-- No step changes the circuit or the configuration. -/
theorem Step.circuit_eq {m m' : Moment} (h : Step π m m') :
    m'.state.circuit = m.state.circuit ∧ m'.state.config = m.state.config := by
  cases h <;> exact ⟨rfl, rfl⟩

/-- Neither the circuit nor the configuration ever changes. -/
theorem Path.circuit_eq {m m' : Moment} (h : Path π m m') :
    m'.state.circuit = m.state.circuit ∧ m'.state.config = m.state.config :=
  h.keeps (I := fun m' => m'.state.circuit = m.state.circuit ∧ m'.state.config = m.state.config)
    (fun _ _ hi hs => ⟨hs.circuit_eq.1.trans hi.1, hs.circuit_eq.2.trans hi.2⟩) ⟨rfl, rfl⟩

/-- What can become of a record: its template and its place stay, its count falls, and once its
    body has begun it has begun for good. -/
structure Component.Ages (r r' : Component) : Prop where
  template_eq : r'.template = r.template
  start_eq : r'.signalStart = r.signalStart
  pending_le : r'.pending ≤ r.pending
  begun : r.stage ≠ .created → r'.stage ≠ .created

/-- Ageing is reflexive and transitive, of a record and of all records, so it may be proved step by
    step. -/
theorem Component.Ages.refl (r : Component) : r.Ages r := ⟨rfl, rfl, Nat.le_refl _, id⟩

theorem Component.Ages.trans {r r' r'' : Component} (h : r.Ages r') (h' : r'.Ages r'') :
    r.Ages r'' :=
  ⟨h'.template_eq.trans h.template_eq, h'.start_eq.trans h.start_eq,
    Nat.le_trans h'.pending_le h.pending_le, fun hs => h'.begun (h.begun hs)⟩

/-- No record is lost, and each one ages. -/
def Registry.Ages (reg reg' : Registry) : Prop :=
  ∀ id r, reg.get? id = some r → ∃ r', reg'.get? id = some r' ∧ r.Ages r'

namespace Registry

theorem Ages.refl (reg : Registry) : reg.Ages reg := fun _ r hr => ⟨r, hr, .refl r⟩

theorem Ages.trans {reg reg' reg'' : Registry} (h : reg.Ages reg') (h' : reg'.Ages reg'') :
    reg.Ages reg'' := by
  intro id r hr
  obtain ⟨r', hr', ha⟩ := h id r hr
  obtain ⟨r'', hr'', ha'⟩ := h' id r' hr'
  exact ⟨r'', hr'', ha.trans ha'⟩

/-- To modify a record in such a way ages the registry. -/
theorem ages_modify {reg : Registry} {id : Handle} {f : Component → Component}
    (hf : ∀ r, reg.get? id = some r → r.Ages (f r)) : reg.Ages (reg.modify id f) := by
  intro other r hr
  rw [get?_modify]
  by_cases he : id = other
  · subst he
    exact ⟨f r, by rw [if_pos rfl, hr]; rfl, hf r hr⟩
  · exact ⟨r, by rw [if_neg he, hr], .refl r⟩

/-- A new record does so as well, because its place was free. -/
theorem ages_create {reg reg' : Registry} {id : Handle} {new : Component}
    (h : reg.create id new = .ok reg') : reg.Ages reg' := by
  obtain ⟨hfree, -, -, hget⟩ := create_ok h
  intro other r hr
  have hne : id ≠ other := fun he => by rw [he, hr] at hfree; cases hfree
  exact ⟨r, by rw [hget, if_neg hne, hr], .refl r⟩

/-- Changing the stage to one after the first. -/
theorem ages_advance (reg : Registry) (id : Handle) (stage : Stage) (h : stage ≠ .created) :
    reg.Ages (reg.modify id fun r => { r with stage := stage }) :=
  ages_modify fun _ _ => ⟨rfl, rfl, Nat.le_refl _, fun _ => h⟩

/-- Counting an input. -/
theorem ages_count {reg : Registry} {id : Handle} {r : Component} {n : Nat}
    (hr : reg.get? id = some r) (hp : r.pending = n + 1) :
    reg.Ages (reg.modify id fun r => { r with pending := n }) :=
  ages_modify fun r' hr' => by
    obtain rfl : r = r' := by rw [hr] at hr'; exact Option.some.inj hr'
    exact ⟨rfl, rfl, by show n ≤ r.pending; omega, fun h => h⟩

end Registry

/-- Components only age: none of them disappears or begins anew. -/
theorem Step.ages {m m' : Moment} (h : Step π m m') :
    m.state.registry.Ages m'.state.registry := by
  cases h with
  | read | write | leave | assign | note => exact .refl _
  | keep => exact Registry.ages_modify fun _ _ => ⟨rfl, rfl, Nat.le_refl _, fun h => h⟩
  | create ht hr => exact Registry.ages_create hr
  | createRun ht hr =>
    exact (Registry.ages_create hr).trans (Registry.ages_advance _ _ _ (by decide))
  | input _ _ _ hr hp => exact Registry.ages_count hr hp
  | inputRun _ _ _ hr hp =>
    exact (Registry.ages_count hr hp).trans (Registry.ages_advance _ _ _ (by decide))
  | account _ hr _ _ hp => exact Registry.ages_count hr hp
  | accountRun _ hr _ _ hp =>
    exact (Registry.ages_count hr hp).trans (Registry.ages_advance _ _ _ (by decide))
  | trigger => exact Registry.ages_advance _ _ _ (by decide)
  | finish => exact Registry.ages_advance _ _ _ (by decide)
  | release => exact Registry.ages_modify fun _ _ => ⟨rfl, rfl, Nat.le_refl _, fun _ => by simp⟩
  | count _ hr hp => exact Registry.ages_count hr hp

theorem Path.ages {m m' : Moment} (h : Path π m m') :
    m.state.registry.Ages m'.state.registry :=
  h.keeps (I := fun m' => m.state.registry.Ages m'.state.registry)
    (fun _ _ hi hs => hi.trans hs.ages) (.refl _)

/-- Main inputs are only ever taken. -/
theorem Path.pendingInputs_le {m m' : Moment} (h : Path π m m') :
    m'.state.pendingInputs ≤ m.state.pendingInputs := by
  refine h.keeps (I := fun m' => m'.state.pendingInputs ≤ m.state.pendingInputs) ?_ (Nat.le_refl _)
  intro m₁ m₂ hi hs
  have hle : m₂.state.pendingInputs ≤ m₁.state.pendingInputs := by
    -- An assignment lowers the number; no other step touches it.
    cases hs with
    | assign => exact Nat.sub_le _ _
    | _ => exact Nat.le_refl _
  exact Nat.le_trans hle hi

/-- When the inputs of the main component may be counted, they may be counted ever after. -/
theorem Path.mayCount {m m' : Moment} (h : Path π m m')
    (hq : (∃ c₀, π.allows c₀ .runMain) ∨ m.state.pendingInputs = 0) :
    (∃ c₀, π.allows c₀ .runMain) ∨ m'.state.pendingInputs = 0 := by
  refine hq.imp_right fun hzero => ?_
  have hle := h.pendingInputs_le
  omega

end CircuitWitness
