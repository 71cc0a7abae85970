import CircuitWitness.Error
/-
  The registry: one record for every component that was created, found by its handle.

  The circuit declares how many handles there are, and each is used at most once: `create` refuses
  a handle beyond the declared ones first, and a handle already in use second.  Records are
  changed in place and never removed.
-/

namespace CircuitWitness

/-- What is known about one component. -/
structure Component where
  template : TemplateId
  /-- Global index of the component's first signal. -/
  signalStart : Nat
  /-- Inputs that have not arrived yet. -/
  pending : Nat
  /-- Handles of the children, by slot; a slot without a child is empty. -/
  slots : Array (Option Handle)
  parent : Option Handle
  /-- Name for messages, such as `main.arr.mult[2]`. -/
  label : String
  stage : Stage
deriving DecidableEq, Inhabited

/-- A component as it is created: no child yet, all inputs outstanding. -/
def Component.fresh (template : TemplateId) (signalStart inputs slots : Nat) (label : String)
    (parent : Option Handle) : Component where
  template := template
  signalStart := signalStart
  pending := inputs
  slots := Array.replicate slots none
  parent := parent
  label := label
  stage := .created

/-- The components of a computation, by handle. -/
structure Registry where
  records : Array (Option Component)
deriving DecidableEq, Inhabited

namespace Registry

/-- A registry for `capacity` handles, none of them in use. -/
def empty (capacity : Nat) : Registry := ⟨Array.replicate capacity none⟩

/-- The number of declared handles. -/
def capacity (r : Registry) : Nat := r.records.size

/-- The component with a given handle. -/
def get? (r : Registry) (id : Handle) : Option Component := r.records[id.index]?.join

/-- Change the record of a component; an unused handle is left alone. -/
def modify (r : Registry) (id : Handle) (f : Component → Component) : Registry :=
  ⟨r.records.modify id.index (Option.map f)⟩

/-- Enter a new component under its handle. -/
def create (r : Registry) (id : Handle) (c : Component) : Except GraphDefect Registry :=
  if r.capacity ≤ id.index then .error (.componentOutOfRange r.capacity)
  else if (r.get? id).isSome then .error .duplicateComponent
  else .ok ⟨r.records.setIfInBounds id.index (some c)⟩

/-- The stage of a component. -/
def stage? (r : Registry) (id : Handle) : Option Stage :=
  (r.get? id).map Component.stage

/-- The name of a component for messages; an unused handle gets a stand-in. -/
def label (r : Registry) (id : Handle) : String :=
  match r.get? id with
  | some c => c.label
  | none => "<component " ++ id.display ++ ">"

/-- How many components were created. -/
def created (r : Registry) : Nat := r.records.countP Option.isSome

/-- All components with their handles, in the order of the handles. -/
def toList (r : Registry) : List (Handle × Component) :=
  r.records.toList.zipIdx.filterMap fun (slot, i) => slot.map fun c => (⟨i⟩, c)

/-! ## Small laws -/

@[simp] theorem capacity_modify (r : Registry) (id : Handle) (f : Component → Component) :
    (r.modify id f).capacity = r.capacity := by simp [modify, capacity]

/-- A change reaches the component it is meant for and no other. -/
theorem get?_modify (r : Registry) (id other : Handle) (f : Component → Component) :
    (r.modify id f).get? other = if id = other then (r.get? id).map f else r.get? other := by
  simp only [modify, get?, Array.getElem?_modify]
  by_cases h : id = other
  · subst h; cases r.records[id.index]? <;> simp
  · have : id.index ≠ other.index := fun e => h (by cases id; cases other; simp_all)
    simp [h, this]

end Registry
end CircuitWitness
