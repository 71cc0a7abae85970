import CircuitWitness.Proofs.Effect
/-
  How the main component starts.

  The main component is created when its inputs are all in the store already.  Counting them does
  nothing but count, up to the last one; so creating the main component over its inputs comes to
  the same as bringing it to the state with no input missing (`Computation.ready`) and beginning
  its body there, also if it has no inputs at all.
-/

namespace CircuitWitness

/-! ## Accepted circuits -/

/-- What `accept` has checked. -/
theorem CircuitDescription.of_accept {d : CircuitDescription} {circuit : Circuit}
    (h : d.accept = .ok circuit) :
    circuit.toCircuitDescription = d ∧
    circuit.templates.shape? circuit.mainTemplate = some circuit.mainShape ∧
    d.check circuit.mainShape = .ok () := by
  unfold accept at h
  split at h
  · cases h
  split at h
  · cases h
  rename_i main hmain
  split at h
  · cases h
  rename_i hcheck
  injection h with h
  subst h
  exact ⟨rfl, hmain, hcheck⟩

/-! ## Counting the inputs of the main component -/

namespace Computation

/-- Some inputs of the main component are counted, the last ones that it misses. -/
def awaited : Computation → List Nat → Computation
  | c, [] => c
  | c, signal :: rest => (c.arrived .mainComponent signal rest.length).awaited rest

/-- The main component as it is created. -/
def mainRecord (c : Computation) : Component :=
  Component.fresh c.circuit.mainTemplate c.circuit.mainSignalStart c.circuit.mainShape.inputCounter
    c.circuit.mainShape.slots "main" none

/-- The main component is created and its inputs are counted, but it has not begun. -/
def ready (c : Computation) (reg : Registry) : Computation :=
  (c.enrolled reg .mainComponent c.circuit.mainTemplate).awaited
    (List.range' c.circuit.mainInputStart c.circuit.mainInputCount)

/-- Counting touches the registry and the trace, and nothing else. -/
theorem awaited_frame (signals : List Nat) (c : Computation) :
    (c.awaited signals).store = c.store ∧ (c.awaited signals).circuit = c.circuit ∧
    (c.awaited signals).config = c.config ∧ (c.awaited signals).active = c.active ∧
    (c.awaited signals).pendingInputs = c.pendingInputs := by
  induction signals generalizing c with
  | nil => exact ⟨rfl, rfl, rfl, rfl, rfl⟩
  | cons signal rest ih => exact ih (c.arrived .mainComponent signal rest.length)

theorem sets_awaited (signals : List Nat) {c : Computation} {r : Component}
    (hr : c.registry.get? .mainComponent = some r) (hp : r.pending = signals.length) :
    c.registry.Sets (c.awaited signals).registry .mainComponent { r with pending := 0 } := by
  induction signals generalizing c r with
  | nil =>
    intro other
    have hzero : ({ r with pending := 0 } : Component) = r := by rw [← show r.pending = 0 from hp]
    rw [hzero]
    show c.registry.get? other = _
    split
    · rename_i he
      rw [← he, hr]
    · rfl
  | cons signal rest ih =>
    have hsets := Registry.sets_modify hr fun r => { r with pending := rest.length }
    exact hsets.trans (ih (c := c.arrived .mainComponent signal rest.length)
      (r := { r with pending := rest.length }) hsets.self rfl)

/-- When the main component is about to begin, it is the only new component and misses no input. -/
theorem sets_ready {c : Computation} {reg : Registry}
    (hfit : c.circuit.mainShape.inputs < 2 ^ 32)
    (hr : c.registry.create .mainComponent c.mainRecord = .ok reg) :
    c.registry.Sets (c.ready reg).registry .mainComponent { c.mainRecord with pending := 0 } := by
  have hsets := Registry.sets_create hr
  refine hsets.trans (sets_awaited _ (c := c.enrolled reg _ _) hsets.self ?_)
  rw [List.length_range']
  exact TemplateShape.inputCounter_eq hfit

end Computation

namespace Action

variable {enter : Enter} {c : Computation}

theorem bind_return {x : Action Unit} : (x >>= fun _ => return ()) c = x c := by
  cases h : x c with
  | ok u c' => exact bind_ok h
  | error f c' => exact bind_error h

/-- Counting all missing inputs ends with the start of the body. -/
theorem arriveAll_eq {signals : List Nat} {r : Component} (hne : signals ≠ [])
    (hr : c.registry.get? .mainComponent = some r) (hp : r.pending = signals.length) :
    arriveAll enter signals c = trigger enter .mainComponent (c.awaited signals) := by
  induction signals generalizing c r with
  | nil => exact absurd rfl hne
  | cons signal rest ih =>
    -- The last input begins the body; every one before it is only counted.
    by_cases hrest : rest = []
    · subst hrest
      exact bind_return.trans (arrive_last hr hp)
    · have hwait : arrive enter .mainComponent signal c = _ :=
        arrive_waiting hr hp (by simpa using hrest)
      have hnext := Registry.sets_modify hr fun r => { r with pending := rest.length }
      show (arrive enter .mainComponent signal >>= fun _ => arriveAll enter rest) c = _
      rw [bind_ok hwait]
      exact ih (c := c.arrived .mainComponent signal rest.length) hrest hnext.self rfl

/-- The main component is created, or its handle is refused. -/
theorem runMain_refused {d : GraphDefect}
    (ht : c.circuit.templates.shape? c.circuit.mainTemplate = some c.circuit.mainShape)
    (hr : c.registry.create .mainComponent c.mainRecord = .error d) :
    runMain enter c = .error (.refused (c.defect .mainComponent d)) c := by
  unfold runMain
  rw [get_bind]
  exact bind_error (create_refused ht hr)

/-- Running the main component is beginning its body, once all its inputs are counted. -/
theorem runMain_eq {reg : Registry}
    (ht : c.circuit.templates.shape? c.circuit.mainTemplate = some c.circuit.mainShape)
    (hfit : c.circuit.mainShape.inputs < 2 ^ 32)
    (hr : c.registry.create .mainComponent c.mainRecord = .ok reg) :
    runMain enter c = trigger enter .mainComponent (c.ready reg) := by
  have hget := (Registry.sets_create hr).self
  have hcreate : create enter .mainComponent c.circuit.mainTemplate c.circuit.mainSignalStart
      "main" none c = _ := create_ok ht hr
  show (create enter .mainComponent c.circuit.mainTemplate c.circuit.mainSignalStart "main" none
    >>= fun _ => arriveAll enter
      (List.range' c.circuit.mainInputStart c.circuit.mainShape.inputs)) c = _
  unfold Computation.ready Circuit.mainInputCount
  by_cases hn : c.circuit.mainShape.inputs = 0
  · rw [if_pos hn] at hcreate
    rw [hn]
    exact bind_return.trans hcreate
  · rw [if_neg hn] at hcreate
    rw [bind_ok hcreate]
    refine arriveAll_eq (fun hnil => hn ?_) hget ?_
    · simpa using congrArg List.length hnil
    · rw [List.length_range']
      exact TemplateShape.inputCounter_eq hfit

/-- With all inputs counted, the main component can start. -/
theorem startable_ready {reg : Registry}
    (ht : c.circuit.templates.shape? c.circuit.mainTemplate = some c.circuit.mainShape)
    (hfit : c.circuit.mainShape.inputs < 2 ^ 32)
    (hr : c.registry.create .mainComponent c.mainRecord = .ok reg) :
    ∃ body, (c.ready reg).startable .mainComponent = .ok body := by
  obtain ⟨body, hb⟩ := TemplateTable.body?_of_shape? ht c.config.useAlternate
  obtain ⟨-, hc, hconf, -⟩ := Computation.awaited_frame
    (List.range' c.circuit.mainInputStart c.circuit.mainInputCount)
    (c.enrolled reg .mainComponent c.circuit.mainTemplate)
  refine ⟨body, startable_eq (Computation.sets_ready hfit hr).self rfl rfl ?_⟩
  show (c.ready reg).circuit.templates.body? c.circuit.mainTemplate _ = some body
  unfold Computation.ready
  rw [hc, hconf]
  exact hb

end Action
end CircuitWitness
