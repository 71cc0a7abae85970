import CircuitWitness.Proofs.Coverage
import CircuitWitness.Proofs.Settled
import CircuitWitness.Proofs.Store
/-
  Which inputs are missing when a body begins.

  The engine counts inputs as they are written, and it does not look whether the same input was
  written before.  So a body begins with all its inputs only if no input of its component is
  written twice.  The invariant compares two numbers: as long as no request writes to an input that
  has a value already, no more inputs of a component are without a value than it waits for.

  The main component is an exception, since its inputs are counted without being written.  They
  have their values when it is created over them, which is an invariant of its own.
-/

namespace CircuitWitness

/-- Values are never taken away. -/
theorem Step.grows {π : Policy} {m m' : Moment} (h : Step π m m') :
    m.state.store.Grows m'.state.store := by
  cases h with
  | write | input | inputRun | assign => exact SignalStore.grows_write _ _ _
  | _ => exact .refl _

/-! ## Main inputs -/

/-- No more main inputs are without a value than are still to be assigned. -/
def Computation.MainFed (c : Computation) : Prop :=
  c.store.missing c.circuit.mainInputStart c.circuit.mainInputCount ≤ c.pendingInputs

theorem Step.mainFed {π : Policy} {m m' : Moment} (h : Step π m m')
    (hfit : m.state.circuit.InputsFit) (hm : m.state.MainFed) : m'.state.MainFed := by
  have hgrows := h.grows.missing_le m.state.circuit.mainInputStart m.state.circuit.mainInputCount
  cases h with
  | @assign s c hash index i v hi hw =>
    -- Both numbers fall by one: the signal is a main input, and it had no value.
    obtain ⟨signal, hp, hs, hlt, rfl⟩ := Computation.of_inputSlot hi
    have hmem := hfit.slot_mem hs hlt
    have hless := SignalStore.missing_write (v := v) hmem hw
    have hm : c.store.missing c.circuit.mainInputStart c.circuit.mainInputCount
      ≤ c.pendingInputs := hm
    show (c.store.write _ v).missing c.circuit.mainInputStart c.circuit.mainInputCount
      ≤ c.pendingInputs - 1
    have hcirc : ({ stack := s, state := c } : Moment).state.circuit = c.circuit := rfl
    rw [hcirc] at hless
    omega
  | _ => exact Nat.le_trans hgrows hm

/-- At the start all main inputs are to be assigned. -/
theorem Moment.mainFed_start {circuit : Circuit} (config : Config)
    (hfit : circuit.mainShape.inputs < 2 ^ 32) : (Moment.start circuit config).state.MainFed := by
  show (SignalStore.missing _ circuit.mainInputStart circuit.mainShape.inputs)
    ≤ circuit.mainShape.inputCounter
  rw [TemplateShape.inputCounter_eq hfit]
  exact SignalStore.missing_le _ _ _

/-! ## Inputs that are written once -/

/-- A request writes to an input of a component that has a value already. -/
def Request.Rewrites (id : Handle) (c : Computation) : Request → Prop
  | .writeInput other l _ =>
    other = id ∧ ∃ i, c.inputSignal id l = .ok i ∧ c.store.isWritten? i = some true
  | .writeInputs other l vs =>
    other = id ∧ ∃ k < vs.length, ∃ i,
      c.inputSignal id (l + k) = .ok i ∧ c.store.isWritten? i = some true
  | _ => False

theorem inputSignal_eq {c : Computation} {id : Handle} {l : Nat} {r : Component}
    {shape : TemplateShape} (hr : c.registry.get? id = some r)
    (hshape : c.circuit.templates.shape? r.template = some shape) (hl : shape.isInput l = true)
    (hs : r.stage = .created) : c.inputSignal id l = .ok (r.signalStart + l) := by
  unfold Computation.inputSignal
  rw [Action.component_eq hr]
  simp [hshape, hl, hs]

/-- After one input of a row was written, the others go where they went before. -/
theorem of_inputSignal_arrived {c : Computation} {id : Handle} {l l' i j n : Nat} {v : Scalar}
    (hi : c.inputSignal id l = .ok i)
    (hj : ((c.wrote i v).arrived id i n).inputSignal id l' = .ok j) :
    c.inputSignal id l' = .ok j ∧ i + l' = j + l := by
  obtain ⟨r, -, hr, -, -, -, rfl⟩ := of_inputSignal hi
  obtain ⟨r', shape', hr', hshape', hl', hs', rfl⟩ := of_inputSignal hj
  have hset := Registry.sets_modify hr fun r => { r with pending := n }
  have hr'' : some { r with pending := n } = some r' := hset.self.symm.trans hr'
  cases hr''
  have hshape : c.circuit.templates.shape? r.template = some shape' := hshape'
  have hs : r.stage = .created := hs'
  have hgoes := inputSignal_eq hr hshape hl' hs
  refine ⟨hgoes, ?_⟩
  show r.signalStart + l + l' = r.signalStart + l' + l
  omega

theorem not_started_of_inputSignal {c : Computation} {id : Handle} {l i : Nat}
    (h : c.inputSignal id l = .ok i) : ¬ c.Started id := by
  obtain ⟨r, -, hr, -, -, hs, -⟩ := of_inputSignal h
  rintro ⟨r', hr', hs'⟩
  rw [hr] at hr'
  cases hr'
  exact hs' hs

/-- Ordinary requests may be made. -/
def Policy.ordinary : Policy where
  allows _ q := q.Ordinary
  first _ := ⟨fun _ => by simp, by simp⟩
  later _ _ := ⟨fun _ => by simp, by simp⟩
  started _ _ := ⟨fun _ => by simp, by simp⟩

/-- Ordinary requests may be made that do not write to an input of one component twice. -/
def Policy.fresh (id : Handle) : Policy where
  allows c q := q.Ordinary ∧ ¬ q.Rewrites id c
  first := by
    rintro c other l v vs ⟨-, hfresh⟩
    refine ⟨⟨fun _ => by simp, by simp⟩, ?_⟩
    rintro ⟨rfl, i, hi, hw⟩
    exact hfresh ⟨rfl, 0, by simp, i, hi, hw⟩
  later := by
    rintro c other l i n v vs ⟨-, hfresh⟩ hi
    refine ⟨⟨fun _ => by simp, by simp⟩, ?_⟩
    rintro ⟨rfl, k, hk, j, hj, hw⟩
    obtain ⟨hj', hij⟩ := of_inputSignal_arrived hi hj
    refine hfresh ⟨rfl, k + 1, by simpa using hk, j, ?_, ?_⟩
    · rw [← hj']
      congr 1
      omega
    · -- It is not the input that was just written.
      have hw : (c.store.write i v).isWritten? j = some true := hw
      rwa [SignalStore.isWritten?_write, if_neg (by omega)] at hw
  started := by
    rintro c c' other l v vs - hstarted
    refine ⟨⟨fun _ => by simp, by simp⟩, ?_⟩
    rintro ⟨rfl, k, -, i, hi, -⟩
    exact not_started_of_inputSignal hi hstarted

/-! ## Components with their inputs -/

/-- No more inputs of a component are without a value than it waits for. -/
def Computation.Fed (c : Computation) (id : Handle) : Prop :=
  ∀ r shape, c.registry.get? id = some r → c.circuit.templates.shape? r.template = some shape →
    c.store.missing (r.signalStart + shape.outputs) shape.inputs ≤ r.pending

theorem Registry.of_get?_modify {reg : Registry} {id other : Handle} {f : Component → Component}
    {r' : Component} (h : (reg.modify id f).get? other = some r') :
    ∃ r, reg.get? other = some r ∧ r' = if id = other then f r else r := by
  rw [get?_modify] at h
  by_cases he : id = other
  · subst he
    rw [if_pos rfl] at h
    obtain ⟨r, hr, rfl⟩ := Option.map_eq_some_iff.mp h
    exact ⟨r, hr, (if_pos rfl).symm⟩
  · rw [if_neg he] at h
    exact ⟨r', h, (if_neg he).symm⟩

namespace Computation.Fed

variable {c c' : Computation} {id : Handle}

/-- A component stays fed if it waits for as many inputs as before. -/
theorem advance (h : c.Fed id) (hc : c'.circuit = c.circuit) (hgrows : c.store.Grows c'.store)
    (hrec : ∀ r', c'.registry.get? id = some r' → ∃ r, c.registry.get? id = some r ∧
      r'.template = r.template ∧ r'.signalStart = r.signalStart ∧ r'.pending = r.pending) :
    c'.Fed id := by
  intro r' shape hr' hshape
  obtain ⟨r, hr, ht, hs, hp⟩ := hrec r' hr'
  rw [hc, ht] at hshape
  rw [hs, hp]
  exact Nat.le_trans (hgrows.missing_le _ _) (h r shape hr hshape)

/-- Changing a record but not what is known about its inputs. -/
theorem modify (h : c.Fed id) (hc : c'.circuit = c.circuit) (hgrows : c.store.Grows c'.store)
    {other : Handle} {f : Component → Component}
    (hreg : c'.registry = c.registry.modify other f) (hf : ∀ r, (f r).template = r.template ∧
      (f r).signalStart = r.signalStart ∧ (f r).pending = r.pending) : c'.Fed id := by
  refine h.advance hc hgrows fun r' hr' => ?_
  rw [hreg] at hr'
  obtain ⟨r, hr, rfl⟩ := Registry.of_get?_modify hr'
  refine ⟨r, hr, ?_⟩
  split
  · exact hf r
  · exact ⟨rfl, rfl, rfl⟩

/-- One record is replaced by another that is fed, too. -/
theorem set (h : c.Fed id) (hc : c'.circuit = c.circuit) (hgrows : c.store.Grows c'.store)
    {other : Handle} {r : Component} (hsets : c.registry.Sets c'.registry other r)
    (hr : other = id → ∀ shape, c.circuit.templates.shape? r.template = some shape →
      c'.store.missing (r.signalStart + shape.outputs) shape.inputs ≤ r.pending) : c'.Fed id := by
  by_cases he : other = id
  · intro r' shape hr' hshape
    rw [← he, hsets.self] at hr'
    cases hr'
    rw [hc] at hshape
    exact hr he shape hshape
  · refine h.advance hc hgrows fun r' hr' => ⟨r', ?_, rfl, rfl, rfl⟩
    rwa [hsets id, if_neg he] at hr'

end Computation.Fed

/-- A new component waits for all its inputs. -/
theorem fed_fresh {templates : TemplateTable} {t : TemplateId} {shape : TemplateShape}
    (ht : templates.shape? t = some shape) (hfit : shape.inputs < 2 ^ 32) (s : SignalStore)
    {shape' : TemplateShape} (ht' : templates.shape? t = some shape') (start : Nat) :
    s.missing (start + shape'.outputs) shape'.inputs ≤ shape.inputCounter := by
  rw [ht] at ht'
  cases ht'
  rw [TemplateShape.inputCounter_eq hfit]
  exact SignalStore.missing_le _ _ _

/-- A main component whose inputs are counted has them all. -/
theorem fed_main {c : Computation} (hfed : c.MainFed) (hzero : c.pendingInputs = 0)
    (hmain : c.circuit.templates.shape? c.circuit.mainTemplate = some c.circuit.mainShape)
    {r : Component} (ht : r.template = c.circuit.mainTemplate)
    (hs : r.signalStart = c.circuit.mainSignalStart) {shape : TemplateShape}
    (hshape : c.circuit.templates.shape? r.template = some shape) :
    c.store.missing (r.signalStart + shape.outputs) shape.inputs = 0 := by
  rw [ht, hmain] at hshape
  cases hshape
  rw [hs]
  exact Nat.le_zero.mp (hzero ▸ hfed)

theorem TemplateShape.isInput_iff {shape : TemplateShape} {l : Nat} :
    shape.isInput l = true ↔ shape.outputs ≤ l ∧ l < shape.outputs + shape.inputs := by
  unfold isInput inputStart inputEnd
  simp

/-- An input that is written for the first time leaves one fewer missing. -/
theorem fed_input {c : Computation} {id : Handle} {l i : Nat} {v : Scalar} {w : Bool}
    {r : Component} {shape : TemplateShape} (hfed : c.Fed id)
    (hfresh : ¬ (Request.writeInput id l v).Rewrites id c) (hi : c.inputSignal id l = .ok i)
    (hw : c.store.isWritten? i = some w) (hr : c.registry.get? id = some r)
    (hshape : c.circuit.templates.shape? r.template = some shape) :
    (c.store.write i v).missing (r.signalStart + shape.outputs) shape.inputs + 1 ≤ r.pending := by
  obtain ⟨r', shape', hr', hshape', hl, -, rfl⟩ := of_inputSignal hi
  rw [hr] at hr'
  cases hr'
  rw [hshape] at hshape'
  cases hshape'
  have hw : c.store.isWritten? (r.signalStart + l) = some false := by
    cases w with
    | false => exact hw
    | true => exact absurd ⟨rfl, _, hi, hw⟩ hfresh
  have hmem : r.signalStart + l ∈ List.range' (r.signalStart + shape.outputs) shape.inputs := by
    rw [List.mem_range'_1]
    rw [TemplateShape.isInput_iff] at hl
    omega
  exact Nat.le_trans (SignalStore.missing_write hmem hw) (hfed r shape hr hshape)

/-- **Every step keeps a component fed**, if no input of it is written twice. -/
theorem Step.fed {id : Handle} {m m' : Moment} (h : Step (.fresh id) m m')
    (hfit : m.state.circuit.CountersFit)
    (hmain : m.state.circuit.templates.shape? m.state.circuit.mainTemplate
      = some m.state.circuit.mainShape)
    (hmf : m.state.MainFed) (hfed : m.state.Fed id) : m'.state.Fed id := by
  have hgrows := h.grows
  -- The main component is not run by hand, so it runs when no main input is to come.
  have hzero : ∀ {c : Computation},
      ((∃ c₀, (Policy.fresh id).allows c₀ .runMain) ∨ c.pendingInputs = 0) →
        c.pendingInputs = 0 := by
    rintro c (⟨c₀, ⟨-, hno⟩, -⟩ | hz)
    · exact absurd rfl hno
    · exact hz
  cases h with
  | read | write | leave | assign | note =>
    exact hfed.advance rfl hgrows fun r hr => ⟨r, hr, rfl, rfl, rfl⟩
  | keep | trigger | finish | release =>
    exact hfed.modify rfl hgrows rfl fun _ => ⟨rfl, rfl, rfl⟩
  | create ht hr =>
    exact hfed.set rfl hgrows (Registry.sets_create hr) fun _ shape' ht' =>
      fed_fresh ht (hfit _ _ ht) _ ht' _
  | createRun ht hr =>
    have hsets := Registry.sets_create hr
    exact hfed.set rfl hgrows (hsets.trans (Registry.sets_modify hsets.self _)) fun _ shape' ht' =>
      fed_fresh ht (hfit _ _ ht) _ ht' _
  | @input s c other l i n v r w hq hi hw hr hp hn =>
    refine hfed.set rfl hgrows (Registry.sets_modify hr _) fun he shape hshape => ?_
    subst he
    have hless : (c.store.write i v).missing (r.signalStart + shape.outputs) shape.inputs + 1
        ≤ r.pending := fed_input hfed hq.2 hi hw hr hshape
    show (c.store.write i v).missing (r.signalStart + shape.outputs) shape.inputs ≤ n
    omega
  | @inputRun s c other l i v r w hq hi hw hr hp =>
    have hsets := Registry.sets_modify hr fun r => { r with pending := 0 }
    refine hfed.set rfl hgrows (hsets.trans (Registry.sets_modify hsets.self _))
      fun he shape hshape => ?_
    subst he
    have hless : (c.store.write i v).missing (r.signalStart + shape.outputs) shape.inputs + 1
        ≤ r.pending := fed_input hfed hq.2 hi hw hr hshape
    show (c.store.write i v).missing (r.signalStart + shape.outputs) shape.inputs ≤ 0
    omega
  | @account s c i n r hq hr ht hs hp =>
    refine hfed.set rfl hgrows (Registry.sets_modify hr _) fun _ shape hshape => ?_
    exact Nat.le_trans (Nat.le_of_eq (fed_main hmf (hzero hq) hmain ht hs hshape)) (Nat.zero_le _)
  | @accountRun s c i r _ hq hr ht hs hp =>
    have hsets := Registry.sets_modify hr fun r => { r with pending := 0 }
    refine hfed.set rfl hgrows (hsets.trans (Registry.sets_modify hsets.self _))
      fun _ shape hshape => ?_
    exact Nat.le_trans (Nat.le_of_eq (fed_main hmf (hzero hq) hmain ht hs hshape)) (Nat.zero_le _)
  | count hq => exact absurd rfl (hq.1.1 _)

end CircuitWitness
