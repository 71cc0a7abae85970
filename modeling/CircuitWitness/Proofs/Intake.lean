import CircuitWitness.Proofs.Coverage
import CircuitWitness.Proofs.Run
import CircuitWitness.Proofs.Store
/-
  How a calculation takes its inputs.

  The values of an assignment come one by one, name by name and index by index.  Whether the next
  one is taken depends on the ones taken before it and on nothing else, so `Circuit.intake` goes
  through them without a computation in sight: it tells which are taken, and what is wrong with the
  first that is not.  `Circuit.Taken` is the invariant that ties a computation to what it has taken
  so far: each element taken stands for a main input of its own, which holds its value, and no
  other signal has one but the constant one.

  The main component runs when the last main input is taken.  Whatever its body does, afterwards
  no main input is to come any more, so each further element is refused.
-/

namespace CircuitWitness

open CircuitWitness.Action

/-! ## Elements -/

/-- One value of an assignment, with the name of its input and its index there. -/
structure Element where
  name : String
  index : Nat
  value : Scalar

/-- The address of an element: the hash of the name, and the index. -/
def Element.address (x : Element) : UInt64 × Nat := (inputHash x.name, x.index)

/-- Some values of one input, from an index on. -/
def elementsFrom (name : String) : Nat → List Scalar → List Element
  | _, [] => []
  | index, v :: rest => ⟨name, index, v⟩ :: elementsFrom name (index + 1) rest

/-- All values of an assignment, entry by entry and index by index. -/
def InputValues.elements (a : InputValues) : List Element :=
  a.entries.flatMap fun entry => elementsFrom entry.1 0 entry.2

namespace Circuit

/-- What is wrong with an element when some others were taken before. -/
def offence? (circuit : Circuit) (taken : List Element) (x : Element) : Option Refusal :=
  match circuit.inputs.findName? x.name with
  | none => some (.unknownInputName x.name)
  | some s =>
    if taken.length = circuit.mainInputCount then some .allInputsAssigned
    else if s.size ≤ x.index then
      some (.inputIndexOutOfRange (inputHash x.name) x.index s.size)
    else if x.address ∈ taken.map Element.address then
      some (.inputAssignedTwice (inputHash x.name) x.index)
    else none

/-- Take elements in turn up to the first that is refused: those taken, and what is wrong with the
    one that is refused. -/
def intake (circuit : Circuit) (taken : List Element) :
    List Element → List Element × Option Refusal
  | [] => (taken, none)
  | x :: rest =>
    match circuit.offence? taken x with
    | some e => (taken, some e)
    | none => circuit.intake (taken ++ [x]) rest

/-- The signal that an element stands for. -/
def place (circuit : Circuit) (x : Element) : Nat :=
  match circuit.inputs.findName? x.name with
  | some s => circuit.slot s x.index
  | none => 0

/-- An element of a declared input. -/
def Declares (circuit : Circuit) (x : Element) : Prop :=
  ∃ s, circuit.inputs.findName? x.name = some s ∧ x.index < s.size

/-- A circuit that can take its inputs: what acceptance grants, and that the main input block is
    countable and lies inside the store. -/
structure Feedable (circuit : Circuit) : Prop where
  main : circuit.templates.shape? circuit.mainTemplate = some circuit.mainShape
  inputs : circuit.InputsFit
  components : circuit.totalComponents ≠ 0
  start : circuit.mainSignalStart ≠ 0
  counts : circuit.mainInputCount < 2 ^ 32
  inside : circuit.mainInputStart + circuit.mainInputCount ≤ circuit.totalSignals

theorem Feedable.of_accept {d : CircuitDescription} {circuit : Circuit}
    (hd : d.accept = .ok circuit) (hcounts : circuit.mainInputCount < 2 ^ 32)
    (hinside : circuit.mainInputStart + circuit.mainInputCount ≤ circuit.totalSignals) :
    circuit.Feedable := by
  obtain ⟨heq, hmain, hcheck⟩ := CircuitDescription.of_accept hd
  obtain ⟨hcomponents, hstart, -⟩ := CircuitDescription.of_check hcheck
  exact ⟨hmain, CircuitDescription.inputsFit hd, heq ▸ hcomponents, heq ▸ hstart, hcounts, hinside⟩

variable {circuit : Circuit} {taken : List Element} {x y : Element}

/-! ## Places -/

theorem place_eq {s : InputSignal} (hs : circuit.inputs.findName? x.name = some s) :
    circuit.place x = circuit.slot s x.index := by
  unfold place
  rw [hs]

/-- Every declared element stands for a main input. -/
theorem Feedable.place_mem (h : circuit.Feedable) (hx : circuit.Declares x) :
    circuit.place x ∈ List.range' circuit.mainInputStart circuit.mainInputCount := by
  obtain ⟨s, hs, hi⟩ := hx
  rw [place_eq hs]
  exact h.inputs.slot_mem hs hi

/-- It is a signal of the store, and not the constant one. -/
theorem Feedable.place_inside (h : circuit.Feedable) (hx : circuit.Declares x) :
    circuit.place x ≠ 0 ∧ circuit.place x < circuit.totalSignals := by
  have hmem := h.place_mem hx
  have hstart := h.start
  have hinside := h.inside
  rw [List.mem_range'_1] at hmem
  unfold mainInputStart at hmem hinside
  omega

/-- Different addresses, different places. -/
theorem Feedable.place_inj (h : circuit.Feedable) (hx : circuit.Declares x)
    (hy : circuit.Declares y) (he : circuit.place x = circuit.place y) :
    x.address = y.address := by
  obtain ⟨s, hs, hi⟩ := hx
  obtain ⟨s', hs', hi'⟩ := hy
  rw [place_eq hs, place_eq hs'] at he
  obtain ⟨hhash, hindex⟩ := h.inputs.slot_inj hs hs' hi hi' he
  unfold Element.address
  rw [hhash, hindex]

/-! ## Offences -/

/-- An element without fault is declared and new, and there is room for it. -/
theorem of_offence?_none (h : circuit.offence? taken x = none) : circuit.Declares x ∧
    taken.length ≠ circuit.mainInputCount ∧ x.address ∉ taken.map Element.address := by
  unfold offence? at h
  split at h
  · cases h
  rename_i s hs
  split at h
  · cases h
  rename_i hfull
  split at h
  · cases h
  rename_i hindex
  split at h
  · cases h
  rename_i hnew
  exact ⟨⟨s, hs, by omega⟩, hfull, hnew⟩

/-- Once all main inputs are taken, whatever comes is at fault. -/
theorem offence?_full (h : taken.length = circuit.mainInputCount) (x : Element) :
    ∃ e, circuit.offence? taken x = some e := by
  unfold offence?
  split
  · exact ⟨_, rfl⟩
  · rw [if_pos h]
    exact ⟨_, rfl⟩

/-- Elements of one address stand for one signal. -/
theorem place_congr (h : x.address = y.address) : circuit.place x = circuit.place y := by
  obtain ⟨hhash, hindex⟩ := Prod.ext_iff.mp h
  unfold place InputMap.findName?
  rw [show inputHash x.name = inputHash y.name from hhash, show x.index = y.index from hindex]

/-- The intake takes the elements up to the first that is at fault, and names its fault. -/
theorem intake_eq (circuit : Circuit) (l : List Element) : ∀ taken, ∃ rest,
    taken ++ l = (circuit.intake taken l).1 ++ rest ∧
    (circuit.intake taken l).2
      = rest.head?.bind (circuit.offence? (circuit.intake taken l).1) ∧
    ((circuit.intake taken l).2 = none → rest = []) := by
  induction l with
  | nil => intro taken; exact ⟨[], rfl, rfl, fun _ => rfl⟩
  | cons x l ih =>
    intro taken
    unfold intake
    split
    · rename_i e he
      exact ⟨x :: l, rfl, he.symm, fun h => nomatch h⟩
    · obtain ⟨rest, happend, hoffence, hnone⟩ := ih (taken ++ [x])
      exact ⟨rest, by rw [← happend, List.append_assoc]; rfl, hoffence, hnone⟩

/-- No more elements are taken than there are main inputs. -/
theorem intake_length (l : List Element) (h : taken.length ≤ circuit.mainInputCount) :
    (circuit.intake taken l).1.length ≤ circuit.mainInputCount := by
  induction l generalizing taken with
  | nil => exact h
  | cons x l ih =>
    unfold intake
    split
    · exact h
    · rename_i hnone
      obtain ⟨-, hroom, -⟩ := of_offence?_none hnone
      apply ih
      rw [List.length_append]
      show taken.length + 1 ≤ _
      omega

/-! ## What a computation has taken -/

/-- A computation in which some elements were assigned, and nothing else has happened. -/
structure Taken (circuit : Circuit) (config : Config) (taken : List Element) (c : Computation) :
    Prop where
  circuit_eq : c.circuit = circuit
  config_eq : c.config = config
  registry : c.registry = Registry.empty circuit.totalComponents
  active : c.active = none
  pending : c.pendingInputs + taken.length = circuit.mainInputCount
  declares : ∀ x ∈ taken, circuit.Declares x
  once : (taken.map Element.address).Nodup
  size : c.store.size = circuit.totalSignals
  one : c.store.read? 0 = some 1
  values : ∀ x ∈ taken, c.store.read? (circuit.place x) = some x.value
  written : ∀ i, c.store.isWritten? i = some true ↔ i = 0 ∨ ∃ x ∈ taken, circuit.place x = i

variable {config : Config} {c : Computation} {enter : Enter} {e : Refusal}

theorem taken_start (hf : circuit.Feedable) (config : Config) :
    circuit.Taken config [] (.start circuit config) := by
  have hsize : 0 < (SignalStore.allocate circuit.totalSignals).size := by
    have hstart := hf.start
    have hinside := hf.inside
    unfold mainInputStart at hinside
    rw [SignalStore.size_allocate]
    omega
  refine ⟨rfl, rfl, rfl, rfl, TemplateShape.inputCounter_eq hf.counts, by simp, .nil, ?_, ?_,
    by simp, fun i => ?_⟩
  · show ((SignalStore.allocate circuit.totalSignals).write 0 1).size = _
    rw [SignalStore.size_write, SignalStore.size_allocate]
  · show ((SignalStore.allocate circuit.totalSignals).write 0 1).read? 0 = _
    rw [SignalStore.read?_write, if_pos rfl, if_pos hsize]
  · show ((SignalStore.allocate circuit.totalSignals).write 0 1).isWritten? i = _ ↔ _
    rw [SignalStore.isWritten?_write]
    by_cases hi : 0 = i
    · rw [if_pos hi, if_pos hsize]
      simp [← hi]
    · rw [if_neg hi]
      simp [SignalStore.isWritten?_allocate_ne, Ne.symm hi]

/-! ## One element -/

/-- When no main input is to come, an element is refused for what is wrong with it. -/
theorem assignByName_full (hc : c.circuit = circuit) (hp : c.pendingInputs = 0)
    (hfull : taken.length = circuit.mainInputCount) (ho : circuit.offence? taken x = some e) :
    assignByName enter x.name x.index x.value c = .error (.refused e) c := by
  unfold offence? at ho
  subst hc
  split at ho
  · rename_i hnone
    cases ho
    exact assignByName_unknown hnone
  · rename_i s hs
    rw [if_pos hfull] at ho
    cases ho
    rw [assignByName_known hs]
    apply assignByHash_refused
    unfold Computation.inputSlot
    rw [if_pos hp]

namespace Taken

theorem pendingInputs_eq (h : circuit.Taken config taken c) :
    c.pendingInputs = circuit.mainInputCount - taken.length := by
  have hpending := h.pending
  omega

theorem inputSlot_eq (h : circuit.Taken config taken c) {s : InputSignal}
    (hs : circuit.inputs.findName? x.name = some s) (hp : c.pendingInputs ≠ 0)
    (hi : x.index < s.size) :
    c.inputSlot (inputHash x.name) x.index = .ok (circuit.place x) := by
  unfold Computation.inputSlot
  rw [if_neg hp, h.circuit_eq, show circuit.inputs.find? (inputHash x.name) = some s from hs]
  show (if s.size ≤ x.index then _ else _) = _
  rw [if_neg (by omega), place_eq hs]
  rfl

/-- An element at fault is refused for its fault, and nothing changes. -/
theorem refuse (h : circuit.Taken config taken c)
    (ho : circuit.offence? taken x = some e) :
    assignByName enter x.name x.index x.value c = .error (.refused e) c := by
  by_cases hfull : taken.length = circuit.mainInputCount
  · exact assignByName_full h.circuit_eq (by rw [h.pendingInputs_eq]; omega) hfull ho
  have hp : c.pendingInputs ≠ 0 := by
    have hpending := h.pending
    omega
  unfold offence? at ho
  split at ho
  · rename_i hnone
    cases ho
    exact assignByName_unknown (h.circuit_eq ▸ hnone)
  rename_i s hs
  rw [assignByName_known (h.circuit_eq ▸ hs)]
  rw [if_neg hfull] at ho
  split at ho
  · rename_i hindex
    cases ho
    apply assignByHash_refused
    unfold Computation.inputSlot
    rw [if_neg hp, h.circuit_eq, show circuit.inputs.find? (inputHash x.name) = some s from hs]
    exact if_pos hindex
  rename_i hindex
  split at ho
  · rename_i htwice
    cases ho
    -- The element that has the address was given its value, at the same signal.
    obtain ⟨y, hy, haddress⟩ := List.mem_map.mp htwice
    have hwritten := (h.written (circuit.place x)).mpr (.inr ⟨y, hy, place_congr haddress⟩)
    exact assignByHash_twice (h.inputSlot_eq hs hp (by omega)) hwritten
  · cases ho

/-- The signal of a new element has no value yet. -/
theorem unwritten (h : circuit.Taken config taken c) (hf : circuit.Feedable)
    (hx : circuit.Declares x) (hnew : x.address ∉ taken.map Element.address) :
    c.store.isWritten? (circuit.place x) = some false := by
  obtain ⟨hzero, hlt⟩ := hf.place_inside hx
  obtain ⟨w, hw⟩ := SignalStore.isWritten?_of_lt (h.size.symm ▸ hlt)
  cases w with
  | false => exact hw
  | true =>
    exfalso
    rcases (h.written _).mp hw with h0 | ⟨y, hy, hplace⟩
    · exact hzero h0
    · apply hnew
      rw [← hf.place_inj (h.declares y hy) hx hplace]
      exact List.mem_map_of_mem hy

/-- Assigning a new element adds it to what was taken. -/
theorem assigned (h : circuit.Taken config taken c) (hf : circuit.Feedable)
    (hx : circuit.Declares x) (hroom : taken.length ≠ circuit.mainInputCount)
    (hnew : x.address ∉ taken.map Element.address) :
    circuit.Taken config (taken ++ [x]) (c.assigned (circuit.place x) x.value) := by
  obtain ⟨hzero, hlt⟩ := hf.place_inside hx
  have hsize : circuit.place x < c.store.size := h.size.symm ▸ hlt
  -- An element taken before stands for another signal.
  have hne : ∀ y ∈ taken, circuit.place x ≠ circuit.place y := by
    intro y hy he
    apply hnew
    rw [hf.place_inj hx (h.declares y hy) he]
    exact List.mem_map_of_mem hy
  refine ⟨h.circuit_eq, h.config_eq, h.registry, h.active, ?_, ?_, ?_, ?_, ?_, ?_, ?_⟩
  · have hpending := h.pending
    have hlength : (taken ++ [x]).length = taken.length + 1 := List.length_append
    show c.pendingInputs - 1 + (taken ++ [x]).length = circuit.mainInputCount
    omega
  · intro y hy
    rcases List.mem_append.mp hy with hy | hy
    · exact h.declares y hy
    · rw [List.mem_singleton.mp hy]
      exact hx
  · rw [List.map_append, List.nodup_append]
    refine ⟨h.once, List.pairwise_singleton _ _, ?_⟩
    rintro a ha b hb rfl
    exact hnew (List.mem_singleton.mp hb ▸ ha)
  · exact (SignalStore.size_write ..).trans h.size
  · show (c.store.write _ _).read? 0 = _
    rw [SignalStore.read?_write, if_neg hzero]
    exact h.one
  · intro y hy
    show (c.store.write _ _).read? _ = _
    rw [SignalStore.read?_write]
    rcases List.mem_append.mp hy with hy | hy
    · rw [if_neg (hne y hy)]
      exact h.values y hy
    · rw [List.mem_singleton.mp hy, if_pos rfl, if_pos hsize]
  · intro i
    show (c.store.write _ _).isWritten? i = _ ↔ _
    rw [SignalStore.isWritten?_write]
    by_cases hi : circuit.place x = i
    · rw [if_pos hi, if_pos hsize]
      exact ⟨fun _ => .inr ⟨x, by simp, hi⟩, fun _ => rfl⟩
    · rw [if_neg hi, h.written i]
      simp [hi]

/-- An element without fault is taken, and the last one runs the main component. -/
theorem take (h : circuit.Taken config taken c) (hf : circuit.Feedable)
    (ho : circuit.offence? taken x = none) :
    circuit.Taken config (taken ++ [x]) (c.assigned (circuit.place x) x.value) ∧
    ∀ enter, assignByName enter x.name x.index x.value c
      = if (taken ++ [x]).length = circuit.mainInputCount
        then runMain enter (c.assigned (circuit.place x) x.value)
        else .ok () (c.assigned (circuit.place x) x.value) := by
  obtain ⟨hx, hroom, hnew⟩ := of_offence?_none ho
  refine ⟨h.assigned hf hx hroom hnew, fun enter => ?_⟩
  have hwritten := h.unwritten hf hx hnew
  have hpending := h.pending
  have hlength : (taken ++ [x]).length = taken.length + 1 := List.length_append
  obtain ⟨s, hs, hindex⟩ := hx
  rw [assignByName_known (h.circuit_eq ▸ hs),
    assignByHash_ok (h.inputSlot_eq hs (by omega) hindex) hwritten]
  by_cases hlast : (taken ++ [x]).length = circuit.mainInputCount
  · rw [if_pos hlast, if_pos (by omega)]
  · rw [if_neg hlast, if_neg (by omega)]

end Taken
end Circuit
end CircuitWitness
