import CircuitWitness.Proofs.InputBlock
import CircuitWitness.Proofs.Missing
/-
  The protocol of main inputs cannot be over-run.

  A single assignment is looked at first.  It makes four checks before it changes anything, and what
  it changes then is one signal and the counter (`Computation.Takes`); only if the counter has come
  to zero does it do more, and that is to run the main component.

  A whole run is looked at through its ledger: the assignments that were accepted on the way, each
  with the counter as it stood before.  Calls may be nested, since the main component's body and
  bodies that run earlier can assign inputs themselves, and bodies may write main inputs without
  assigning them.  None of this matters: no step but an assignment touches the counter, and none
  takes a value away.  So the counters in a ledger count down from the first one without a gap, and
  no signal occurs twice.
-/

namespace CircuitWitness

open CircuitWitness.Action

variable {α : Type} {π : Policy} {enter : Enter} {c c' : Computation} {m m' : Moment}

/-! ## One assignment -/

/-- The four checks that an assignment makes. -/
inductive Refusal.OfAssignment (hash : UInt64) (index : Nat) : Refusal → Prop
  | complete : OfAssignment hash index .allInputsAssigned
  | unknown : OfAssignment hash index (.unknownInput hash)
  | outside (size : Nat) : OfAssignment hash index (.inputIndexOutOfRange hash index size)
  | twice : OfAssignment hash index (.inputAssignedTwice hash index)

/-- A main input without a value is given one: its signal is written, the counter falls by one, the
    write is recorded, and that is all. -/
structure Computation.Takes (c c' : Computation) (i : Nat) (v : Scalar) : Prop where
  input : i ∈ List.range' c.circuit.mainInputStart c.circuit.mainInputCount
  unwritten : c.store.isWritten? i = some false
  value : c'.store.get? i = some v
  others : ∀ j, j ≠ i → c'.store.get? j = c.store.get? j
  pending : c'.pendingInputs + 1 = c.pendingInputs
  trace : c'.trace = c.trace.record (.signalWritten i)
  rest : c' = { c with store := c'.store, pendingInputs := c'.pendingInputs, trace := c'.trace }

/-- An accepted address takes its value. -/
theorem Computation.takes_assigned (hfit : c.circuit.InputsFit) {hash : UInt64} {index i : Nat}
    (hi : c.inputSlot hash index = .ok i) (hw : c.store.isWritten? i = some false) (v : Scalar) :
    c.Takes (c.assigned i v) i v := by
  obtain ⟨s, hpos, hs, hindex, hslot⟩ := Computation.of_inputSlot hi
  refine ⟨hslot ▸ hfit.slot_mem hs hindex, hw,
    SignalStore.get?_write_self v (SignalStore.lt_of_isWritten? hw),
    fun j hj => SignalStore.get?_write_ne v (Ne.symm hj), ?_, rfl, rfl⟩
  show c.pendingInputs - 1 + 1 = c.pendingInputs
  omega

theorem Computation.inputSlot_refuses {hash : UInt64} {index : Nat} {e : Refusal}
    (h : c.inputSlot hash index = .error e) : e.OfAssignment hash index := by
  unfold Computation.inputSlot at h
  split at h
  · cases h; exact .complete
  split at h
  · cases h; exact .unknown
  split at h <;> cases h
  exact .outside _

/-- **An assignment is refused or taken.**  If it is refused, nothing has changed and no body was
    entered.  If it is taken, it does nothing more, or it was the last one and runs the main
    component. -/
theorem assignByHash_cases (h : c.Roomy) (hash : UInt64) (index : Nat) (v : Scalar) :
    (∃ e : Refusal, e.OfAssignment hash index ∧
      ∀ enter, assignByHash enter hash index v c = .error (.refused e) c) ∨
    ∃ i, c.inputSlot hash index = .ok i ∧ c.store.isWritten? i = some false ∧
      c.Takes (c.assigned i v) i v ∧
      ∀ enter, assignByHash enter hash index v c
        = if c.pendingInputs = 1 then runMain enter (c.assigned i v)
          else .ok () (c.assigned i v) := by
  cases hi : c.inputSlot hash index with
  | error e => exact .inl ⟨e, Computation.inputSlot_refuses hi, fun _ => assignByHash_refused hi⟩
  | ok i =>
    obtain ⟨w, hw⟩ := SignalStore.isWritten?_of_lt (h.lt_size hi)
    cases w with
    | true => exact .inl ⟨_, .twice, fun _ => assignByHash_twice hi hw⟩
    | false =>
      have htakes := Computation.takes_assigned h.fits hi hw v
      refine .inr ⟨i, rfl, hw, htakes, fun enter => ?_⟩
      -- The counter was not zero, so it is zero afterwards just if it was one.
      have hpending := htakes.pending
      have hlast : (c.pendingInputs - 1 = 0) = (c.pendingInputs = 1) := propext (by omega)
      rw [assignByHash_ok hi hw]
      simp only [hlast]

/-! ## Ledgers -/

/-- A main input that was assigned: its signal, and how many main inputs were to come before. -/
structure Assignment where
  signal : Nat
  awaited : Nat
deriving DecidableEq

/-- A path, with the assignments that were accepted on it, in order. -/
inductive Ledger (π : Policy) (m : Moment) : List Assignment → Moment → Prop
  | refl : Ledger π m [] m
  /-- An assignment is accepted. -/
  | assigns {l : List Assignment} {s : List Handle} {c : Computation} {hash : UInt64}
      {index i : Nat} {v : Scalar} (h : Ledger π m l ⟨s, c⟩) (hi : c.inputSlot hash index = .ok i)
      (hw : c.store.isWritten? i = some false) :
      Ledger π m (l ++ [⟨i, c.pendingInputs⟩]) ⟨s, c.assigned i v⟩
  /-- Something else happens. -/
  | goes {l : List Assignment} {m₁ m₂ : Moment} (h : Ledger π m l m₁) (hs : Step π m₁ m₂)
      (hsame : m₂.state.pendingInputs = m₁.state.pendingInputs) : Ledger π m l m₂

/-- Nothing but an assignment touches the counter. -/
theorem Step.assigns_or_same (h : Step π m m') :
    (∃ s c hash index i v, m = ⟨s, c⟩ ∧ m' = ⟨s, c.assigned i v⟩ ∧
      c.inputSlot hash index = .ok i ∧ c.store.isWritten? i = some false) ∨
    m'.state.pendingInputs = m.state.pendingInputs := by
  cases h with
  | assign hi hw => exact .inl ⟨_, _, _, _, _, _, rfl, rfl, hi, hw⟩
  | _ => exact .inr rfl

/-- Every path has a ledger. -/
theorem Path.ledger (h : Path π m m') : ∃ l, Ledger π m l m' := by
  induction h with
  | refl => exact ⟨[], .refl⟩
  | tail _ hs ih =>
    obtain ⟨l, hl⟩ := ih
    rcases hs.assigns_or_same with ⟨s, c, hash, index, i, v, rfl, rfl, hi, hw⟩ | hsame
    · exact ⟨_, hl.assigns hi hw⟩
    · exact ⟨l, hl.goes hs hsame⟩

theorem Ledger.path {l : List Assignment} (h : Ledger π m l m') : Path π m m' := by
  induction h with
  | refl => exact .refl
  | assigns _ hi hw ih => exact ih.tail (.assign hi hw)
  | goes _ hs _ ih => exact ih.tail hs

/-- The assignments that were accepted, when so many main inputs were to come at first: they are of
    different main inputs, which have their values now; and the counters that they found count down
    to what is still to come. -/
structure Computation.Ledgered (c : Computation) (n : Nat) (l : List Assignment) : Prop where
  total : l.length + c.pendingInputs = n
  countdown : l.map Assignment.awaited = (List.range l.length).map (n - ·)
  inputs : ∀ a ∈ l, a.signal ∈ List.range' c.circuit.mainInputStart c.circuit.mainInputCount
  written : ∀ a ∈ l, c.store.isWritten? a.signal = some true
  nodup : (l.map Assignment.signal).Nodup

namespace Computation.Ledgered

variable {n : Nat} {l : List Assignment}

/-- The signal that is assigned had no value, so it is not in the ledger yet. -/
theorem assign (h : c.Ledgered n l) {i : Nat} {v : Scalar} (ht : c.Takes (c.assigned i v) i v) :
    (c.assigned i v).Ledgered n (l ++ [⟨i, c.pendingInputs⟩]) := by
  have hpending := ht.pending
  have htotal := h.total
  have hgrows : c.store.Grows (c.assigned i v).store := SignalStore.grows_write _ _ _
  have hnew : i ∉ l.map Assignment.signal := by
    intro hi
    obtain ⟨a, ha, rfl⟩ := List.mem_map.mp hi
    cases (h.written a ha).symm.trans ht.unwritten
  refine ⟨?_, ?_, fun a ha => ?_, fun a ha => ?_, ?_⟩
  · rw [List.length_append, List.length_singleton]
    omega
  · have hlast : c.pendingInputs = n - l.length := by omega
    rw [List.map_append, h.countdown, List.length_append, List.length_singleton,
      List.range_succ, List.map_append, List.map_singleton, List.map_singleton, hlast]
  · rcases List.mem_append.mp ha with ha | ha
    · exact h.inputs a ha
    · rw [List.mem_singleton.mp ha]
      exact ht.input
  · rcases List.mem_append.mp ha with ha | ha
    · exact hgrows _ (h.written a ha)
    · rw [List.mem_singleton.mp ha]
      exact (SignalStore.get?_eq_some.mp ht.value).1
  · rw [List.map_append, List.map_singleton]
    refine List.nodup_append.mpr ⟨h.nodup, List.nodup_singleton i, fun a ha b hb he => ?_⟩
    have hbi : b = i := List.mem_singleton.mp hb
    exact hnew (hbi ▸ he ▸ ha)

/-- What leaves the counter alone adds nothing to the ledger, and values stay. -/
theorem go (h : c.Ledgered n l) (hc : c'.circuit = c.circuit) (hgrows : c.store.Grows c'.store)
    (hsame : c'.pendingInputs = c.pendingInputs) : c'.Ledgered n l :=
  ⟨hsame ▸ h.total, h.countdown, hc ▸ h.inputs, fun a ha => hgrows _ (h.written a ha), h.nodup⟩

/-- The counters that were found are different ones, and none of them was zero. -/
theorem awaited (h : c.Ledgered n l) :
    (l.map Assignment.awaited).Nodup ∧ ∀ a ∈ l, a.awaited ≠ 0 := by
  have htotal := h.total
  constructor
  · rw [h.countdown]
    refine List.Nodup.map_on (fun j hj k hk he => ?_) List.nodup_range
    rw [List.mem_range] at hj hk
    omega
  · intro a ha hzero
    have hmem : a.awaited ∈ (List.range l.length).map (n - ·) :=
      h.countdown ▸ List.mem_map_of_mem ha
    obtain ⟨k, hk, he⟩ := List.mem_map.mp hmem
    rw [List.mem_range] at hk
    omega

end Computation.Ledgered

/-- **Every ledger is in order**: one lemma for an accepted assignment, and one for all other
    steps. -/
theorem Ledger.ledgered {l : List Assignment} (h : Ledger π m l m')
    (hfit : m.state.circuit.InputsFit) : m'.state.Ledgered m.state.pendingInputs l := by
  induction h with
  | refl => exact ⟨Nat.zero_add _, rfl, by simp, by simp, List.nodup_nil⟩
  | @assigns l s c hash index i v hl hi hw ih =>
    have hc : c.circuit = m.state.circuit := hl.path.circuit_eq.1
    exact ih.assign (Computation.takes_assigned (hc ▸ hfit) hi hw v)
  | goes _ hs hsame ih => exact ih.go hs.circuit_eq.1 hs.grows hsame

/-! ## The theorem -/

/-- **The input protocol is atomic and cannot be over-run.**  Take an accepted circuit whose main
    inputs lie inside the store, and any moment of any run on it, inside bodies or not.

    * An assignment of a main input is refused by one of its four checks, and then everything is as
      before and no body was entered; or it is taken.  If it was not the last one, it ends there;
      if it was, the counter is zero, and what follows is the run of the main component.
    * What is taken goes into the ledger of the run, and the run goes on from there.
    * Every run has a ledger.  There are no more assignments in it than main inputs, all of
      different main inputs; none of them found the counter at zero, and at most one found it at
      one and started the main component. -/
theorem Program.Visits.inputs_protocol {levels : Nat} {p : Program α} {d : CircuitDescription}
    {circuit : Circuit} {config : Config} {m : Moment} {next : Option Request}
    (hd : d.accept = .ok circuit) (hinside : circuit.InputsInside)
    (hv : p.Visits levels (.start circuit config) next m) :
    (∀ (below : Nat) (hash : UInt64) (index : Nat) (v : Scalar),
      (∃ e : Refusal, e.OfAssignment hash index ∧
        (Request.assignByHash hash index v).perform (enterWithin below) m.state
          = .error (.refused e) m.state ∧
        ∀ x, ¬ Enters (enterWithin below)
          (fun en => (Request.assignByHash hash index v).perform en) m.state x) ∨
      ∃ i c', m.state.Takes c' i v ∧
        (m.state.pendingInputs ≠ 1 →
          (Request.assignByHash hash index v).perform (enterWithin below) m.state = .ok () c') ∧
        (m.state.pendingInputs = 1 → c'.pendingInputs = 0 ∧
          (Request.assignByHash hash index v).perform (enterWithin below) m.state
            = Request.runMain.perform (enterWithin below) c') ∧
        ∀ l, Ledger .any (.start circuit config) l m →
          Ledger .any (.start circuit config) (l ++ [⟨i, m.state.pendingInputs⟩]) ⟨m.stack, c'⟩) ∧
    (∃ l, Ledger .any (.start circuit config) l m) ∧
    ∀ l, Ledger .any (.start circuit config) l m →
      l.length ≤ circuit.mainInputCount ∧
      l.length + m.state.pendingInputs = circuit.mainShape.inputCounter ∧
      (l.map Assignment.signal).Nodup ∧
      (∀ a ∈ l, a.signal ∈ List.range' circuit.mainInputStart circuit.mainInputCount ∧
        m.state.store.isWritten? a.signal = some true ∧ a.awaited ≠ 0) ∧
      (l.map Assignment.awaited).count 1 ≤ 1 := by
  have hpath : Path .any (.start circuit config) m :=
    hv.path_any (Moment.upright_start circuit config)
  have hroomy : m.state.Roomy := hpath.roomy (Computation.roomy_start hd hinside)
  have hfit : circuit.InputsFit := CircuitDescription.inputsFit hd
  refine ⟨fun below hash index v => ?_, hpath.ledger, fun l hl => ?_⟩
  · rcases assignByHash_cases hroomy hash index v with ⟨e, he, hact⟩ | ⟨i, hi, hw, ht, hact⟩
    · exact .inl ⟨e, he, hact _, fun _ => not_enters fun _ _ => (hact _).trans (hact _).symm⟩
    · refine .inr ⟨i, _, ht, fun hne => ?_, fun hone => ⟨?_, ?_⟩, fun l hl => hl.assigns hi hw⟩
      · exact (hact _).trans (if_neg hne)
      · have hpending := ht.pending
        omega
      · exact (hact _).trans (if_pos hone)
  · have hledger := hl.ledgered hfit
    have htotal : l.length + m.state.pendingInputs = circuit.mainShape.inputCounter := hledger.total
    have hcirc : m.state.circuit = circuit := hpath.circuit_eq.1
    have hcount : circuit.mainShape.inputCounter ≤ circuit.mainInputCount := Nat.mod_le _ _
    obtain ⟨hnodup, hpos⟩ := hledger.awaited
    refine ⟨by omega, htotal, hledger.nodup, fun a ha => ⟨?_, hledger.written a ha, hpos a ha⟩,
      List.nodup_iff_count_le_one.mp hnodup 1⟩
    have hinput := hledger.inputs a ha
    rw [hcirc] at hinput
    exact hinput

/-- The first main input of the small circuit is assigned, and one is still to come. -/
def relayHalf : Computation := (Computation.start relay .diagnostic).assigned 2 5

theorem relayHalf_visits : (Program.ask (.assignByHash (inputHash "in") 0 5) fun _ =>
    .done ()).Visits 2 (.start relay .diagnostic) none ⟨[], relayHalf⟩ := by
  have hi : (Computation.start relay .diagnostic).inputSlot (inputHash "in") 0 = .ok 2 := by
    have hfind : (Computation.start relay .diagnostic).circuit.inputs.find? (inputHash "in")
        = some ⟨"in", 0, 2⟩ := Circuit.relay_findName
    unfold Computation.inputSlot
    rw [if_neg (by decide), hfind]
    rfl
  exact .answered (c := relayHalf) ((assignByHash_ok hi rfl).trans (if_neg (by decide))) .done

/-- In the small circuit's run there is one assignment so far, and the next one is the last. -/
theorem Program.Visits.inputs_protocol_relay :
    relayDescription.accept = .ok relay ∧ relay.InputsInside ∧ relayHalf.pendingInputs = 1 ∧
    (∃ l, Ledger .any (.start relay .diagnostic) l ⟨[], relayHalf⟩) ∧
    ∀ l, Ledger .any (.start relay .diagnostic) l ⟨[], relayHalf⟩ →
      l.length = 1 ∧ ∀ a ∈ l, a.signal = 2 ∨ a.signal = 3 := by
  have hinside : relay.InputsInside := CircuitDescription.inputsInside accept_relay (by decide)
  obtain ⟨-, hledger, hall⟩ := inputs_protocol accept_relay hinside relayHalf_visits
  refine ⟨accept_relay, hinside, by decide, hledger, fun l hl => ?_⟩
  obtain ⟨-, htotal, -, hinputs, -⟩ := hall l hl
  have hpending : relayHalf.pendingInputs = 1 := by decide
  have hcounter : relay.mainShape.inputCounter = 2 := by decide
  refine ⟨by simp only [hpending, hcounter] at htotal; omega, fun a ha => ?_⟩
  have hmem : a.signal ∈ List.range' 2 2 := (hinputs a ha).1
  rw [List.mem_range'_1] at hmem
  omega

end CircuitWitness
