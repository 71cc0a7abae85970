import Mathlib.Data.List.Perm.Subperm
import CircuitWitness.Proofs.Life
import CircuitWitness.Proofs.Missing
/-
  Which inputs were counted, read off the trace.

  An input that was counted has a value, and it belongs to the component that counted it.  A body
  begins when as many inputs were counted as there are; so all of them were counted exactly if none
  was counted twice.  Together with the runs that write no input twice, this says when a body
  begins with all its inputs.
-/

namespace CircuitWitness

/-! ## Inputs of a component -/

/-- A signal is an input of a component. -/
def Computation.HasInput (c : Computation) (id : Handle) (signal : Nat) : Prop :=
  ∃ r shape, c.registry.get? id = some r ∧ c.circuit.templates.shape? r.template = some shape ∧
    signal ∈ List.range' (r.signalStart + shape.outputs) shape.inputs

namespace Computation

variable {c c' : Computation} {id : Handle} {signal : Nat}

theorem HasInput.ages (h : c.HasInput id signal) (hc : c'.circuit = c.circuit)
    (hages : c.registry.Ages c'.registry) : c'.HasInput id signal := by
  obtain ⟨r, shape, hr, hshape, hmem⟩ := h
  obtain ⟨r', hr', ha⟩ := hages id r hr
  refine ⟨r', shape, hr', ?_, ?_⟩
  · rw [hc, ha.template_eq]; exact hshape
  · rw [ha.start_eq]; exact hmem

theorem HasInput.of_inputSignal {l : Nat} (h : c.inputSignal id l = .ok signal) :
    c.HasInput id signal := by
  obtain ⟨r, shape, hr, hshape, hl, -, rfl⟩ := CircuitWitness.of_inputSignal h
  rw [TemplateShape.isInput_iff] at hl
  refine ⟨r, shape, hr, hshape, ?_⟩
  rw [List.mem_range'_1]
  omega

/-- Every input that the trace counts is one of its component and has a value. -/
def Noted (c : Computation) : Prop :=
  ∀ id signal n, Event.inputWritten id signal n ∈ c.trace.toList →
    c.HasInput id signal ∧ c.store.isWritten? signal = some true

theorem Noted.grow (h : c.Noted) (hc : c'.circuit = c.circuit)
    (hages : c.registry.Ages c'.registry) (hgrows : c.store.Grows c'.store)
    (hnew : ∀ id signal n, Event.inputWritten id signal n ∈ c'.trace.toList →
      Event.inputWritten id signal n ∈ c.trace.toList ∨
        c.HasInput id signal ∧ c'.store.isWritten? signal = some true) : c'.Noted := by
  intro id signal n hmem
  rcases hnew id signal n hmem with hold | ⟨hhas, hw⟩
  · obtain ⟨hhas, hw⟩ := h id signal n hold
    exact ⟨hhas.ages hc hages, hgrows signal hw⟩
  · exact ⟨hhas.ages hc hages, hw⟩

end Computation

theorem Trace.of_mem_record {t : Trace} {e e' : Event} (h : e' ∈ (t.record e).toList) :
    e' ∈ t.toList ∨ e' = e := by
  rw [toList_record] at h
  split at h
  · simpa using h
  · exact .inl h

/-- What is not the event that was recorded was there before. -/
theorem Trace.of_mem_record_ne {t : Trace} {e e' : Event} (h : e' ∈ (t.record e).toList)
    (hne : e' ≠ e) : e' ∈ t.toList := (of_mem_record h).resolve_right hne

/-- An input of the main component is counted when all main inputs have their values. -/
theorem Computation.MainFed.counted {c : Computation} (hmf : c.MainFed)
    (hmain : c.circuit.templates.shape? c.circuit.mainTemplate = some c.circuit.mainShape)
    (hq : (∃ c₀, Policy.ordinary.allows c₀ .runMain) ∨ c.pendingInputs = 0) {r : Component}
    (hr : c.registry.get? .mainComponent = some r) (ht : r.template = c.circuit.mainTemplate)
    (hs : r.signalStart = c.circuit.mainSignalStart) {i : Nat}
    (hi : i ∈ List.range' c.circuit.mainInputStart c.circuit.mainInputCount) :
    c.HasInput .mainComponent i ∧ c.store.isWritten? i = some true := by
  refine ⟨⟨r, c.circuit.mainShape, hr, by rw [ht]; exact hmain, by rw [hs]; exact hi⟩, ?_⟩
  rcases hq with ⟨c₀, -, hno⟩ | hz
  · exact absurd rfl hno
  · exact SignalStore.missing_eq_zero.mp (Nat.le_zero.mp (hz ▸ hmf)) i hi

/-- **Every step keeps what is noted true**, if the main component is run for its inputs only. -/
theorem Step.noted {m m' : Moment} (h : Step .ordinary m m')
    (hmain : m.state.circuit.templates.shape? m.state.circuit.mainTemplate
      = some m.state.circuit.mainShape)
    (hmf : m.state.MainFed) (hnoted : m.state.Noted) : m'.state.Noted := by
  have hages := h.ages
  have hgrows := h.grows
  refine hnoted.grow h.circuit_eq.1 hages hgrows fun id' i' n' hmem => ?_
  -- Only the four steps that count an input add an event of the kind in question.
  cases h with
  | keep | leave | note => exact .inl hmem
  | read | write | create | trigger | finish | release | assign =>
    exact .inl (Trace.of_mem_record_ne hmem (by simp))
  | createRun =>
    have hcreated := Trace.of_mem_record_ne hmem (by simp)
    exact .inl (Trace.of_mem_record_ne hcreated (by simp))
  | input hq hi hw =>
    rcases Trace.of_mem_record hmem with hold | he
    · exact .inl (Trace.of_mem_record_ne hold (by simp))
    · cases he
      exact .inr ⟨.of_inputSignal hi, SignalStore.isWritten?_write_self hw⟩
  | inputRun hq hi hw =>
    have harrived := Trace.of_mem_record_ne hmem (by simp)
    rcases Trace.of_mem_record harrived with hold | he
    · exact .inl (Trace.of_mem_record_ne hold (by simp))
    · cases he
      exact .inr ⟨.of_inputSignal hi, SignalStore.isWritten?_write_self hw⟩
  | account hq hr ht hs hp hn hi =>
    rcases Trace.of_mem_record hmem with hold | he
    · exact .inl hold
    · cases he
      exact .inr (hmf.counted hmain hq hr ht hs hi)
  | accountRun hq hr ht hs hp hb hi =>
    have harrived := Trace.of_mem_record_ne hmem (by simp)
    rcases Trace.of_mem_record harrived with hold | he
    · exact .inl hold
    · cases he
      exact .inr (hmf.counted hmain hq hr ht hs hi)
  | count hq => exact absurd rfl (hq.1 _)

/-! ## Counting -/

/-- The inputs that a trace counts for a component, in order and with repetitions. -/
def Trace.counted (t : Trace) (id : Handle) : List Nat :=
  t.toList.filterMap fun
    | .inputWritten other signal _ => if other = id then some signal else none
    | _ => none

theorem Trace.of_mem_counted {t : Trace} {id : Handle} {signal : Nat}
    (h : signal ∈ t.counted id) : ∃ n, Event.inputWritten id signal n ∈ t.toList := by
  obtain ⟨e, he, hsome⟩ := List.mem_filterMap.mp h
  cases e with
  | inputWritten other i n =>
    dsimp only at hsome
    split at hsome
    · rename_i hid
      cases hsome
      exact ⟨n, hid ▸ he⟩
    · cases hsome
  | _ => cases hsome

/-- The milestones that are inputs. -/
def Milestone.isInput : Milestone → Bool
  | .input _ => true
  | _ => false

/-- As many inputs are counted as the milestones show. -/
theorem Trace.length_counted (t : Trace) (id : Handle) :
    (t.counted id).length
      = ((t.eventsOf id).map Event.milestone?).countP (Option.any Milestone.isInput) := by
  unfold counted eventsOf
  rw [List.length_filterMap_eq_countP, List.countP_map, List.countP_filter]
  refine List.countP_congr fun e _ => ?_
  cases e <;> simp [Event.milestone?, Event.component?, Milestone.isInput]

/-- A component has passed as many inputs as it misses no longer. -/
theorem Component.countP_past (inputs : Nat) (r : Component) :
    ((r.past inputs).map some).countP (Option.any Milestone.isInput) = inputs - r.pending := by
  have hall : ∀ l : List Nat, (l.map Milestone.input).countP Milestone.isInput = l.length := by
    intro l
    rw [List.countP_map]
    exact List.countP_eq_length.mpr fun _ _ => rfl
  have hstage : r.stage.milestones.countP Milestone.isInput = 0 := by
    cases r.stage <;> rfl
  rw [List.countP_map]
  show (r.past inputs).countP Milestone.isInput = _
  unfold past
  rw [List.cons_append, List.countP_cons, List.countP_append, hall, hstage, List.length_reverse,
    List.length_range']
  simp [Milestone.isInput]

/-- A list of inputs, as many as there are, has them all exactly if it has none twice. -/
theorem covers_iff_nodup {l : List Nat} {start size : Nat}
    (hsub : l ⊆ List.range' start size) (hlen : l.length = size) :
    (∀ i ∈ List.range' start size, i ∈ l) ↔ l.Nodup := by
  have hrange : (List.range' start size).length = size := List.length_range'
  have honce : (List.range' start size).Nodup := List.nodup_range'
  constructor
  · intro hall
    have hperm := (honce.subperm hall).perm_of_length_le (by omega)
    exact hperm.nodup_iff.mp honce
  · intro hnodup
    have hperm := (hnodup.subperm hsub).perm_of_length_le (by omega)
    exact fun i hi => hperm.mem_iff.mpr hi

/-! ## Whole runs -/

section Runs

variable {α : Type} {levels : Nat} {p : Program α} {d : CircuitDescription} {circuit : Circuit}
  {config : Config} {m : Moment} {next : Option Request}

theorem Moment.noted_start (circuit : Circuit) (config : Config) :
    (Moment.start circuit config).state.Noted := by
  intro id signal n hmem
  unfold Moment.start Computation.start at hmem
  dsimp only at hmem
  split at hmem
  · cases hmem
  · rcases Trace.of_mem_record hmem with hold | he
    · cases hold
    · cases he

/-- At every moment of an ordinary run, what is noted is true. -/
theorem Program.Visits.noted (hv : p.Visits levels (.start circuit config) next m)
    (hd : d.accept = .ok circuit) (hfit : circuit.CountersFit)
    (hc : circuit.Only Request.Ordinary) (hp : p.Only Request.Ordinary) : m.state.Noted := by
  have hmain := (CircuitDescription.of_accept hd).2.1
  have hinputs := CircuitDescription.inputsFit hd
  have hpath : Path .ordinary (.start circuit config) m := hv.path (fun _ _ hq => hq) hc hp
  refine (hpath.keeps (I := fun m' => m'.state.circuit = circuit ∧ m'.state.MainFed ∧
    m'.state.Noted) ?_ ⟨rfl, Moment.mainFed_start config (hfit _ _ hmain),
      Moment.noted_start circuit config⟩).2.2
  rintro m₁ m₂ ⟨hcirc, hmf, hnoted⟩ hs
  exact ⟨hs.circuit_eq.1.trans hcirc, hs.mainFed (hcirc ▸ hinputs) hmf,
    hs.noted (hcirc ▸ hmain) hmf hnoted⟩

/-- At every moment of an ordinary run in which no input of a component is written twice, no more
    of them are missing than the component waits for. -/
theorem Program.Visits.fed (hv : p.Visits levels (.start circuit config) next m)
    (hd : d.accept = .ok circuit) (hfit : circuit.CountersFit)
    (hc : circuit.Only Request.Ordinary) (hp : p.Only Request.Ordinary) {id : Handle}
    (hfresh : ∀ q m', p.Visits levels (.start circuit config) (some q) m' →
      ¬ q.Rewrites id m'.state) : m.state.Fed id := by
  have hmain := (CircuitDescription.of_accept hd).2.1
  have hinputs := CircuitDescription.inputsFit hd
  have hup := Moment.upright_start circuit config
  have hpath : Path (.fresh id) (.start circuit config) m :=
    (Program.path_of_visits (π := .fresh id) levels p _ hup fun q m' hq =>
      ⟨hq.only hup hc hp q rfl, hfresh q m' hq⟩).2 next m hv
  have hstart : (Moment.start circuit config).state.Fed id := by
    intro r shape hr
    rw [show (Moment.start circuit config).state.registry.get? id = none from
      Registry.get?_empty _ _] at hr
    cases hr
  refine (hpath.keeps (I := fun m' => m'.state.circuit = circuit ∧ m'.state.MainFed ∧
    m'.state.Fed id) ?_ ⟨rfl, Moment.mainFed_start config (hfit _ _ hmain), hstart⟩).2.2
  rintro m₁ m₂ ⟨hcirc, hmf, hfed⟩ hs
  exact ⟨hs.circuit_eq.1.trans hcirc, hs.mainFed (hcirc ▸ hinputs) hmf,
    hs.fed (hcirc ▸ hfit) (hcirc ▸ hmain) hmf hfed⟩

/-- **When a body begins with all its inputs.**  A program acts on an accepted circuit from the
    start, and neither it nor any body counts an input or runs the main component by hand.  Take a
    component whose body has begun, at any moment of the run.

    * If no request of the run was about to write to an input of it that had a value already, then
      every input of it has a value.
    * If the trace is on, then the inputs that were counted for it have values, they are as many
      as it has inputs, and they are all its inputs exactly if none was counted twice. -/
theorem Program.Visits.begins_complete (hd : d.accept = .ok circuit)
    (hfit : circuit.CountersFit) (hc : circuit.Only Request.Ordinary)
    (hp : p.Only Request.Ordinary) (hv : p.Visits levels (.start circuit config) next m)
    {id : Handle} {r : Component} {shape : TemplateShape}
    (hr : m.state.registry.get? id = some r)
    (hshape : circuit.templates.shape? r.template = some shape) (hs : r.stage ≠ .created) :
    ((∀ q m', p.Visits levels (.start circuit config) (some q) m' → ¬ q.Rewrites id m'.state) →
      ∀ l, shape.isInput l = true → m.state.store.isWritten? (r.signalStart + l) = some true) ∧
    (config.recordTrace = true →
      (∀ i ∈ m.state.trace.counted id, m.state.store.isWritten? i = some true) ∧
      (m.state.trace.counted id).length = shape.inputs ∧
      ((∀ l, shape.isInput l = true → r.signalStart + l ∈ m.state.trace.counted id) ↔
        (m.state.trace.counted id).Nodup)) := by
  have hc' := hc.mono fun _ => Request.Ordinary.noCount
  have hp' := hp.mono fun _ => Request.Ordinary.noCount
  have hm : m.Regular := hv.regular hd hfit hc' hp'
  have hpath := hv.path_noCount hc' hp'
  have hcirc : m.state.circuit = circuit := hpath.circuit_eq.1
  have hset := hm.settled.records id r hr
  have hzero : r.pending = 0 := hset.agrees.mpr hs
  -- The inputs of the component, once by their places in the block and once by their signals.
  have hblock : ∀ P : Nat → Prop, (∀ l, shape.isInput l = true → P (r.signalStart + l)) ↔
      ∀ i ∈ List.range' (r.signalStart + shape.outputs) shape.inputs, P i := by
    intro P
    constructor
    · intro h i hi
      rw [List.mem_range'_1] at hi
      have hl := h (i - r.signalStart) (TemplateShape.isInput_iff.mpr (by omega))
      rwa [Nat.add_sub_cancel' (by omega)] at hl
    · intro h l hl
      rw [TemplateShape.isInput_iff] at hl
      exact h _ (List.mem_range'_1.mpr (by omega))
  refine ⟨fun hfresh => (hblock fun i => m.state.store.isWritten? i = some true).mpr ?_,
    fun hon => ?_⟩
  · have hfed := hv.fed hd hfit hc hp hfresh r shape hr (hcirc ▸ hshape)
    exact SignalStore.missing_eq_zero.mp (Nat.le_zero.mp (hzero ▸ hfed))
  · have hnoted := hv.noted hd hfit hc hp
    have hch : m.state.Chronicled := hpath.chronicled (Moment.settled_start circuit config) hfit
      (Moment.chronicled_start circuit hon)
    have hlen : (m.state.trace.counted id).length = shape.inputs := by
      rw [Trace.length_counted, (hch.stories id r hr).past shape (hcirc ▸ hshape),
        Component.countP_past, hzero, Nat.sub_zero]
    refine ⟨fun i hi => ?_, hlen, (hblock _).trans (covers_iff_nodup (fun i hi => ?_) hlen)⟩
    · obtain ⟨n, hmem⟩ := Trace.of_mem_counted hi
      exact (hnoted id i n hmem).2
    · obtain ⟨n, hmem⟩ := Trace.of_mem_counted hi
      obtain ⟨r', shape', hr', hshape', hin⟩ := (hnoted id i n hmem).1
      rw [hr] at hr'
      cases hr'
      rw [hcirc, hshape] at hshape'
      cases hshape'
      exact hin

end Runs

/-- The program of the small circuit writes each input once. -/
theorem relayProgram_fresh (q : Request) (m : Moment)
    (hv : relayProgram.Visits 2 (.start relay .diagnostic) (some q) m) :
    ¬ q.Rewrites ⟨0⟩ m.state := by
  have hcreated : (Request.create ⟨0⟩ ⟨0⟩ 1 "main" none).perform (enterWithin 2)
      (Moment.start relay .diagnostic).state = .ok () relayCreated := rfl
  have hwaiting : (Request.writeInput ⟨0⟩ 1 5).perform (enterWithin 2) relayCreated
      = .ok () relayWaiting := rfl
  -- Whatever a request made outside enters, the bodies write no inputs.
  have hbodies : ∀ (c : Computation) (q' : Request) (x : Entry), c.circuit = relay →
      c.active = none → Enters (enterWithin 2) (fun e => q'.perform e) c x →
      (x.body.program x.id).Visits 1 ⟨[x.id], x.state⟩ (some q) m → ¬ q.Rewrites ⟨0⟩ m.state := by
    intro c q' x hc hactive hx hv
    obtain ⟨hpath, hstarts⟩ := (Request.follows_any 2 q' (m := ⟨[], c⟩) hactive).2 x hx
    have hcirc : x.state.circuit = relay := hpath.circuit_eq.1.trans hc
    have hq := hv.only (hpath.upright hactive) (hcirc ▸ relay_bodies)
      (relay_bodies _ (hc ▸ hstarts.runs) _) q rfl
    rcases hq with ⟨_, _, _, _, _, _, rfl⟩ | ⟨_, _, rfl⟩ <;> exact not_false
  cases hv with
  | asks => exact not_false
  | inside hx hv => exact hbodies _ _ _ rfl rfl hx hv
  | refused h => rw [hcreated] at h; cases h
  | answered h hv =>
    rw [hcreated] at h
    cases h
    cases hv with
    | asks => rintro ⟨-, i, hi, hw⟩; cases hi; cases hw
    | inside hx hv => exact hbodies _ _ _ rfl rfl hx hv
    | refused h => rw [hwaiting] at h; cases h
    | answered h hv =>
      rw [hwaiting] at h
      cases h
      cases hv with
      | asks => rintro ⟨-, i, hi, hw⟩; cases hi; cases hw
      | inside hx hv => exact hbodies _ _ _ rfl rfl hx hv
      | refused h hv => cases hv
      | answered h hv => cases hv

/-- The main component of the small circuit begins with both its inputs. -/
theorem Program.Visits.begins_complete_relay :
    (∀ l, relay.mainShape.isInput l = true →
      relayInside.store.isWritten? (1 + l) = some true) ∧
    (relayInside.trace.counted ⟨0⟩).length = 2 ∧ (relayInside.trace.counted ⟨0⟩).Nodup := by
  have hr : relayInside.registry.get? ⟨0⟩
      = some { relayInside.mainRecord with pending := 0, stage := .running } := rfl
  have h := begins_complete accept_relay relay_fits relay_only relayProgram_only relay_visits hr
    rfl (by simp)
  exact ⟨h.1 relayProgram_fresh, (h.2 rfl).2.1, by decide⟩

/-- The main component of the small circuit, where the first input is written twice. -/
def relayTwice : Program Unit :=
  .ask (.create ⟨0⟩ ⟨0⟩ 1 "main" none) fun _ =>
  .ask (.writeInput ⟨0⟩ 1 5) fun _ =>
  .ask (.writeInput ⟨0⟩ 1 7) fun _ => .done ()

/-- The first input was counted twice, and the body of the main component begins. -/
def relayStarved : Computation := ((relayWaiting.wrote 2 7).arrived ⟨0⟩ 2 0).begun ⟨0⟩

/-- **A body can begin with an input missing**: where the first of two inputs is written twice, the
    body begins and the second input has no value. -/
theorem begins_without_input :
    relayDescription.accept = .ok relay ∧ relay.CountersFit ∧ relay.Only Request.Ordinary ∧
    relayTwice.Only Request.Ordinary ∧
    relayTwice.Visits 2 (.start relay .diagnostic)
      (some (.createChild ⟨0⟩ 0 ⟨1⟩ ⟨1⟩ 4 "main.pulse")) ⟨[⟨0⟩], relayStarved⟩ ∧
    relayStarved.registry.stage? ⟨0⟩ = some .running ∧
    relay.mainShape.isInput 2 = true ∧ relayStarved.store.isWritten? (1 + 2) = some false := by
  have hmain : Enters (enterWithin 2) (fun e => (Request.writeInput ⟨0⟩ 1 7).perform e)
      relayWaiting ⟨relayBody, ⟨0⟩, relayStarved⟩ :=
    .of_run fun e => (Action.writeInput_eq rfl rfl).trans
      ((Action.arrive_last rfl rfl).trans (Action.trigger_eq rfl))
  refine ⟨accept_relay, relay_fits, relay_only, ?_, ?_, by decide, by decide, by decide⟩
  · exact ⟨⟨fun _ => by simp, by simp⟩, fun _ => ⟨⟨fun _ => by simp, by simp⟩, fun _ =>
      ⟨⟨fun _ => by simp, by simp⟩, fun _ => trivial⟩⟩⟩
  · exact .answered (c := relayCreated) rfl
      (.answered (c := relayWaiting) rfl (.inside hmain .asks))

end CircuitWitness
