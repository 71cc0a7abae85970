import Mathlib.Data.List.Induction
import CircuitWitness.Proofs.Counted
import CircuitWitness.Proofs.Tally
/-
  The trace determines the state.

  The state of a computation and its trace are two accounts of the same thing, kept by different
  lines of the engine.  Three paths write signals and two count inputs, and each has to tell the
  trace.  `Computation.Faithful` says that they agree where the trace is about signals and about
  how many components there are; that they agree about each component is in the stories of
  `Computation.Chronicled`.

  Reads are judged against the front of the trace: an event that shows a read says whether the
  signal had been written, and it is right if it is right about the events before it.  So the early
  reads are those that come before the first write to their signal.
-/

namespace CircuitWitness

variable {π : Policy}

/-! ## What can be read off a trace -/

/-- The template of a component that an event shows to be created. -/
def Event.template? : Event → Option TemplateId
  | .created _ t => some t
  | _ => none

/-- The stage that an event takes its component to. -/
def Event.stage? : Event → Option Stage
  | .created _ _ => some .created
  | .triggered _ => some .running
  | .finished _ => some .finished
  | .released _ => some .released
  | _ => none

/-- The signal that an event shows to be read. -/
def Event.read? : Event → Option Nat
  | .signalRead i _ => some i
  | _ => none

/-- The templates for which a component was created, in order. -/
def Trace.creations (t : Trace) (id : Handle) : List TemplateId :=
  (t.eventsOf id).filterMap Event.template?

/-- The stage to which the last event takes a component that takes it to one. -/
def Trace.stage? (t : Trace) (id : Handle) : Option Stage :=
  ((t.eventsOf id).filterMap Event.stage?).getLast?

/-- The signals that were read while the events before the read show no write to them, in the
    order of the reads. -/
def Trace.readsWithoutWrite (t : Trace) : List Nat :=
  (List.range t.toList.length).filterMap fun k =>
    (t.toList[k]?.bind Event.read?).filter fun i => Event.signalWritten i ∉ t.toList.take k

/-! ## Components -/

/-- The stage that a milestone takes a component to. -/
def Milestone.stage? : Milestone → Option Stage
  | .created => some .created
  | .input _ => none
  | .triggered => some .running
  | .finished => some .finished
  | .released => some .released

theorem Event.stage?_eq (e : Event) : e.stage? = e.milestone?.bind Milestone.stage? := by
  cases e <;> rfl

/-- What is not a creation shows no template. -/
theorem Event.template?_eq_none {e : Event} (h : e.milestone? ≠ some .created) :
    e.template? = none := by
  cases e with
  | created => exact absurd rfl h
  | _ => rfl

/-- The last milestone that has a stage is the one for the stage of the record. -/
theorem Component.getLast?_past (inputs : Nat) (r : Component) :
    ((r.past inputs).filterMap Milestone.stage?).getLast? = some r.stage := by
  have hinputs : ∀ l : List Nat, (l.map Milestone.input).filterMap Milestone.stage? = [] := by
    intro l
    rw [List.filterMap_map]
    exact List.filterMap_eq_nil_iff.mpr fun _ _ => rfl
  unfold past
  rw [List.filterMap_append, List.filterMap_cons, hinputs]
  cases r.stage <;> rfl

/-- Nothing but the first milestone is a creation. -/
theorem Component.count_past (inputs : Nat) (r : Component) :
    (r.past inputs).count .created = 1 := by
  have hstage : r.stage.milestones.count .created = 0 := by
    cases r.stage <;> rfl
  unfold past
  rw [List.count_append, List.count_cons_self, Milestone.count_inputs .created nofun, hstage]

namespace Component.Story

variable {templates : TemplateTable} {id : Handle} {r : Component} {events : List Event}
  {shape : TemplateShape}

/-- A component is created once, with its template. -/
theorem creations (h : r.Story templates id events)
    (hshape : templates.shape? r.template = some shape) :
    events.filterMap Event.template? = [r.template] := by
  obtain ⟨rest, rfl⟩ := List.head?_eq_some_iff.mp h.head
  have hcount : ((Event.created id r.template :: rest).map Event.milestone?).count (some .created)
      = 1 := by
    rw [h.past shape hshape, List.count_map_of_injective _ some fun _ _ h => Option.some.inj h,
      Component.count_past]
  have hzero : (rest.map Event.milestone?).count (some .created) = 0 := by
    rw [List.map_cons, Event.milestone?, List.count_cons_self] at hcount
    omega
  have hrest : rest.filterMap Event.template? = [] := by
    refine List.filterMap_eq_nil_iff.mpr fun e he => Event.template?_eq_none fun hc => ?_
    exact List.count_eq_zero.mp hzero (List.mem_map.mpr ⟨e, he, hc⟩)
  rw [List.filterMap_cons, hrest]
  rfl

/-- The last event with a stage shows the stage of the component. -/
theorem getLast?_stage (h : r.Story templates id events)
    (hshape : templates.shape? r.template = some shape) :
    (events.filterMap Event.stage?).getLast? = some r.stage := by
  have hfilter : events.filterMap Event.stage?
      = (events.map Event.milestone?).filterMap fun o => o.bind Milestone.stage? := by
    rw [List.filterMap_map]
    exact List.filterMap_congr fun e _ => e.stage?_eq
  rw [hfilter, h.past shape hshape, List.filterMap_map]
  exact Component.getLast?_past shape.inputs r

end Component.Story

/-- As many inputs arrived as the milestones show. -/
theorem Trace.arrivals_eq (t : Trace) (id : Handle) : t.arrivals id
    = ((t.eventsOf id).map Event.milestone?).countP (Option.any Milestone.isInput) := by
  unfold arrivals eventsOf
  rw [List.countP_map, List.countP_filter]
  refine List.countP_congr fun e _ => ?_
  cases e <;> simp [Event.milestone?, Event.component?, Milestone.isInput]

/-! ## Signals -/

/-- Each event that shows a read says whether an event before it shows a write to the signal. -/
def Truthful (events : List Event) : Prop :=
  ∀ k i w, events[k]? = some (.signalRead i w) → (w = true ↔ .signalWritten i ∈ events.take k)

/-- Whether an event is a creation. -/
def Event.isCreation : Event → Bool
  | .created _ _ => true
  | _ => false

/-- The trace is right about the signals, and about how many components were created. -/
structure Computation.Faithful (c : Computation) : Prop where
  enabled : c.trace.enabled = true
  written : ∀ i, c.store.isWritten? i = some true ↔ .signalWritten i ∈ c.trace.toList
  reads : Truthful c.trace.toList
  created : c.registry.created = c.trace.toList.countP Event.isCreation

theorem Truthful.append {l l' : List Event} (h : Truthful l)
    (h' : ∀ e ∈ l', ∀ i w, e ≠ .signalRead i w) : Truthful (l ++ l') := by
  intro k i w hk
  rcases Nat.lt_or_ge k l.length with hlt | hge
  · rw [List.getElem?_append_left hlt] at hk
    rw [List.take_append_of_le_length (Nat.le_of_lt hlt)]
    exact h k i w hk
  · rw [List.getElem?_append_right hge] at hk
    exact absurd rfl (h' _ (List.mem_of_getElem? hk) i w)

/-- A read at the end, which says what is true of the events before it. -/
theorem Truthful.concat {l : List Event} (h : Truthful l) {i : Nat} {w : Bool}
    (hw : w = true ↔ .signalWritten i ∈ l) : Truthful (l ++ [.signalRead i w]) := by
  intro k j w' hk
  rcases Nat.lt_or_ge k l.length with hlt | hge
  · rw [List.getElem?_append_left hlt] at hk
    rw [List.take_append_of_le_length (Nat.le_of_lt hlt)]
    exact h k j w' hk
  · obtain ⟨hlast, -⟩ := List.getElem?_eq_some_iff.mp hk
    obtain rfl : k = l.length := by
      rw [List.length_append, List.length_singleton] at hlast
      omega
    rw [List.getElem?_concat_length] at hk
    cases hk
    rw [List.take_left]
    exact hw

/-- What is selected from a list, place by place. -/
theorem filterMap_eq_range {α β : Type} (l : List α) (f : α → Option β) :
    l.filterMap f = (List.range l.length).filterMap fun k => l[k]?.bind f := by
  induction l using List.reverseRecOn with
  | nil => rfl
  | append_singleton l a ih =>
    rw [List.filterMap_append, ih, List.length_append, List.length_singleton, List.range_succ,
      List.filterMap_append]
    congr 1
    · refine List.filterMap_congr fun k hk => ?_
      rw [List.getElem?_append_left (List.mem_range.mp hk)]
    · rw [List.filterMap_cons, List.filterMap_cons, List.getElem?_concat_length]
      rfl

/-- Where every read is right, those that say that nothing was written are those without a write
    before them. -/
theorem Trace.earlyReads_eq {t : Trace} (h : Truthful t.toList) :
    t.earlyReads = t.readsWithoutWrite := by
  unfold earlyReads readsWithoutWrite
  rw [filterMap_eq_range]
  refine List.filterMap_congr fun k _ => ?_
  cases hk : t.toList[k]? with
  | none => rfl
  | some e =>
    cases e with
    | signalRead i w =>
      have htrue := h k i w hk
      show _ = Option.filter _ (some i)
      rw [Option.filter_some]
      cases w with
      | false =>
        have hno : Event.signalWritten i ∉ t.toList.take k :=
          fun hin => by simpa using htrue.mpr hin
        rw [if_pos (by simpa using hno)]
        rfl
      | true =>
        have hin : Event.signalWritten i ∈ t.toList.take k := htrue.mp rfl
        rw [if_neg (by simpa using hin)]
        rfl
    | _ => rfl

namespace Registry

variable {reg reg' : Registry} {id : Handle} {r : Component}

theorem created_modify (reg : Registry) (id : Handle) (f : Component → Component) :
    (reg.modify id f).created = reg.created := by
  rw [created_eq_tally, created_eq_tally]
  exact tally_modify fun _ _ => rfl

theorem created_create (h : reg.create id r = .ok reg') : reg'.created = reg.created + 1 := by
  rw [created_eq_tally, created_eq_tally]
  exact tally_create h _

end Registry

namespace Computation.Faithful

variable {c c' : Computation} {block : List Event}

/-- More events, none of which shows a read. -/
theorem extend (h : c.Faithful) (hx : c.trace.Extends c'.trace block)
    (hwritten : ∀ i, c'.store.isWritten? i = some true ↔
      c.store.isWritten? i = some true ∨ .signalWritten i ∈ block)
    (hcreated : c'.registry.created = c.registry.created + block.countP Event.isCreation)
    (hreads : ∀ e ∈ block, ∀ i w, e ≠ .signalRead i w) : c'.Faithful := by
  obtain ⟨hen, hlist⟩ := hx h.enabled
  refine ⟨hen, fun i => ?_, ?_, ?_⟩
  · rw [hwritten i, h.written i, hlist, List.mem_append]
  · rw [hlist]
    exact h.reads.append hreads
  · rw [hcreated, h.created, hlist, List.countP_append]

/-- An event about a component that exists. -/
theorem recorded (h : c.Faithful) {e : Event}
    (he : (e.component?.isSome && !e.isCreation) = true) : (c.recorded e).Faithful := by
  refine h.extend (Trace.extends_record _ _) (fun i => ⟨.inl, fun h => h.resolve_right ?_⟩) ?_ ?_
  · rintro hin
    rw [← List.mem_singleton.mp hin] at he
    cases he
  · have hnot : e.isCreation = false := by
      cases hc : e.isCreation with
      | false => rfl
      | true => simp [hc] at he
    show c.registry.created = c.registry.created + [e].countP Event.isCreation
    rw [List.countP_singleton, hnot]
    rfl
  · rintro e' he' i w rfl
    rw [← List.mem_singleton.mp he'] at he
    cases he

/-- A record is altered. -/
theorem modified (h : c.Faithful) (id : Handle) (f : Component → Component) :
    (c.modified id f).Faithful :=
  ⟨h.enabled, h.written, h.reads, (Registry.created_modify ..).trans h.created⟩

/-- What neither the store nor the registry nor the trace shows. -/
theorem frame (h : c.Faithful) (hstore : c'.store = c.store) (hreg : c'.registry = c.registry)
    (htrace : c'.trace = c.trace) : c'.Faithful := by
  obtain ⟨hen, hwritten, hreads, hcreated⟩ := h
  refine ⟨?_, ?_, ?_, ?_⟩
  · rw [htrace]; exact hen
  · rw [htrace, hstore]; exact hwritten
  · rw [htrace]; exact hreads
  · rw [htrace, hreg]; exact hcreated

/-- A signal is written. -/
theorem wrote (h : c.Faithful) {i : Nat} {w : Bool} (hw : c.store.isWritten? i = some w)
    (v : Scalar) : (c.wrote i v).Faithful := by
  refine h.extend (Trace.extends_record _ _) (fun j => ?_) rfl (by simp)
  show (c.store.write i v).isWritten? j = some true ↔ _
  rw [SignalStore.isWritten?_write]
  by_cases he : i = j
  · subst he
    rw [if_pos rfl, if_pos (SignalStore.lt_of_isWritten? hw)]
    simp
  · simp [he, Ne.symm he]

/-- A signal is read. -/
theorem read (h : c.Faithful) {i : Nat} {w : Bool} (hw : c.store.isWritten? i = some w) :
    (c.recorded (.signalRead i w)).Faithful := by
  obtain ⟨hen, hlist⟩ := Trace.extends_record c.trace (.signalRead i w) h.enabled
  refine ⟨hen, fun j => ?_, ?_, ?_⟩
  · show c.store.isWritten? j = some true ↔ _ ∈ (c.trace.record _).toList
    rw [hlist, List.mem_append, h.written j]
    simp
  · show Truthful (c.trace.record _).toList
    rw [hlist]
    refine h.reads.concat ?_
    rw [← h.written i, hw]
    simp
  · show c.registry.created = (c.trace.record _).toList.countP _
    rw [hlist, List.countP_append]
    exact h.created

/-- A component is created. -/
theorem enrolled (h : c.Faithful) {reg : Registry} {id : Handle} {r : Component}
    (hr : c.registry.create id r = .ok reg) (t : TemplateId) : (c.enrolled reg id t).Faithful := by
  refine h.extend (Trace.extends_record _ _) (fun i => ?_) ?_ (by simp)
  · show c.store.isWritten? i = some true ↔ _
    simp
  · exact Registry.created_create hr

theorem arrived (h : c.Faithful) (id : Handle) (i n : Nat) : (c.arrived id i n).Faithful :=
  (h.modified id _).recorded rfl

theorem begun (h : c.Faithful) (id : Handle) : (c.begun id).Faithful :=
  ((h.modified id _).recorded rfl).frame rfl rfl rfl

theorem ended (h : c.Faithful) (id : Handle) (caller : Option Handle) :
    (c.ended id caller).Faithful := by
  have hleft : (c.left caller).Faithful := h.frame rfl rfl rfl
  exact (hleft.modified id _).recorded rfl

theorem dropped (h : c.Faithful) (id : Handle) : (c.dropped id).Faithful :=
  (h.modified id _).recorded rfl

end Computation.Faithful

/-- **Every step is told to the trace as it is.** -/
theorem Step.faithful {m m' : Moment} (h : Step π m m') (hm : m.state.Faithful) :
    m'.state.Faithful := by
  cases h with
  | read hw => exact hm.read hw
  | write hw => exact hm.wrote hw _
  | keep | count => exact hm.modified _ _
  | create ht hr => exact hm.enrolled hr _
  | createRun ht hr => exact (hm.enrolled hr _).begun _
  | input hq hi hw => exact (hm.wrote hw _).arrived _ _ _
  | inputRun hq hi hw => exact ((hm.wrote hw _).arrived _ _ _).begun _
  | account => exact hm.arrived _ _ _
  | accountRun => exact (hm.arrived _ _ _).begun _
  | trigger => exact hm.begun _
  | finish => exact hm.ended _ _
  | release => exact hm.dropped _
  | assign hi hw => exact (hm.wrote hw _).frame rfl rfl rfl
  | leave | note => exact hm.frame rfl rfl rfl

theorem Path.faithful {m m' : Moment} (h : Path π m m') (hm : m.state.Faithful) :
    m'.state.Faithful :=
  h.keeps (I := fun m => m.state.Faithful) (fun _ _ hi hs => hs.faithful hi) hm

/-- At the start nothing was written but the constant one, if there is any signal. -/
theorem Moment.faithful_start (circuit : Circuit) {config : Config}
    (hon : config.recordTrace = true) : (Moment.start circuit config).state.Faithful := by
  have hcreated : (Registry.empty circuit.totalComponents).created = 0 := by
    rw [Registry.created_eq_tally, Registry.tally_empty]
  have hblank : ∀ i, (SignalStore.allocate circuit.totalSignals).isWritten? i ≠ some true :=
    SignalStore.isWritten?_allocate_ne _
  unfold Moment.start Computation.start
  dsimp only
  rw [SignalStore.size_allocate]
  by_cases hsize : circuit.totalSignals = 0
  · rw [if_pos hsize]
    refine ⟨hon, fun i => ?_, fun k i w hk => by simp [Trace.empty, Trace.toList] at hk, hcreated⟩
    show ((SignalStore.allocate _).write 0 1).isWritten? i = some true ↔ _
    rw [SignalStore.isWritten?_write, SignalStore.size_allocate, hsize]
    have hno := hblank i
    rw [hsize] at hno
    simp only [Trace.empty, Trace.toList, List.not_mem_nil, iff_false]
    split <;> simp [hno]
  · have hempty : (Trace.empty config.recordTrace).enabled = true := hon
    obtain ⟨hen, hlist⟩ := Trace.extends_record _ (.signalWritten 0) hempty
    rw [if_neg hsize]
    refine ⟨hen, fun i => ?_, ?_, ?_⟩
    · show ((SignalStore.allocate _).write 0 1).isWritten? i = some true ↔ _
      rw [SignalStore.isWritten?_write, SignalStore.size_allocate, hlist]
      by_cases hi : 0 = i
      · simp [← hi, Nat.pos_of_ne_zero hsize]
      · simp [hi, Ne.symm hi, hblank i, Trace.empty, Trace.toList]
    · show Truthful (Trace.record _ _).toList
      rw [hlist]
      refine Truthful.append (fun k i w hk => ?_) (by simp)
      simp [Trace.empty, Trace.toList] at hk
    · show (Registry.empty _).created = (Trace.record _ _).toList.countP _
      rw [hcreated, hlist]
      rfl

/-- **The trace determines the state.**  A program acts on an accepted circuit from the start with
    the trace switched on, by any requests but to count an input without writing one, and so do the
    bodies.  Then at every moment of the run

    * a component exists exactly if the trace shows one creation of it, and that is with its
      template; the registry counts as many components as there are creations;
    * the stage of every component is the one to which the last of its events takes it that takes
      it to one;
    * the inputs that a component misses, and those that arrived, are all its inputs;
    * a signal is marked as written exactly if the trace shows a write to it;
    * each read in the trace says whether a write to its signal comes before it, so the early reads
      are those without a write before them, in order;
    * the next read of a signal adds just that event. -/
theorem Program.Visits.trace_determines {α : Type} {levels : Nat} {p : Program α}
    {d : CircuitDescription} {circuit : Circuit} {config : Config} {m : Moment}
    {next : Option Request} (hd : d.accept = .ok circuit) (hfit : circuit.CountersFit)
    (hon : config.recordTrace = true) (hc : circuit.Only Request.NoCount)
    (hp : p.Only Request.NoCount) (hv : p.Visits levels (.start circuit config) next m) :
    (∀ id, (m.state.registry.get? id).isSome ↔ (m.state.trace.creations id).length = 1) ∧
    (∀ id r, m.state.registry.get? id = some r → m.state.trace.creations id = [r.template]) ∧
    m.state.registry.created = m.state.trace.toList.countP Event.isCreation ∧
    (∀ id, m.state.registry.stage? id = m.state.trace.stage? id) ∧
    (∀ id r, m.state.registry.get? id = some r → ∃ shape,
      circuit.templates.shape? r.template = some shape ∧
      m.state.trace.arrivals id ≤ shape.inputs ∧
      r.pending = shape.inputs - m.state.trace.arrivals id) ∧
    (∀ i, m.state.store.isWritten? i = some true ↔
      Event.signalWritten i ∈ m.state.trace.toList) ∧
    (∀ (k i : Nat) (w : Bool), m.state.trace.toList[k]? = some (.signalRead i w) →
      (w = true ↔ ∃ j < k, m.state.trace.toList[j]? = some (.signalWritten i))) ∧
    m.state.trace.earlyReads = m.state.trace.readsWithoutWrite ∧
    ∀ (enter : Enter) (i : Nat), i < m.state.store.size →
      (((Request.signal i).perform enter).after m.state).trace.toList
        = m.state.trace.toList ++
          [Event.signalRead i (decide (Event.signalWritten i ∈ m.state.trace.toList))] := by
  have hm : m.Regular := hv.regular hd hfit hc hp
  have hpath := hv.path_noCount hc hp
  have hcirc : m.state.circuit = circuit := hpath.circuit_eq.1
  have hch : m.state.Chronicled := hpath.chronicled (Moment.settled_start circuit config) hfit
    (Moment.chronicled_start circuit hon)
  have hfaith : m.state.Faithful := hpath.faithful (Moment.faithful_start circuit hon)
  have hcreations : ∀ id r, m.state.registry.get? id = some r →
      m.state.trace.creations id = [r.template] := fun id r hr => by
    obtain ⟨shape, hshape, -⟩ := (hm.settled.records id r hr).known
    exact (hch.stories id r hr).creations hshape
  have hsilent : ∀ id, m.state.registry.get? id = none → m.state.trace.creations id = [] :=
    fun id hr => by
      unfold Trace.creations
      rw [hch.silent id hr]
      rfl
  refine ⟨fun id => ?_, hcreations, hfaith.created, fun id => ?_, fun id r hr => ?_,
    hfaith.written, fun k i w hk => ?_, Trace.earlyReads_eq hfaith.reads,
    fun enter i hi => ?_⟩
  · cases hr : m.state.registry.get? id with
    | none => simp [hsilent id hr]
    | some r => simp [hcreations id r hr]
  · unfold Registry.stage? Trace.stage?
    cases hr : m.state.registry.get? id with
    | none =>
      rw [hch.silent id hr]
      rfl
    | some r =>
      obtain ⟨shape, hshape, -⟩ := (hm.settled.records id r hr).known
      exact ((hch.stories id r hr).getLast?_stage hshape).symm
  · obtain ⟨shape, hshape, hle⟩ := (hm.settled.records id r hr).known
    have harrivals : m.state.trace.arrivals id = shape.inputs - r.pending := by
      rw [Trace.arrivals_eq, (hch.stories id r hr).past shape hshape, Component.countP_past]
    exact ⟨shape, hcirc ▸ hshape, by omega, by omega⟩
  · rw [hfaith.reads k i w hk, List.mem_iff_getElem?]
    constructor
    · rintro ⟨j, hj⟩
      rw [List.getElem?_take] at hj
      split at hj
      · exact ⟨j, ‹_›, hj⟩
      · cases hj
    · rintro ⟨j, hlt, hj⟩
      exact ⟨j, by rw [List.getElem?_take, if_pos hlt, hj]⟩
  · obtain ⟨w, hw⟩ := SignalStore.isWritten?_of_lt hi
    have hafter : ((Request.signal i).perform enter).after m.state = _ := after_signal hw
    have hflag : decide (Event.signalWritten i ∈ m.state.trace.toList) = w := by
      have hwritten := hfaith.written i
      rw [hw] at hwritten
      cases w with
      | true => exact decide_eq_true (hwritten.mp rfl)
      | false => exact decide_eq_false fun hin => by cases hwritten.mpr hin
    rw [hafter, hflag]
    exact (Trace.extends_record m.state.trace (.signalRead i w) hch.enabled).2

/-- The same inside the body of the small circuit's main component. -/
theorem Program.Visits.trace_determines_relay :
    relayInside.trace.creations ⟨0⟩ = [⟨0⟩] ∧ relayInside.trace.creations ⟨1⟩ = [] ∧
    relayInside.registry.stage? ⟨0⟩ = relayInside.trace.stage? ⟨0⟩ ∧
    relayInside.trace.stage? ⟨0⟩ = some .running ∧
    ∀ i, relayInside.store.isWritten? i = some true ↔
      .signalWritten i ∈ relayInside.trace.toList := by
  obtain ⟨-, -, -, hstage, -, hwritten, -⟩ := trace_determines accept_relay relay_fits rfl
    (relay_only.mono fun _ => Request.Ordinary.noCount)
    (relayProgram_only.mono fun _ => Request.Ordinary.noCount) relay_visits
  exact ⟨by decide, by decide, hstage ⟨0⟩, by decide, hwritten⟩

end CircuitWitness
