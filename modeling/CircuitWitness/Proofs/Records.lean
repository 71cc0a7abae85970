import CircuitWitness.Proofs.Audit
import CircuitWitness.Proofs.CallStack
/-
  Records last, and stages come one after another.

  A step of a computation does one of three things to the registry: nothing, or it enters a record
  under a free handle, or it changes one record in place.  `Component.Turns` says what a change in
  place can be, and that is little: the identity of the component stays, its count does not rise,
  and its stage stays or becomes the next one.  Whatever a step does to a stage, it tells the trace.

  The last part depends on the stack.  A body that returns finds its component running, however
  much its own requests and those of the bodies below it have done meanwhile; otherwise the return
  could set the stage back.

  All else about records follows step by step: how many slots they have, how many records there
  are, and in which order they are listed.
-/

namespace CircuitWitness

open CircuitWitness.Action

variable {π : Policy} {α β : Type}

/-! ## Stages in a row -/

namespace Stage

/-- The stage that comes after another. -/
def next? : Stage → Option Stage
  | .created => some .running
  | .running => some .finished
  | .finished => some .released
  | .released => none

/-- How many stages come before. -/
def rank : Stage → Nat
  | .created => 0
  | .running => 1
  | .finished => 2
  | .released => 3

/-- The stages that lead up to one, itself the last. -/
def upTo : Stage → List Stage
  | .created => [.created]
  | .running => [.created, .running]
  | .finished => [.created, .running, .finished]
  | .released => [.created, .running, .finished, .released]

variable {stage stage' : Stage}

/-- The stages up to the next one are those up to this one, and it. -/
theorem upTo_next (h : stage.next? = some stage') : stage'.upTo = stage.upTo ++ [stage'] := by
  cases stage <;> cases h <;> rfl

/-- No stage comes after itself. -/
theorem next?_ne (h : stage.next? = some stage') : stage' ≠ stage := by
  cases stage <;> cases h <;> simp

end Stage

/-! ## What the trace tells about stages -/

/-- The component whose stage an event tells, and the stage. -/
def Event.told? (e : Event) : Option (Handle × Stage) :=
  e.stage?.bind fun stage => e.component?.map fun id => (id, stage)

/-- All stages that a trace tells of, in order. -/
def Trace.told (t : Trace) : List (Handle × Stage) := t.toList.filterMap Event.told?

/-- The stages of one component that a trace tells of, in order. -/
def Trace.stagesOf (t : Trace) (id : Handle) : List Stage := (t.eventsOf id).filterMap Event.stage?

/-- One trace tells what another does, and some stages more. -/
def Trace.Tells (t t' : Trace) (l : List (Handle × Stage)) : Prop :=
  t.enabled = true → t'.enabled = true ∧ t'.told = t.told ++ l

namespace Trace

/-- Telling nothing, and telling one stretch after another. -/
theorem Tells.refl (t : Trace) : t.Tells t [] := fun h => ⟨h, (List.append_nil _).symm⟩

theorem Tells.trans {t t' t'' : Trace} {l l' : List (Handle × Stage)} (h : t.Tells t' l)
    (h' : t'.Tells t'' l') : t.Tells t'' (l ++ l') := fun hen => by
  obtain ⟨hen', hlist⟩ := h hen
  obtain ⟨hen'', hlist'⟩ := h' hen'
  exact ⟨hen'', by rw [hlist', hlist, List.append_assoc]⟩

/-- An event tells its stage, if it has one. -/
theorem tells_record (t : Trace) (e : Event) : t.Tells (t.record e) e.told?.toList := by
  intro hen
  refine ⟨by rw [enabled_record, hen], ?_⟩
  unfold told
  rw [toList_record, if_pos hen, List.filterMap_append]
  cases e <;> rfl

/-- The stages of one component are picked out of all that were told. -/
theorem stagesOf_eq (t : Trace) (id : Handle) :
    t.stagesOf id = (t.told.filter fun x => x.1 = id).map Prod.snd := by
  have hevent : ∀ e : Event, (if e.component? == some id then e.stage? else none)
      = (e.told?.filter fun x => x.1 = id).map Prod.snd := by
    intro e
    unfold Event.told?
    rcases e.component? with _ | other
    · cases e.stage? <;> rfl
    · by_cases he : other = id <;> cases e.stage? <;> simp [Option.filter, he]
  unfold stagesOf eventsOf told
  rw [List.filterMap_filter, List.filter_filterMap, List.map_filterMap]
  exact congrArg (List.filterMap · t.toList) (funext hevent)

/-- So what is told on top is picked out on top. -/
theorem Tells.stagesOf {t t' : Trace} {l : List (Handle × Stage)} (h : t.Tells t' l)
    (hen : t.enabled = true) (id : Handle) :
    t'.stagesOf id = t.stagesOf id ++ (l.filter fun x => x.1 = id).map Prod.snd := by
  rw [stagesOf_eq, stagesOf_eq, (h hen).2, List.filter_append, List.map_append]

end Trace

/-! ## What can become of a record -/

/-- What one step can make of a record. -/
structure Component.Turns (reclaim : Bool) (r r' : Component) : Prop where
  template : r'.template = r.template
  signalStart : r'.signalStart = r.signalStart
  parent : r'.parent = r.parent
  label : r'.label = r.label
  pending : r'.pending ≤ r.pending
  stage : r'.stage = r.stage ∨ r.stage.next? = some r'.stage
  /-- The slots go when the component is released, and otherwise there are as many as before. -/
  slots : if r'.stage ≠ r.stage ∧ r'.stage = .released ∧ reclaim = true then r'.slots = #[]
    else r'.slots.size = r.slots.size

/-- What a step does to the registry, and what it tells about it. -/
inductive Step.OnRecords (m m' : Moment) : Prop
  | same (hreg : m'.state.registry = m.state.registry)
      (htrace : m.state.trace.Tells m'.state.trace [])
  | enters (id : Handle) (r : Component) (shape : TemplateShape)
      (hfree : m.state.registry.get? id = none)
      (hsets : m.state.registry.Sets m'.state.registry id r)
      (hshape : m.state.circuit.templates.shape? r.template = some shape)
      (hslots : r.slots.size = shape.slots) (hstage : r.stage ≠ .released)
      (htrace : m.state.trace.Tells m'.state.trace (r.stage.upTo.map (id, ·)))
  | turns (id : Handle) (r r' : Component) (hr : m.state.registry.get? id = some r)
      (hsets : m.state.registry.Sets m'.state.registry id r')
      (hturns : r.Turns m.state.config.reclaim r')
      (htrace : m.state.trace.Tells m'.state.trace
        (if r'.stage = r.stage then [] else [(id, r'.stage)]))

namespace Step.OnRecords

variable {s s' : List Handle} {c c' : Computation} {id : Handle} {r r' : Component}

/-- A change in place that leaves the stage. -/
theorem stay (hr : c.registry.get? id = some r) (f : Component → Component)
    (hreg : c'.registry = c.registry.modify id f) (htemplate : (f r).template = r.template)
    (hstart : (f r).signalStart = r.signalStart) (hparent : (f r).parent = r.parent)
    (hlabel : (f r).label = r.label) (hpending : (f r).pending ≤ r.pending)
    (hstage : (f r).stage = r.stage) (hslots : (f r).slots.size = r.slots.size)
    (htrace : c.trace.Tells c'.trace []) : OnRecords ⟨s, c⟩ ⟨s', c'⟩ := by
  refine .turns id r (f r) hr (hreg ▸ Registry.sets_modify hr f)
    ⟨htemplate, hstart, hparent, hlabel, hpending, .inl hstage, ?_⟩ ?_
  · rw [if_neg fun h => h.1 hstage]
    exact hslots
  · rw [if_pos hstage]
    exact htrace

/-- A change in place to the next stage. -/
theorem advance (hr : c.registry.get? id = some r) (hsets : c.registry.Sets c'.registry id r')
    (hid : { r with pending := r'.pending, stage := r'.stage, slots := r'.slots } = r')
    (hpending : r'.pending ≤ r.pending) (hnext : r.stage.next? = some r'.stage)
    (hslots : if r'.stage = .released ∧ c.config.reclaim = true then r'.slots = #[]
      else r'.slots.size = r.slots.size)
    (htrace : c.trace.Tells c'.trace [(id, r'.stage)]) : OnRecords ⟨s, c⟩ ⟨s', c'⟩ := by
  have hne := Stage.next?_ne hnext
  refine .turns id r r' hr hsets ⟨?_, ?_, ?_, ?_, hpending, .inr hnext, ?_⟩ ?_
  · rw [← hid]
  · rw [← hid]
  · rw [← hid]
  · rw [← hid]
  · simpa [hne] using hslots
  · rw [if_neg hne]
    exact htrace

end Step.OnRecords

/-- **A step does nothing to the records, or enters one, or changes one in place**, if the bodies on
    the stack are running. -/
theorem Step.onRecords {m m' : Moment} (h : Step π m m') (hm : m.Busy) : Step.OnRecords m m' := by
  cases h with
  | read | write | assign => exact .same rfl (Trace.tells_record _ _)
  | leave | note => exact .same rfl (.refl _)
  | keep hr =>
    exact .stay hr _ rfl rfl rfl rfl rfl (Nat.le_refl _) rfl (Array.size_setIfInBounds ..) (.refl _)
  | @create s c id t start label parent shape reg ht hr =>
    exact .enters id _ shape (Registry.create_ok hr).1 (Registry.sets_create hr) ht
      (Array.size_replicate ..) (by simp [Component.fresh]) (Trace.tells_record _ _)
  | @createRun s c id t start label parent shape reg ht hr =>
    have hsets := Registry.sets_create hr
    exact .enters id _ shape (Registry.create_ok hr).1
      (hsets.trans (Registry.sets_modify hsets.self _)) ht (Array.size_replicate ..)
      (by simp) ((Trace.tells_record _ _).trans (Trace.tells_record _ _))
  | @input s c id l i n v r _ _ _ _ hr hp =>
    exact .stay hr _ rfl rfl rfl rfl rfl (by show n ≤ r.pending; omega) rfl rfl
      ((Trace.tells_record _ _).trans (Trace.tells_record _ _))
  | @account s c i n r _ hr _ _ hp =>
    exact .stay hr _ rfl rfl rfl rfl rfl (by show n ≤ r.pending; omega) rfl rfl
      (Trace.tells_record _ _)
  | @count s c id n r _ hr hp =>
    exact .stay hr _ rfl rfl rfl rfl rfl (by show n ≤ r.pending; omega) rfl rfl (.refl _)
  | @inputRun s c id l i v r _ _ hi _ hr hp =>
    obtain ⟨r', -, hr', -, -, hs, -⟩ := of_inputSignal hi
    cases hr.symm.trans hr'
    have hsets := Registry.sets_modify hr fun r => { r with pending := 0 }
    exact .advance hr (hsets.trans (Registry.sets_modify hsets.self _)) rfl (Nat.zero_le _)
      (by rw [hs]; rfl) (by simp)
      (((Trace.tells_record _ _).trans (Trace.tells_record _ _)).trans (Trace.tells_record _ _))
  | @accountRun s c i r _ _ hr _ _ hp hb =>
    have hsets := Registry.sets_modify hr fun r => { r with pending := 0 }
    obtain ⟨r', hr', hs, -⟩ := of_startable hb
    cases hsets.self.symm.trans hr'
    exact .advance hr (hsets.trans (Registry.sets_modify hsets.self _)) rfl (Nat.zero_le _)
      (by rw [show r.stage = .created from hs]; rfl) (by simp)
      ((Trace.tells_record _ _).trans (Trace.tells_record _ _))
  | trigger hb =>
    obtain ⟨r, hr, hs, -⟩ := of_startable hb
    exact .advance hr (Registry.sets_modify hr _) rfl (Nat.le_refl _) (by rw [hs]; rfl) (by simp)
      (Trace.tells_record _ _)
  | @finish s c id =>
    -- The component is still running, whatever its body has done.
    obtain ⟨r, hr, hs⟩ := Option.map_eq_some_iff.mp (hm.running id (List.mem_cons_self ..))
    have hr : c.registry.get? id = some r := hr
    exact .advance hr (Registry.sets_modify hr _) rfl (Nat.le_refl _) (by rw [hs]; rfl) (by simp)
      (Trace.tells_record _ _)
  | @release s c id r hr hf =>
    refine .advance hr (Registry.sets_modify hr _) rfl (Nat.le_refl _) (by rw [hf]; rfl) ?_
      (Trace.tells_record _ _)
    cases c.config.reclaim <;> simp

/-! ## What lasts -/

/-- A later record of the same component. -/
structure Component.Lasts (r r' : Component) : Prop where
  template : r'.template = r.template
  signalStart : r'.signalStart = r.signalStart
  parent : r'.parent = r.parent
  label : r'.label = r.label
  pending : r'.pending ≤ r.pending
  rank : r.stage.rank ≤ r'.stage.rank

/-- A record lasts as it is, and what lasts through two stretches lasts through both. -/
theorem Component.Lasts.refl (r : Component) : r.Lasts r :=
  ⟨rfl, rfl, rfl, rfl, Nat.le_refl _, Nat.le_refl _⟩

theorem Component.Lasts.trans {r r' r'' : Component} (h : r.Lasts r') (h' : r'.Lasts r'') :
    r.Lasts r'' where
  template := h'.template.trans h.template
  signalStart := h'.signalStart.trans h.signalStart
  parent := h'.parent.trans h.parent
  label := h'.label.trans h.label
  pending := Nat.le_trans h'.pending h.pending
  rank := Nat.le_trans h.rank h'.rank

/-- Along a path, what a step does to records holds as well, step by step. -/
theorem Path.busy {m m' : Moment} (h : Path π m m') (hm : m.Busy) : m'.Busy :=
  h.keeps (fun _ _ hi hs => hs.busy hi) hm

/-- A trace that was on all the time tells of each component the stages up to its own. -/
structure Computation.Told (c : Computation) : Prop where
  enabled : c.trace.enabled = true
  stages : ∀ id, c.trace.stagesOf id = ((c.registry.get? id).map fun r => r.stage.upTo).getD []

/-- and the trace in accordance with the stages. -/
theorem Step.told {m m' : Moment} (h : Step π m m') (hm : m.Busy) (htold : m.state.Told) :
    m'.state.Told := by
  have hen := htold.enabled
  cases h.onRecords hm with
  | same hreg htrace =>
    refine ⟨(htrace hen).1, fun id => ?_⟩
    rw [htrace.stagesOf hen, htold.stages, hreg]
    simp
  | enters other r₀ shape hfree hsets _ _ _ htrace =>
    refine ⟨(htrace hen).1, fun id => ?_⟩
    rw [htrace.stagesOf hen, htold.stages, hsets]
    by_cases he : other = id
    · subst he
      simp [hfree, List.filter_map, Function.comp_def]
    · simp [he, List.filter_map, Function.comp_def]
  | turns other r₀ r₁ hr₀ hsets hturns htrace =>
    refine ⟨(htrace hen).1, fun id => ?_⟩
    rw [htrace.stagesOf hen, htold.stages, hsets]
    by_cases he : other = id
    · subst he
      rcases hturns.stage with hs | hs
      · simp [hr₀, hs]
      · simp [hr₀, Stage.next?_ne hs, Stage.upTo_next hs]
    · rw [if_neg he]
      split <;> simp [he]

namespace Registry

/-- What is iterated over is what is found. -/
theorem mem_toList {reg : Registry} {id : Handle} {r : Component} :
    (id, r) ∈ reg.toList ↔ reg.get? id = some r := by
  refine ⟨of_mem_toList, fun hr => ?_⟩
  have hslot : reg.records.toList[id.index]? = some (some r) := by
    rw [Array.getElem?_toList]
    exact Option.join_eq_some_iff.mp hr
  exact List.mem_filterMap.mpr
    ⟨(some r, id.index), List.mem_zipIdx_iff_getElem?.mpr hslot, rfl⟩

end Registry

/-! ## The theorem -/

/-- Inside the body of the small circuit's main component the child is created, and has run. -/
def relayPaired : Computation :=
  ((Request.createChild ⟨0⟩ 0 ⟨1⟩ ⟨1⟩ 4 "main.pulse").perform (enterWithin 1)).after relayInside

end CircuitWitness
