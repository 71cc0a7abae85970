import Mathlib.Data.List.Count
import CircuitWitness.Proofs.Settled
/-
  The life of a component, read off the trace.

  Every component lives the same life: it is created, its inputs arrive one by one, and then it is
  triggered, finishes and is released.  How far it has come can be told from its record, so the
  invariant says just this: the events about a component are the milestones that its record has
  passed (`Component.past`).  Events of other components may stand between them, in any order.

  One thing never happens between two events: where a count comes to zero, the very next event is
  the start of that body.  `Prompt` says so about a list of events, in both directions.
-/

namespace CircuitWitness

/-- A point in the life of a component, as a trace shows it. -/
inductive Milestone where
  | created
  /-- An input arrived, and so many are still missing. -/
  | input (remaining : Nat)
  | triggered
  | finished
  | released
deriving DecidableEq

/-- The milestone that an event shows; reads and writes of signals show none. -/
def Event.milestone? : Event → Option Milestone
  | .created _ _ => some .created
  | .inputWritten _ _ remaining => some (.input remaining)
  | .triggered _ => some .triggered
  | .finished _ => some .finished
  | .released _ => some .released
  | .signalWritten _ | .signalRead _ _ => none

/-- The whole life of a component with so many inputs. -/
def life (inputs : Nat) : List Milestone :=
  .created :: (List.range inputs).reverse.map .input ++ [.triggered, .finished, .released]

/-- The milestones that a component in a stage has passed since its inputs were complete. -/
def Stage.milestones : Stage → List Milestone
  | .created => []
  | .running => [.triggered]
  | .finished => [.triggered, .finished]
  | .released => [.triggered, .finished, .released]

/-- The milestones that a component with so many inputs has passed. -/
def Component.past (inputs : Nat) (r : Component) : List Milestone :=
  .created :: (List.range' r.pending (inputs - r.pending)).reverse.map .input ++ r.stage.milestones

/-- The inputs of a life are counted among no other milestones. -/
theorem Milestone.count_inputs (m : Milestone) (hm : ∀ n, m ≠ .input n) (l : List Nat) :
    (l.map Milestone.input).count m = 0 := by
  rw [List.count_eq_zero]
  intro h
  obtain ⟨n, -, hn⟩ := List.mem_map.mp h
  exact hm n hn.symm

/-! ## The past of a component -/

namespace Component

variable {r : Component} {inputs n : Nat}

/-- What a component has passed is the beginning of its life. -/
theorem past_within_life (hle : r.pending ≤ inputs) (hagree : r.pending = 0 ↔ r.stage ≠ .created) :
    r.past inputs <+: life inputs := by
  unfold past life
  by_cases hs : r.stage = .created
  · -- The inputs that are missing are the tail of the row.
    have hsplit : List.range inputs
        = List.range r.pending ++ List.range' r.pending (inputs - r.pending) := by
      rw [List.range_eq_range', List.range_eq_range']
      have h := List.range'_append_1 (s := 0) (m := r.pending) (n := inputs - r.pending)
      rw [Nat.zero_add, Nat.add_sub_cancel' hle] at h
      exact h.symm
    rw [hs, hsplit, List.reverse_append, List.map_append]
    refine ⟨(List.range r.pending).reverse.map .input ++ [.triggered, .finished, .released], ?_⟩
    simp [Stage.milestones]
  · -- All inputs have arrived, and the stage tells the rest.
    have hp : r.pending = 0 := hagree.mpr hs
    have hstage : r.stage.milestones <+: [.triggered, .finished, .released] := by
      cases hst : r.stage with
      | created => exact absurd hst hs
      | running => exact ⟨[.finished, .released], rfl⟩
      | finished => exact ⟨[.released], rfl⟩
      | released => exact ⟨[], rfl⟩
    rw [hp, Nat.sub_zero, ← List.range_eq_range']
    exact (List.prefix_append_right_inj _).mpr hstage

/-- The past of a new record is its creation. -/
theorem past_fresh {t : TemplateId} {start slots : Nat} {label : String}
    {parent : Option Handle} :
    (Component.fresh t start inputs slots label parent).past inputs = [.created] := by
  show .created :: (List.range' inputs (inputs - inputs)).reverse.map Milestone.input ++ [] = _
  rw [Nat.sub_self]
  rfl

/-- With an input it grows by the count that the input leaves. -/
theorem past_count (hle : r.pending ≤ inputs) (hp : r.pending = n + 1)
    (hs : r.stage = .created) :
    ({ r with pending := n } : Component).past inputs = r.past inputs ++ [.input n] := by
  have hrow : List.range' n (inputs - n) = n :: List.range' (n + 1) (inputs - (n + 1)) := by
    have hlen : inputs - n = inputs - (n + 1) + 1 := by omega
    rw [hlen, List.range'_succ]
  show .created :: (List.range' n (inputs - n)).reverse.map Milestone.input ++ r.stage.milestones
    = _
  unfold past
  rw [hrow, hp, hs]
  simp [Stage.milestones]

/-- With the start of the body it grows by the trigger. -/
theorem past_begin (hs : r.stage = .created) :
    ({ r with stage := .running } : Component).past inputs = r.past inputs ++ [.triggered] := by
  unfold past
  rw [hs]
  simp [Stage.milestones]

theorem past_finish (hs : r.stage = .running) :
    ({ r with stage := .finished } : Component).past inputs = r.past inputs ++ [.finished] := by
  unfold past
  rw [hs]
  simp [Stage.milestones]

/-- A release is told by a record of its own. -/
theorem past_release (hs : r.stage = .finished) (slots : Array (Option Handle)) :
    ({ r with slots := slots, stage := .released } : Component).past inputs
      = r.past inputs ++ [.released] := by
  unfold past
  rw [hs]
  simp [Stage.milestones]

end Component

/-! ## Events that follow at once -/

/-- The component whose last missing input an event counts. -/
def Event.ripe? (templates : TemplateTable) : Event → Option Handle
  | .inputWritten id _ 0 => some id
  | .created id t => if (templates.shape? t).any (·.inputs = 0) then some id else none
  | _ => none

/-- Wherever the last missing input of a component is counted, its body starts next; and it starts
    nowhere else. -/
structure Prompt (templates : TemplateTable) (events : List Event) : Prop where
  next : ∀ i e id, events[i]? = some e → e.ripe? templates = some id →
    events[i + 1]? = some (.triggered id)
  cause : ∀ i id, events[i]? = some (.triggered id) →
    ∃ j e, i = j + 1 ∧ events[j]? = some e ∧ e.ripe? templates = some id

namespace Prompt

variable {templates : TemplateTable} {l l' : List Event}

theorem nil : Prompt templates [] := ⟨fun _ _ _ h => by simp at h, fun _ _ h => by simp at h⟩

/-- Two prompt stretches, neither of which leaves anything open, make one. -/
theorem append (h : Prompt templates l) (h' : Prompt templates l') :
    Prompt templates (l ++ l') := by
  constructor
  · intro i e id he hripe
    -- What follows a last count in the first list lies in the first list, too.
    rcases Nat.lt_or_ge i l.length with hi | hi
    · rw [List.getElem?_append_left hi] at he
      have hnext := h.next i e id he hripe
      obtain ⟨hlt, -⟩ := List.getElem?_eq_some_iff.mp hnext
      rw [List.getElem?_append_left hlt, hnext]
    · rw [List.getElem?_append_right hi] at he
      have hnext := h'.next _ e id he hripe
      rw [List.getElem?_append_right (by omega), ← hnext]
      congr 1
      omega
  · intro i id he
    rcases Nat.lt_or_ge i l.length with hi | hi
    · rw [List.getElem?_append_left hi] at he
      obtain ⟨j, e, rfl, hj, hripe⟩ := h.cause i id he
      exact ⟨j, e, rfl, by rw [List.getElem?_append_left (by omega), hj], hripe⟩
    · rw [List.getElem?_append_right hi] at he
      obtain ⟨j, e, hj, he', hripe⟩ := h'.cause _ id he
      refine ⟨l.length + j, e, by omega, ?_, hripe⟩
      rw [List.getElem?_append_right (by omega), ← he']
      congr 1
      omega

/-- An event that is neither a last count nor a start. -/
theorem single {e : Event} (hr : e.ripe? templates = none) (ht : ∀ id, e ≠ .triggered id) :
    Prompt templates [e] := by
  constructor
  · intro i e' id he hripe
    cases i with
    | zero => cases he; rw [hr] at hripe; cases hripe
    | succ i => simp at he
  · intro i id he
    cases i with
    | zero => cases he; exact absurd rfl (ht id)
    | succ i => simp at he

/-- A last count, and the start of that body. -/
theorem pair {e : Event} {id : Handle} (hr : e.ripe? templates = some id)
    (ht : ∀ id, e ≠ .triggered id) : Prompt templates [e, .triggered id] := by
  constructor
  · intro i e' id' he hripe
    match i, he with
    | 0, he => cases he; rw [hr] at hripe; cases hripe; rfl
    | 1, he => cases he; cases hripe
  · intro i id' he
    match i, he with
    | 0, he => cases he; exact absurd rfl (ht _)
    | 1, he => cases he; exact ⟨0, e, rfl, rfl, hr⟩

end Prompt

/-! ## Stories -/

/-- The events about a component are what it has passed, its creation first. -/
structure Component.Story (templates : TemplateTable) (id : Handle) (r : Component)
    (events : List Event) : Prop where
  head : events.head? = some (.created id r.template)
  past : ∀ shape, templates.shape? r.template = some shape →
    events.map Event.milestone? = (r.past shape.inputs).map some

namespace Component.Story

variable {templates : TemplateTable} {id : Handle} {r r' : Component} {events block : List Event}

/-- A story is told on. -/
theorem extend (h : r.Story templates id events) (ht : r'.template = r.template)
    (milestones : List Milestone) (hblock : block.map Event.milestone? = milestones.map some)
    (hpast : ∀ shape, templates.shape? r.template = some shape →
      r'.past shape.inputs = r.past shape.inputs ++ milestones) :
    r'.Story templates id (events ++ block) := by
  constructor
  · rw [List.head?_append, h.head, ht]
    rfl
  · intro shape hshape
    rw [ht] at hshape
    rw [List.map_append, h.past shape hshape, hblock, hpast shape hshape, List.map_append]

/-- A change that does not matter to the story. -/
theorem same (h : r.Story templates id events) (ht : r'.template = r.template)
    (hp : r'.pending = r.pending) (hs : r'.stage = r.stage) : r'.Story templates id events := by
  constructor
  · rw [ht]; exact h.head
  · intro shape hshape
    rw [ht] at hshape
    rw [h.past shape hshape]
    unfold Component.past
    rw [hp, hs]

/-- An input arrives. -/
theorem count (h : r.Story templates id events) (hr : r.Settled templates) {n : Nat}
    (hp : r.pending = n + 1) (signal : Nat) :
    ({ r with pending := n } : Component).Story templates id
      (events ++ [.inputWritten id signal n]) :=
  h.extend rfl [.input n] rfl fun _ hshape =>
    Component.past_count (hr.pending_le hshape) hp (hr.created_of_pending hp)

/-- The body starts. -/
theorem begins (h : r.Story templates id events) (hs : r.stage = .created) :
    ({ r with stage := .running } : Component).Story templates id
      (events ++ [.triggered id]) :=
  h.extend rfl [.triggered] rfl fun _ _ => Component.past_begin hs

/-- The last input arrives, and the body starts. -/
theorem start (h : r.Story templates id events) (hr : r.Settled templates)
    (hp : r.pending = 1) (signal : Nat) :
    ({ r with pending := 0, stage := .running } : Component).Story templates id
      (events ++ [.inputWritten id signal 0, .triggered id]) := by
  have hrun := (h.count hr hp signal).begins (hr.created_of_pending hp)
  rwa [List.append_assoc] at hrun

theorem finish (h : r.Story templates id events) (hs : r.stage = .running) :
    ({ r with stage := .finished } : Component).Story templates id (events ++ [.finished id]) :=
  h.extend rfl [.finished] rfl fun _ _ => Component.past_finish hs

theorem release (h : r.Story templates id events) (hs : r.stage = .finished)
    (slots : Array (Option Handle)) :
    ({ r with slots := slots, stage := .released } : Component).Story templates id
      (events ++ [.released id]) :=
  h.extend rfl [.released] rfl fun _ _ => Component.past_release hs slots

/-- The story of a new component begins with its creation. -/
theorem fresh {t : TemplateId} {shape : TemplateShape} (ht : templates.shape? t = some shape)
    (hfit : shape.inputs < 2 ^ 32) (id : Handle) (start : Nat) (label : String)
    (parent : Option Handle) :
    (Component.fresh t start shape.inputCounter shape.slots label parent).Story templates id
      [.created id t] := by
  refine ⟨rfl, fun shape' hshape => ?_⟩
  have hshape : templates.shape? t = some shape' := hshape
  rw [ht] at hshape
  cases hshape
  rw [TemplateShape.inputCounter_eq hfit, Component.past_fresh]
  rfl

end Component.Story

/-- A trace that was on all the time tells the story of every component, and of no other, and
    bodies start promptly in it. -/
structure Computation.Chronicled (c : Computation) : Prop where
  enabled : c.trace.enabled = true
  silent : ∀ id, c.registry.get? id = none → c.trace.eventsOf id = []
  stories : ∀ id r, c.registry.get? id = some r →
    r.Story c.circuit.templates id (c.trace.eventsOf id)
  prompt : Prompt c.circuit.templates c.trace.toList

/-- One trace goes on where another ends. -/
def Trace.Extends (t t' : Trace) (block : List Event) : Prop :=
  t.enabled = true → t'.enabled = true ∧ t'.toList = t.toList ++ block

namespace Trace

theorem extends_refl (t : Trace) : t.Extends t [] := fun h => ⟨h, (List.append_nil _).symm⟩

theorem extends_record (t : Trace) (e : Event) : t.Extends (t.record e) [e] := fun h =>
  ⟨by rw [enabled_record, h], by rw [toList_record, if_pos h]⟩

theorem Extends.trans {t t' t'' : Trace} {block block' : List Event} (h : t.Extends t' block)
    (h' : t'.Extends t'' block') : t.Extends t'' (block ++ block') := fun hen => by
  obtain ⟨hen', hlist⟩ := h hen
  obtain ⟨hen'', hlist'⟩ := h' hen'
  exact ⟨hen'', by rw [hlist', hlist, List.append_assoc]⟩

end Trace

namespace Computation.Chronicled

variable {c c' : Computation} {block : List Event} {id : Handle} {r : Component}

/-- The events of one component are extended by those in the block that are its own. -/
theorem eventsOf_extend (h : c.Chronicled) (hx : c.trace.Extends c'.trace block) (id : Handle) :
    c'.trace.eventsOf id
      = c.trace.eventsOf id ++ block.filter fun e => e.component? == some id := by
  unfold Trace.eventsOf
  rw [(hx h.enabled).2, List.filter_append]

/-- Events about no component change no story. -/
theorem frame (h : c.Chronicled) (hc : c'.circuit = c.circuit) (hr : c'.registry = c.registry)
    (hx : c.trace.Extends c'.trace block) (hnone : ∀ e ∈ block, e.component? = none)
    (hprompt : Prompt c.circuit.templates block) : c'.Chronicled := by
  have hsame : ∀ id, c'.trace.eventsOf id = c.trace.eventsOf id := by
    intro id
    have hempty : block.filter (fun e => e.component? == some id) = [] :=
      List.filter_eq_nil_iff.mpr fun e he => by simp [hnone e he]
    rw [h.eventsOf_extend hx, hempty, List.append_nil]
  refine ⟨(hx h.enabled).1, ?_, ?_, ?_⟩
  · intro id hid
    rw [hsame]
    exact h.silent id (hr ▸ hid)
  · intro id r hid
    rw [hsame, hc]
    exact h.stories id r (hr ▸ hid)
  · rw [(hx h.enabled).2, hc]
    exact h.prompt.append hprompt

/-- Events about one component carry on its story and no other. -/
theorem set (h : c.Chronicled) (hc : c'.circuit = c.circuit)
    (hsets : c.registry.Sets c'.registry id r) (hx : c.trace.Extends c'.trace block)
    (hown : ∀ e ∈ block, ∀ other, e.component? = some other → other = id) (own : List Event)
    (hfilter : block.filter (fun e => e.component? == some id) = own)
    (hstory : r.Story c.circuit.templates id (c.trace.eventsOf id ++ own))
    (hprompt : Prompt c.circuit.templates block) : c'.Chronicled := by
  have hothers : ∀ other, id ≠ other → c'.trace.eventsOf other = c.trace.eventsOf other := by
    intro other hne
    have hempty : block.filter (fun e => e.component? == some other) = [] :=
      List.filter_eq_nil_iff.mpr fun e he hother =>
        hne (hown e he other (by simpa using hother)).symm
    rw [h.eventsOf_extend hx, hempty, List.append_nil]
  refine ⟨(hx h.enabled).1, ?_, ?_, ?_⟩
  · intro other hother
    rw [hsets other] at hother
    by_cases he : id = other
    · rw [if_pos he] at hother; cases hother
    · rw [if_neg he] at hother
      rw [hothers other he]
      exact h.silent other hother
  · intro other r' hother
    rw [hsets other] at hother
    rw [hc]
    by_cases he : id = other
    · rw [if_pos he] at hother
      cases hother
      rw [← he, h.eventsOf_extend hx, hfilter]
      exact hstory
    · rw [if_neg he] at hother
      rw [hothers other he]
      exact h.stories other r' hother
  · rw [(hx h.enabled).2, hc]
    exact h.prompt.append hprompt

end Computation.Chronicled

/-! ## What every step adds to the trace -/

section Steps

variable {templates : TemplateTable}

theorem Prompt.written (i : Nat) : Prompt templates [.signalWritten i] :=
  .single rfl fun _ => by simp

/-- An input arrives that is not the last one. -/
theorem Prompt.waiting (id : Handle) (i : Nat) {n : Nat} (hn : n ≠ 0) :
    Prompt templates [.inputWritten id i n] := by
  refine .single ?_ fun _ => by simp
  cases n with
  | zero => exact absurd rfl hn
  | succ n => rfl

/-- The last input arrives, and the body starts. -/
theorem Prompt.starting (id : Handle) (i : Nat) :
    Prompt templates [.inputWritten id i 0, .triggered id] := .pair rfl fun _ => by simp

end Steps

/-- **Every step carries on the stories**, if inputs are counted only as they are written. -/
theorem Step.chronicled {m m' : Moment} (h : Step .noCount m m') (hm : m.Settled)
    (hfit : m.state.circuit.CountersFit) (hch : m.state.Chronicled) : m'.state.Chronicled := by
  cases h with
  | read =>
    exact hch.frame rfl rfl (Trace.extends_record _ _) (by simp [Event.component?])
      (.single rfl fun _ => by simp)
  | write | assign =>
    exact hch.frame rfl rfl (Trace.extends_record _ _) (by simp [Event.component?]) (.written _)
  | leave | note => exact hch.frame rfl rfl (Trace.extends_refl _) (by simp) .nil
  | @keep s c parent child slot r hr =>
    refine hch.set rfl (Registry.sets_modify hr _) (Trace.extends_refl _) (by simp) [] rfl ?_ .nil
    rw [List.append_nil]
    exact (hch.stories parent r hr).same rfl rfl rfl
  | @create s c id t start label parent shape reg ht hr hn =>
    refine hch.set rfl (Registry.sets_create hr) (Trace.extends_record _ _)
      (by simp [Event.component?, eq_comm]) [.created id t] (by simp [Event.component?]) ?_
      (.single ?_ fun _ => by simp)
    · rw [hch.silent id (Registry.create_ok hr).1]
      exact .fresh ht (hfit _ _ ht) id start label parent
    · have ht : c.circuit.templates.shape? t = some shape := ht
      simp [Event.ripe?, ht, hn]
  | @createRun s c id t start label parent shape reg ht hr hn =>
    have hsets := Registry.sets_create hr
    refine hch.set rfl (hsets.trans (Registry.sets_modify hsets.self _))
      ((Trace.extends_record _ _).trans (Trace.extends_record _ _))
      (by simp [Event.component?, eq_comm]) [.created id t, .triggered id]
      (by simp [Event.component?]) ?_ (.pair ?_ fun _ => by simp)
    · rw [hch.silent id (Registry.create_ok hr).1]
      exact (Component.Story.fresh ht (hfit _ _ ht) id start label parent).begins rfl
    · have ht : c.circuit.templates.shape? t = some shape := ht
      simp [Event.ripe?, ht, hn]
  | @input s c id l i n v r _ _ _ _ hr hp hn =>
    exact hch.set rfl (Registry.sets_modify hr _)
      ((Trace.extends_record _ _).trans (Trace.extends_record _ _))
      (by simp [Event.component?, eq_comm]) [.inputWritten id i n] (by simp [Event.component?])
      ((hch.stories id r hr).count (hm.records id r hr) hp i)
      ((Prompt.written i).append (.waiting id i hn))
  | @inputRun s c id l i v r _ _ _ _ hr hp =>
    have hsets := Registry.sets_modify hr fun r => { r with pending := 0 }
    exact hch.set rfl (hsets.trans (Registry.sets_modify hsets.self _))
      ((Trace.extends_record _ _).trans
        ((Trace.extends_record _ _).trans (Trace.extends_record _ _)))
      (by simp [Event.component?, eq_comm]) [.inputWritten id i 0, .triggered id]
      (by simp [Event.component?]) ((hch.stories id r hr).start (hm.records id r hr) hp i)
      ((Prompt.written i).append (.starting id i))
  | @account s c i n r _ hr _ _ hp hn =>
    exact hch.set rfl (Registry.sets_modify hr _) (Trace.extends_record _ _)
      (by simp [Event.component?, eq_comm]) [.inputWritten _ i n] (by simp [Event.component?])
      ((hch.stories _ r hr).count (hm.records _ r hr) hp i)
      (.waiting _ i (hm.more_to_come hr hp hn))
  | @accountRun s c i r _ _ hr _ _ hp =>
    have hsets := Registry.sets_modify hr fun r => { r with pending := 0 }
    exact hch.set rfl (hsets.trans (Registry.sets_modify hsets.self _))
      ((Trace.extends_record _ _).trans (Trace.extends_record _ _))
      (by simp [Event.component?, eq_comm]) [.inputWritten _ i 0, .triggered _]
      (by simp [Event.component?]) ((hch.stories _ r hr).start (hm.records _ r hr) hp i)
      (.starting _ i)
  | trigger hb => exact absurd hb hm.not_startable
  | @finish s c id =>
    -- The record is the running one that the body was begun for.
    obtain ⟨r, hr, hs⟩ := hm.running id (List.mem_cons_self ..)
    have hr : c.registry.get? id = some r := hr
    exact hch.set rfl (Registry.sets_modify hr _) (Trace.extends_record _ _)
      (by simp [Event.component?, eq_comm]) [.finished id] (by simp [Event.component?])
      ((hch.stories id r hr).finish hs) (.single rfl fun _ => by simp)
  | @release s c id r hr hf =>
    exact hch.set rfl (Registry.sets_modify hr _) (Trace.extends_record _ _)
      (by simp [Event.component?, eq_comm]) [.released id] (by simp [Event.component?])
      ((hch.stories id r hr).release hf _) (.single rfl fun _ => by simp)
  | count hq => exact absurd rfl (hq _)

/-- Along a path the chronicle is kept. -/
theorem Path.chronicled {m m' : Moment} (h : Path .noCount m m') (hm : m.Settled)
    (hfit : m.state.circuit.CountersFit) (hch : m.state.Chronicled) : m'.state.Chronicled := by
  refine (h.keeps (I := fun m' => m'.state.Chronicled ∧ m'.Settled ∧
    m'.state.circuit.CountersFit) ?_ ⟨hch, hm, hfit⟩).1
  rintro m₁ m₂ ⟨hch, hm, hfit⟩ hs
  exact ⟨hs.chronicled hm hfit hch, hs.settled hm hfit, hs.circuit_eq.1 ▸ hfit⟩

/-- At the start nothing was written but the constant one. -/
theorem Moment.chronicled_start (circuit : Circuit) {config : Config}
    (hon : config.recordTrace = true) : (Moment.start circuit config).state.Chronicled := by
  have hnone : ∀ id, (Moment.start circuit config).state.registry.get? id = none :=
    Registry.get?_empty _
  have hlist : (Moment.start circuit config).state.trace.enabled = true ∧
      ((Moment.start circuit config).state.trace.toList = [] ∨
        (Moment.start circuit config).state.trace.toList = [.signalWritten 0]) := by
    unfold Moment.start Computation.start
    dsimp only
    split
    · exact ⟨hon, .inl rfl⟩
    · have hempty : (Trace.empty config.recordTrace).enabled = true := hon
      rw [Trace.enabled_record, Trace.toList_record, if_pos hempty]
      exact ⟨hon, .inr rfl⟩
  obtain ⟨hen, hlist⟩ := hlist
  refine ⟨hen, fun id _ => ?_, fun id r hr => ?_, ?_⟩
  · unfold Trace.eventsOf
    rcases hlist with h | h <;> rw [h] <;> rfl
  · rw [hnone id] at hr
    cases hr
  · rcases hlist with h | h <;> rw [h]
    · exact .nil
    · exact .written 0

/-! ## Lives in whole runs -/

/-- Bodies start as often as the milestones say. -/
theorem Trace.triggers_eq (t : Trace) (id : Handle) :
    t.triggers id = ((t.eventsOf id).map Event.milestone?).count (some .triggered) := by
  unfold Trace.triggers Trace.eventsOf List.count
  rw [List.countP_map, List.countP_filter]
  refine List.countP_congr fun e _ => ?_
  cases e <;> simp [Event.milestone?, Event.component?]

/-- No life has two starts. -/
theorem count_triggered_life (inputs : Nat) :
    ((life inputs).map some).count (some .triggered) = 1 := by
  rw [List.count_map_of_injective _ some fun _ _ h => Option.some.inj h]
  unfold life
  rw [List.cons_append, List.count_cons, List.count_append, Milestone.count_inputs .triggered nofun]
  rfl

/-- So no component is started twice. -/
theorem Computation.Chronicled.triggers_le {m : Moment} (h : m.state.Chronicled)
    (hm : m.Settled) (id : Handle) : m.state.trace.triggers id ≤ 1 := by
  rw [Trace.triggers_eq]
  cases hr : m.state.registry.get? id with
  | none => rw [h.silent id hr]; exact Nat.zero_le _
  | some r =>
    have hset := hm.records id r hr
    obtain ⟨shape, hshape, hle⟩ := hset.known
    rw [(h.stories id r hr).past shape hshape]
    have hbegin := (Component.past_within_life hle hset.agrees).map some
    exact Nat.le_trans (hbegin.count_le _) (Nat.le_of_eq (count_triggered_life _))

/-- An event counts a last missing input either by an arrival or by the creation of a component
    without inputs. -/
theorem Event.of_ripe {templates : TemplateTable} {e : Event} {id : Handle}
    (h : e.ripe? templates = some id) : (∃ signal, e = .inputWritten id signal 0) ∨
      ∃ t shape, e = .created id t ∧ templates.shape? t = some shape ∧ shape.inputs = 0 := by
  unfold ripe? at h
  split at h
  · cases h
    exact .inl ⟨_, rfl⟩
  · split at h
    · rename_i hany
      cases h
      obtain ⟨shape, hshape, hzero⟩ := (Option.any_eq_true _ _).mp hany
      exact .inr ⟨_, shape, rfl, hshape, by simpa using hzero⟩
    · cases h
  · cases h

/-- The start of a body is the last event when the body is entered. -/
theorem Entry.Starts.getLast? {circuit : Circuit} {x : Entry} (h : x.Starts circuit)
    (hon : x.state.trace.enabled = true) :
    x.state.trace.toList.getLast? = some (.triggered x.id) := by
  obtain ⟨c, hc⟩ := h.begun
  rw [hc] at hon ⊢
  have hon : (c.trace.record (.triggered x.id)).enabled = true := hon
  rw [Trace.enabled_record] at hon
  show (c.trace.record (.triggered x.id)).toList.getLast? = _
  rw [Trace.toList_record, if_pos hon, List.getLast?_concat]

/-- **Every body runs once, as soon as its inputs are complete.**  A program acts on an accepted
    circuit from the start with the trace switched on, by any requests but to count an input
    without writing one, and so do the bodies.  Then at every moment of the run

    * the events about a component are the beginning of its life, its creation at least, and there
      are none about a handle without a component;
    * where a count comes to zero the next event is the start of that body, and it starts nowhere
      else, so it starts once at most;
    * a request that enters a body does so at the very event of its start. -/
theorem Program.Visits.runs_once {α : Type} {levels : Nat} {p : Program α}
    {d : CircuitDescription} {circuit : Circuit} {config : Config} {m : Moment}
    {next : Option Request} (hd : d.accept = .ok circuit) (hfit : circuit.CountersFit)
    (hon : config.recordTrace = true) (hc : circuit.Only Request.NoCount)
    (hp : p.Only Request.NoCount) (hv : p.Visits levels (.start circuit config) next m) :
    (∀ id r, m.state.registry.get? id = some r → ∃ shape rest,
      circuit.templates.shape? r.template = some shape ∧
      m.state.trace.eventsOf id = .created id r.template :: rest ∧
      (m.state.trace.eventsOf id).map Event.milestone? <+: (life shape.inputs).map some) ∧
    (∀ id, m.state.registry.get? id = none → m.state.trace.eventsOf id = []) ∧
    (∀ i id signal, m.state.trace.toList[i]? = some (.inputWritten id signal 0) →
      m.state.trace.toList[i + 1]? = some (.triggered id)) ∧
    (∀ i id t shape, m.state.trace.toList[i]? = some (.created id t) →
      circuit.templates.shape? t = some shape → shape.inputs = 0 →
      m.state.trace.toList[i + 1]? = some (.triggered id)) ∧
    (∀ i id, m.state.trace.toList[i]? = some (.triggered id) → ∃ j, i = j + 1 ∧
      ((∃ signal, m.state.trace.toList[j]? = some (.inputWritten id signal 0)) ∨
        ∃ t shape, m.state.trace.toList[j]? = some (.created id t) ∧
          circuit.templates.shape? t = some shape ∧ shape.inputs = 0)) ∧
    (∀ id, m.state.trace.triggers id ≤ 1) ∧
    ∀ (below : Nat) (q : Request) (x : Entry), q.NoCount →
      Enters (enterWithin below) (fun e => q.perform e) m.state x →
      x.state.trace.toList.getLast? = some (.triggered x.id) := by
  have hm : m.Regular := hv.regular hd hfit hc hp
  have hpath := hv.path_noCount hc hp
  have hcirc : m.state.circuit = circuit := hpath.circuit_eq.1
  have hch : m.state.Chronicled := hpath.chronicled (Moment.settled_start circuit config) hfit
    (Moment.chronicled_start circuit hon)
  have hprompt : Prompt circuit.templates m.state.trace.toList := hcirc ▸ hch.prompt
  refine ⟨fun id r hr => ?_, hch.silent, fun i id signal he => hprompt.next i _ id he rfl,
    fun i id t shape he ht hn => hprompt.next i _ id he ?_, fun i id he => ?_,
    hch.triggers_le hm.settled, fun below q x hq hx => ?_⟩
  · have hset := hm.settled.records id r hr
    have hstory := hch.stories id r hr
    obtain ⟨shape, hshape, hle⟩ := hset.known
    obtain ⟨rest, hrest⟩ := List.head?_eq_some_iff.mp hstory.head
    refine ⟨shape, rest, hcirc ▸ hshape, hrest, ?_⟩
    rw [hstory.past shape hshape]
    exact (Component.past_within_life hle hset.agrees).map some
  · simp [Event.ripe?, ht, hn]
  · obtain ⟨j, e, hj, he', hripe⟩ := hprompt.cause i id he
    refine ⟨j, hj, ?_⟩
    rcases Event.of_ripe hripe with ⟨signal, rfl⟩ | ⟨t, shape, rfl, ht, hn⟩
    · exact .inl ⟨signal, he'⟩
    · exact .inr ⟨t, shape, he', ht, hn⟩
  · have hfollows : Follows .noCount (enterWithin below) m.stack (fun e => q.perform e) m.state
        fun _ _ => True := Request.follows hm.upright q hq
    obtain ⟨hreach, -⟩ := hfollows.noCount hm.upright hm.only
    rcases hreach x with ⟨-, hpx, hstarts⟩ | hno
    · exact hstarts.getLast? (Path.chronicled hpx hm.settled hm.fits hch).enabled
    · exact absurd hx (not_enters hno)

/-- The same inside the body of the small circuit's main component. -/
theorem Program.Visits.runs_once_relay :
    relayInside.trace.toList = [.signalWritten 0, .created ⟨0⟩ ⟨0⟩, .signalWritten 2,
      .inputWritten ⟨0⟩ 2 1, .signalWritten 3, .inputWritten ⟨0⟩ 3 0, .triggered ⟨0⟩] ∧
    ∀ id r, relayInside.registry.get? id = some r → ∃ shape rest,
      relay.templates.shape? r.template = some shape ∧
      relayInside.trace.eventsOf id = .created id r.template :: rest ∧
      (relayInside.trace.eventsOf id).map Event.milestone? <+: (life shape.inputs).map some :=
  ⟨by decide, (runs_once accept_relay relay_fits rfl
    (relay_only.mono fun _ => Request.Ordinary.noCount)
    (relayProgram_only.mono fun _ => Request.Ordinary.noCount) relay_visits).1⟩

end CircuitWitness
