import CircuitWitness.Proofs.Audit
import CircuitWitness.Proofs.Calculation
import CircuitWitness.Proofs.Tidy
/-
  Runs that the audit passes.

  A run is driven from outside all bodies: by an assignment of the main inputs, or by a caller who
  creates the main component and writes its inputs.  When all bodies are compiled ones, the run
  leaves its computation in order (`Computation.InOrder`).  The three parts of that come from three
  sides.

  * The counts and the places of the events are those of the stories of the components.
  * That children come back is kept by everything a caller does: seen from outside, every component
    but the main one is back (`Computation.Home`).
  * That no signal is read early is known of runs with strict reads that return.  So it is asked
    that the run returns with strict reads as well; with lenient ones it goes the same way.
-/

namespace CircuitWitness

open CircuitWitness.Action

/-! ## Seen from outside all bodies -/

/-- Every component but the main one is back, and that one has no children before it begins. -/
structure Computation.Home (circuit : Circuit) (c : Computation) : Prop
    extends c.Clear circuit .mainComponent where
  back : ∀ id r, id ≠ .mainComponent → c.registry.get? id = some r → c.Returned id

namespace Computation.Home

variable {circuit : Circuit} {config : Config} {c c' : Computation} {block : List Event}
  {enter : Enter}

/-- At the start there are no components and no events, so everything is in its place. -/
theorem start (circuit : Circuit) (hon : config.recordTrace = true) :
    (Computation.start circuit config).Home circuit := by
  have hnone : ∀ id, (Computation.start circuit config).registry.get? id = none :=
    Registry.get?_empty circuit.totalComponents
  refine ⟨⟨rfl, (Moment.chronicled_start circuit hon).enabled, fun r hr => ?_⟩,
    fun id r _ hr => ?_⟩
  · rw [hnone] at hr
    cases hr
  · rw [hnone] at hr
    cases hr

/-- Nothing happens to the components. -/
theorem frame (h : c.Home circuit) (hcircuit : c'.circuit = c.circuit)
    (hx : c.trace.Extends c'.trace block) (hr : c'.registry = c.registry) : c'.Home circuit := by
  obtain ⟨hon, htrace⟩ := hx h.enabled
  refine ⟨⟨hcircuit.trans h.circuit, hon, fun r hget => h.vacant r (hr ▸ hget)⟩,
    fun id r hid hget => ?_⟩
  exact (h.back id r hid (hr ▸ hget)).later (by rw [hr]) htrace

/-- Something is done for the main component. -/
theorem serves (h : c.Home circuit) (hs : c.Serves .mainComponent c') : c'.Home circuit := by
  obtain ⟨block, hx⟩ := hs.told
  refine ⟨h.toClear.serves hs, fun id r hid hr => ?_⟩
  rcases hs.others id hid with hsame | ⟨-, hback⟩
  · exact (h.back id r hid (hsame ▸ hr)).later hsame (hx h.enabled).2
  · exact hback

section

variable (henter : enter.Tidy circuit)

include henter

/-- Whatever the main component does when it is created, it leaves things in their place. -/
theorem create (h : c.Home circuit) (t : TemplateId) (start : Nat) (label : String)
    (parent : Option Handle) :
    (Action.create enter .mainComponent t start label parent).Yields c fun _ => Home circuit := by
  cases ht : c.circuit.templates.shape? t with
  | none => exact .of_error (create_unknown ht)
  | some shape =>
    cases hr : c.registry.create .mainComponent
        (Component.fresh t start shape.inputCounter shape.slots label parent) with
    | error d => exact .of_error (create_refused ht hr)
    | ok reg =>
      have hsets := Registry.sets_create hr
      have hx : c.trace.Extends (c.enrolled reg .mainComponent t).trace
          [.created .mainComponent t] := Trace.extends_record _ _
      obtain ⟨hon, htrace⟩ := hx h.enabled
      have hnext : (c.enrolled reg .mainComponent t).Home circuit := by
        refine ⟨⟨h.circuit, hon, fun r hget _ => ?_⟩, fun id r hid hget => ?_⟩
        · cases hget.symm.trans hsets.self
          exact vacantFrom_replicate 0 shape.slots
        · have hsame := (hsets id).trans (if_neg hid.symm)
          exact (h.back id r hid (hsame.symm.trans hget)).later hsame htrace
      by_cases hn : shape.inputs = 0
      · exact .of_eq ((create_ok ht hr).trans (if_pos hn))
          ((hnext.toClear.trigger henter).mono fun _ _ hs => hnext.serves hs)
      · exact .of_ok ((create_ok ht hr).trans (if_neg hn)) hnext

theorem writeInput (h : c.Home circuit) (l : Nat) (v : Scalar) :
    (Action.writeInput enter .mainComponent l v).Yields c fun _ => Home circuit :=
  (h.toClear.writeInput henter l v).mono fun _ _ hs => h.serves hs

/-- Input by input, the main component stays where it belongs. -/
theorem arriveAll (h : c.Home circuit) (signals : List Nat) :
    (Action.arriveAll enter signals).Yields c fun _ => Home circuit := by
  induction signals generalizing c with
  | nil => exact .of_ok rfl h
  | cons i rest ih =>
    exact .bind ((h.toClear.arrive henter i).mono fun _ _ hs => ih (h.serves hs))

theorem runMain (h : c.Home circuit) :
    (Action.runMain enter).Yields c fun _ => Home circuit :=
  .runMain ((h.create henter _ _ _ _).mono fun _ _ h => h.arriveAll henter _)

theorem assignAll (h : c.Home circuit) (inputs : InputValues) :
    (Action.assignAll enter inputs).Yields c fun _ => Home circuit :=
  .assignEntries (fun _ i _ h => h.frame rfl (Trace.extends_record _ (.signalWritten i)) rfl)
    (fun _ h => h.runMain henter) h inputs.entries

end

end Computation.Home

/-- A request by which a caller feeds the main component or starts it. -/
def Request.Feeds : Request → Prop
  | .create id _ _ _ _ | .writeInput id _ _ => id = .mainComponent
  | .assignAll _ | .runMain | .stage _ => True
  | _ => False

/-- A request that feeds inputs counts none by hand. -/
theorem Request.Feeds.noCount {q : Request} (h : q.Feeds) : q.NoCount := by
  rintro id rfl
  exact h

/-- What a caller does leaves the other components where they are back. -/
theorem Computation.Home.request {circuit : Circuit} {enter : Enter} {c : Computation}
    (henter : enter.Tidy circuit) (h : c.Home circuit) {q : Request} (hq : q.Feeds) :
    (q.perform enter).Yields c fun _ => Home circuit := by
  cases q with
  | create id t start label parent =>
    obtain rfl : id = .mainComponent := hq
    exact h.create henter t start label parent
  | writeInput id l v =>
    obtain rfl : id = .mainComponent := hq
    exact h.writeInput henter l v
  | assignAll inputs => exact h.assignAll henter inputs
  | runMain => exact h.runMain henter
  | stage id => exact .of_ok rfl h
  | _ => exact hq.elim

/-! ## Once in a trace -/

/-- The events of a life are all different. -/
theorem nodup_life (inputs : Nat) : (life inputs).Nodup := by
  unfold life
  rw [List.cons_append, List.nodup_cons, List.nodup_append]
  refine ⟨by simp, ?_, by decide, by simp⟩
  exact (List.nodup_reverse.mpr List.nodup_range).map fun _ _ h => Milestone.input.inj h

/-- No milestone of a component is told twice. -/
theorem Computation.Chronicled.count_le_one {m : Moment} (h : m.state.Chronicled) (hm : m.Settled)
    {id : Handle} {e : Event} (he : e.component? = some id) :
    m.state.trace.toList.count e ≤ 1 := by
  have hown : m.state.trace.toList.count e = (m.state.trace.eventsOf id).count e := by
    unfold Trace.eventsOf
    rw [List.count_filter (by simp [he])]
  have hmap : (m.state.trace.eventsOf id).count e
      ≤ ((m.state.trace.eventsOf id).map Event.milestone?).count e.milestone? :=
    List.count_le_count_map
  refine Nat.le_trans (Nat.le_of_eq hown) (Nat.le_trans hmap ?_)
  cases hr : m.state.registry.get? id with
  | none =>
    rw [h.silent id hr]
    exact Nat.zero_le 1
  | some r =>
    have hset := hm.records id r hr
    obtain ⟨shape, hshape, hle⟩ := hset.known
    have hnodup := (Component.past_within_life hle hset.agrees).sublist.nodup
      (nodup_life shape.inputs)
    rw [(h.stories id r hr).past shape hshape]
    exact List.nodup_iff_count_le_one.mp
      (hnodup.map fun _ _ h => Option.some.inj h) e.milestone?

/-! ## Order -/

/-- A computation is in order: it passes the audit; the trace tells once that a component other
    than the main one was released, once that its parent finished, and in this order; and before
    every read of a signal it tells of a write to it. -/
structure Computation.InOrder (c : Computation) : Prop where
  audited : c.audit = .ok ()
  released : ∀ id r, id ≠ .mainComponent → c.registry.get? id = some r → ∃ p,
    r.parent = some p ∧ c.trace.toList.count (.released id) = 1 ∧
      c.trace.toList.count (.finished p) = 1 ∧
      [.released id, .finished p].Sublist c.trace.toList
  reads : ∀ (k i : Nat) (w : Bool), c.trace.toList[k]? = some (.signalRead i w) →
    ∃ j < k, c.trace.toList[j]? = some (.signalWritten i)

/-- Without early reads, there is a write before every read. -/
theorem Computation.Faithful.reads_written {c : Computation} (h : c.Faithful)
    (hreads : c.trace.earlyReads = []) {k i : Nat} {w : Bool}
    (hk : c.trace.toList[k]? = some (.signalRead i w)) :
    ∃ j < k, c.trace.toList[j]? = some (.signalWritten i) := by
  cases w with
  | false =>
    have hnone := List.filterMap_eq_nil_iff.mp hreads _ (List.mem_of_getElem? hk)
    cases hnone
  | true =>
    obtain ⟨j, hj⟩ := List.mem_iff_getElem?.mp ((h.reads k i true hk).mp rfl)
    rw [List.getElem?_take] at hj
    split at hj
    · exact ⟨j, ‹_›, hj⟩
    · cases hj

/-- What a run leaves is in order, if the components are back, no signal was read early and the
    main component has begun. -/
theorem Computation.Home.inOrder {circuit : Circuit} {m : Moment} (h : m.state.Home circuit)
    (hch : m.state.Chronicled) (hm : m.Settled) (hf : m.state.Faithful)
    (hreads : m.state.trace.earlyReads = [])
    (hmain : m.state.registry.stage? .mainComponent ≠ some .created) : m.state.InOrder := by
  have hback : ∀ id r, id ≠ .mainComponent → m.state.registry.get? id = some r →
      r.stage = .released ∧ ∃ p, r.parent = some p ∧
        [.released id, .finished p].Sublist m.state.trace.toList := by
    intro id r hid hr
    obtain ⟨r', p, hr', hs, hp, hsub⟩ := h.back id r hid hr
    cases hr.symm.trans hr'
    exact ⟨hs, p, hp, hsub⟩
  refine ⟨hch.audit_ok hm (fun id r hr hs => ?_) (fun id r hr hid => (hback id r hid hr).1) hreads,
    fun id r hid hr => ?_, fun k i w hk => hf.reads_written hreads hk⟩
  · by_cases hid : id = .mainComponent
    · subst hid
      exact hmain (Registry.stage?_eq_some.mpr ⟨r, hr, hs⟩)
    · rw [(hback id r hid hr).1] at hs
      cases hs
  · obtain ⟨-, p, hp, hsub⟩ := hback id r hid hr
    have hone : ∀ e ∈ [Event.released id, Event.finished p], ∀ other, e.component? = some other →
        m.state.trace.toList.count e = 1 := fun e he other hother =>
      Nat.le_antisymm (hch.count_le_one hm hother) (List.count_pos_iff.mpr (hsub.subset he))
    exact ⟨p, hp, hone _ (by simp) id rfl, hone _ (by simp) p rfl, hsub⟩

/-! ## Runs of a caller -/

namespace Procedure

variable {α : Type} {circuit : Circuit} {config : Config} {p : Procedure α} {a : α}
  {c c' : Computation}

/-- A run that returns with strict reads has read no signal early, and one with lenient reads is
    no different. -/
theorem earlyReads_run (hc : circuit.Strict) (hp : Program.Strict (ExceptT.run p))
    (hon : config.recordTrace = true) (h : p.run (.start circuit config) = .ok a c)
    (hstrict : p.run (.start circuit config.strict) = .ok a c') : c.trace.earlyReads = [] := by
  have hforks : Action.Forks circuit
      (runWith (enterWithin (Registry.empty circuit.totalComponents).capacity) p) :=
    .program (hc.forks _) hp
  have hstart : (Computation.start circuit { config with checkReads := false }).Reading
      circuit [] := Computation.reading_start hon rfl
  obtain ⟨d, hlenient, rfl, hearly⟩ := hforks.of_strict hstart hstrict
  -- The run in question is one of these two, as its own reads are.
  cases hreads : config.checkReads with
  | true =>
    have hsame : config.strict = config := by
      unfold Config.strict
      rw [← hreads]
    rw [hsame] at hstrict
    cases h.symm.trans hstrict
    exact hearly
  | false =>
    have hsame : { config with checkReads := false } = config := by rw [← hreads]
    rw [hsame] at hlenient
    cases h.symm.trans hlenient
    exact hearly

/-- **A caller's run of compiled bodies leaves the computation in order**, if it returns with
    strict reads as well and the main component has begun. -/
theorem inOrder (hfit : circuit.CountersFit) (hc : circuit.Compiled)
    (hon : config.recordTrace = true) (hp : p.Asks Request.Feeds)
    (h : p.run (.start circuit config) = .ok a c)
    (hstrict : p.run (.start circuit config.strict) = .ok a c')
    (hmain : c.registry.stage? .mainComponent ≠ some .created) : c.InOrder := by
  have honly : Program.Only Request.NoCount (ExceptT.run p) :=
    hp.only.mono fun _ => Request.Feeds.noCount
  have hpath : Path .noCount (.start circuit config) ⟨[], c⟩ := by
    have hup := Moment.upright_start circuit config
    have hends := (Program.path_of_visits (π := .noCount)
      (Computation.start circuit config).nesting (ExceptT.run p) (.start circuit config) hup
      fun q _ hq => hq.only hup hc.only honly q rfl).1
    rwa [show ((ExceptT.run p).runWith _).after (Moment.start circuit config).state = c from
      after_ok (runWith_ok_iff.mp h)] at hends
  have hsettled := Moment.settled_start circuit config
  have hhome : c.Home circuit := hp.yields (fun _ _ hq h => h.request (hc.tidy _) hq)
    (Computation.Home.start circuit hon) a c h
  exact hhome.inOrder (m := ⟨[], c⟩)
    (hpath.chronicled hsettled hfit (Moment.chronicled_start circuit hon))
    (hpath.settled hsettled hfit)
    (hpath.faithful (Moment.faithful_start circuit hon))
    (earlyReads_run hc.strict hp.strict hon h hstrict) hmain

end Procedure
end CircuitWitness
