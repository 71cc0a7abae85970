import CircuitWitness.Proofs.Life
/-
  Starts and ends of bodies are brackets.

  In a trace, the start of a body opens a bracket and its end closes it.  A stretch of a trace is
  read with the list of brackets that are open, the innermost first; an end that does not belong to
  the innermost open body has no place in it (`Event.nest`).

  `Computation.Opens` says what a stretch of a computation leaves open: in the trace, the bodies
  that began and did not end, and in the registry, the components that are running now and were not
  before.  These are the same.  Stretches are put together from five laws: nothing happens,
  one stretch follows another, and a body that begins ends, or fails, or finds itself in a failure
  further in.
-/

namespace CircuitWitness

/-- The bodies that are open after an event, the innermost first, if the event has its place. -/
def Event.nest : List Handle → Event → Option (List Handle)
  | st, .triggered id => some (id :: st)
  | top :: st, .finished id => if top = id then some st else none
  | [], .finished _ => none
  | st, _ => some st

/-- The bodies that are open after some events, if these are nested. -/
def nested (st : List Handle) (events : List Event) : Option (List Handle) :=
  events.foldlM Event.nest st

/-- The body of a component is running, or failed and was left behind. -/
def Computation.Running (c : Computation) (id : Handle) : Prop :=
  c.registry.stage? id = some .running

/-- Bodies nest through two stretches if they nest through the first and then through the
    second. -/
theorem nested_append (st : List Handle) (l l' : List Event) :
    nested st (l ++ l') = (nested st l).bind fun st' => nested st' l' :=
  List.foldlM_append

/-- From one state to another, bodies began and ended in a nested way, and those that are listed
    began and did not end, the innermost first.  They are the ones that are running since then. -/
structure Computation.Opens (c c' : Computation) (opened : List Handle) : Prop where
  trace : ∃ block, c.trace.Extends c'.trace block ∧
    ∀ outer, nested outer block = some (opened ++ outer)
  running : ∀ id, c'.Running id ↔ c.Running id ∨ id ∈ opened
  fresh : ∀ id ∈ opened, ¬ c.Running id
  nodup : opened.Nodup

namespace Computation

variable {c c' c'' : Computation} {id : Handle} {opened : List Handle}

/-- A stage is that of a record. -/
theorem running_iff {reg : Registry} {r : Component} (h : reg.get? id = some r) :
    reg.stage? id = some .running ↔ r.stage = .running := by
  unfold Registry.stage?
  rw [h]
  simp

/-- What has started is no longer created. -/
theorem started_iff : c.Started id ↔ ∃ st, c.registry.stage? id = some st ∧ st ≠ .created := by
  unfold Started Registry.stage?
  constructor
  · rintro ⟨r, hr, hs⟩
    exact ⟨r.stage, by rw [hr]; rfl, hs⟩
  · rintro ⟨st, hst, hs⟩
    obtain ⟨r, hr, rfl⟩ := Option.map_eq_some_iff.mp hst
    exact ⟨r, hr, hs⟩

/-- And it stays so as components age. -/
theorem Started.ages (h : c.Started id) (hages : c.registry.Ages c'.registry) :
    c'.Started id := by
  obtain ⟨r, hr, hs⟩ := h
  obtain ⟨r', hr', ha⟩ := hages id r hr
  exact ⟨r', hr', ha.begun hs⟩

/-- Setting a record sets the stage of one component. -/
theorem stage?_sets {reg reg' : Registry} {r : Component} (h : reg.Sets reg' id r)
    (other : Handle) :
    reg'.stage? other = if id = other then some r.stage else reg.stage? other := by
  unfold Registry.stage?
  rw [h other]
  split <;> rfl

/-! ## The laws -/

theorem Opens.refl (c : Computation) : c.Opens c [] :=
  ⟨⟨[], Trace.extends_refl _, fun _ => rfl⟩, fun _ => by simp, by simp, List.nodup_nil⟩

/-- A stretch that leaves nothing open, and another one. -/
theorem Opens.trans (h : c.Opens c' []) (h' : c'.Opens c'' opened) : c.Opens c'' opened := by
  obtain ⟨block, hx, hn⟩ := h.trace
  obtain ⟨block', hx', hn'⟩ := h'.trace
  have hrun : ∀ id, c'.Running id ↔ c.Running id := fun id => by simpa using h.running id
  refine ⟨⟨block ++ block', hx.trans hx', fun outer => ?_⟩, fun id => ?_, fun id hid => ?_,
    h'.nodup⟩
  · rw [nested_append, hn]
    exact hn' outer
  · rw [h'.running id, hrun id]
  · rw [← hrun id]
    exact h'.fresh id hid

/-- Going back to a caller opens nothing. -/
theorem Opens.left (h : c.Opens c' opened) (caller : Option Handle) :
    c.Opens (c'.left caller) opened := ⟨h.trace, h.running, h.fresh, h.nodup⟩

/-- Events that neither start nor end a body. -/
theorem Opens.calm {block : List Event} (hx : c.trace.Extends c'.trace block)
    (hcalm : ∀ e ∈ block, ∀ outer, e.nest outer = some outer)
    (hrun : ∀ id, c'.Running id ↔ c.Running id) : c.Opens c' [] := by
  refine ⟨⟨block, hx, fun outer => ?_⟩, fun id => by simpa using hrun id, by simp,
    List.nodup_nil⟩
  show nested outer block = some outer
  clear hx
  induction block with
  | nil => rfl
  | cons e rest ih =>
    have he : e.nest outer = some outer := hcalm e (List.mem_cons_self ..) outer
    show (e.nest outer).bind (fun st => nested st rest) = some outer
    rw [he]
    exact ih fun e' he' => hcalm e' (List.mem_cons_of_mem e he')

/-- What was not running is running when its body has begun, and all others are as before. -/
theorem running_begun {r : Component} (hr : c.registry.get? id = some r) (other : Handle) :
    (c.begun id).Running other ↔ c.Running other ∨ other = id := by
  have hsets := Registry.sets_modify hr fun r => { r with stage := .running }
  show (c.registry.modify id _).stage? other = _ ↔ c.registry.stage? other = _ ∨ _
  rw [stage?_sets hsets]
  by_cases he : id = other
  · simp [he]
  · simp [he, Ne.symm he]

/-- A body that begins and does not end is open, after those that it left open itself. -/
theorem Opens.begin {r : Component} (hr : c.registry.get? id = some r)
    (hs : r.stage ≠ .running) (h : (c.begun id).Opens c' opened) :
    c.Opens c' (opened ++ [id]) := by
  obtain ⟨block, hx, hn⟩ := h.trace
  have hid : id ∉ opened := fun hmem => h.fresh id hmem ((running_begun hr id).mpr (.inr rfl))
  refine ⟨⟨.triggered id :: block, ?_, fun outer => ?_⟩, fun other => ?_, fun other hother => ?_,
    ?_⟩
  · have hbegin : c.trace.Extends (c.begun id).trace [.triggered id] := Trace.extends_record _ _
    exact hbegin.trans hx
  · show nested (id :: outer) block = some ((opened ++ [id]) ++ outer)
    rw [hn, List.append_assoc]
    rfl
  · rw [h.running other, running_begun hr other]
    simp only [List.mem_append, List.mem_singleton]
    tauto
  · rcases List.mem_append.mp hother with hmem | hmem
    · intro hrun
      exact h.fresh other hmem ((running_begun hr other).mpr (.inl hrun))
    · rw [List.mem_singleton.mp hmem]
      intro hrun
      exact hs ((running_iff hr).mp hrun)
  · exact List.nodup_append.mpr ⟨h.nodup, by simp, fun a ha b hb => by
      rw [List.mem_singleton.mp hb]
      rintro rfl
      exact hid ha⟩

/-- A body that begins and ends leaves nothing open. -/
theorem Opens.around {r : Component} (hr : c.registry.get? id = some r)
    (hs : r.stage ≠ .running) (h : (c.begun id).Opens c' []) (caller : Option Handle) :
    c.Opens (c'.ended id caller) [] := by
  obtain ⟨block, hx, hn⟩ := h.trace
  have hrun : ∀ other, c'.Running other ↔ c.Running other ∨ other = id := fun other => by
    rw [← running_begun hr other]
    simpa using h.running other
  refine ⟨⟨.triggered id :: (block ++ [.finished id]), ?_, fun outer => ?_⟩, fun other => ?_,
    by simp, List.nodup_nil⟩
  · have hbegin : c.trace.Extends (c.begun id).trace [.triggered id] := Trace.extends_record _ _
    have hend : c'.trace.Extends (c'.ended id caller).trace [.finished id] :=
      Trace.extends_record _ _
    exact hbegin.trans (hx.trans hend)
  · show nested (id :: outer) (block ++ [.finished id]) = some ([] ++ outer)
    rw [nested_append, hn]
    simp [nested, Event.nest]
  · -- Of the two components that are running more, the one that ended is running no longer.
    obtain ⟨r', hr'⟩ : ∃ r', c'.registry.get? id = some r' := by
      have hself : c'.registry.stage? id = some .running := (hrun id).mpr (.inr rfl)
      obtain ⟨r', hr', -⟩ := Option.map_eq_some_iff.mp hself
      exact ⟨r', hr'⟩
    have hsets := Registry.sets_modify hr' fun r => { r with stage := .finished }
    show (c'.registry.modify id _).stage? other = _ ↔ _
    rw [stage?_sets hsets]
    by_cases he : id = other
    · subst he
      have hno : ¬ c.Running id := fun h => hs ((running_iff hr).mp h)
      simp [hno]
    · rw [if_neg he]
      exact (hrun other).trans (by simp [Ne.symm he])

end Computation
end CircuitWitness
