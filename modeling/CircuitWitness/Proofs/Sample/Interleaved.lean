import CircuitWitness.Proofs.Supply
import CircuitWitness.Proofs.Tally
import CircuitWitness.Proofs.View
import CircuitWitness.Sample.Template
/-
  Multipliers side by side.

  Some multipliers wait for their inputs, each with a block of its own.  Their inputs may come in
  any order, those of one multiplier between those of others; each body runs as soon as both inputs
  of its multiplier are there, in the middle of the writes that are still to be made.

  What has become of the computation depends only on which inputs were written (`Interleaved`): of
  every multiplier, how far it has come and what its block holds, and that nothing else has changed.
  The crux is one write (`Interleaved.write`).  It is the same whether or not it starts a body, for
  a body that has run adds the product to its own block and nothing to any other.  By induction on
  the order all writes succeed, and two computations of which the same is known are the same one.
-/

namespace CircuitWitness.Sample

open CircuitWitness.Action

variable {c c' c'' : Computation} {id : Handle} {enter : Enter}

/-! ## One body -/

/-- A signal that holds a value is read, and without a trace nothing changes. -/
theorem signal_holds {i : Nat} {v : Scalar} (h : c.store.get? i = some v)
    (htrace : c.trace.enabled = false) :
    Procedure.runWith enter (Procedure.signal i) c = .ok v c := by
  obtain ⟨hwritten, hread⟩ := SignalStore.get?_eq_some.mp h
  have hsame : c.recorded (.signalRead i true) = c := by
    unfold Computation.recorded
    rw [Trace.record_off htrace]
  refine (congrFun (Procedure.runWith_request (.signal i)) c).trans ?_
  refine (signal_written hwritten).trans ?_
  rw [hsame]
  exact inRange_some hread

/-- The body writes the product of the inputs. -/
theorem multiplierBody_eq {r : Component} {a b : Scalar} (hr : c.registry.get? id = some r)
    (ha : c.store.get? (r.signalStart + 1) = some a)
    (hb : c.store.get? (r.signalStart + 2) = some b) (hsize : r.signalStart < c.store.size)
    (htrace : c.trace.enabled = false) :
    Procedure.runWith enter (multiplierBody id) c = .ok () (c.wrote r.signalStart (a * b)) := by
  have hstart : Procedure.runWith enter (Procedure.signalStart id) c = .ok r.signalStart c := by
    have hlook : Action.look (fun c => c.signalStart id) c = .ok r.signalStart c :=
      look_ok (by unfold Computation.signalStart; rw [component_eq hr]; rfl)
    exact (congrFun (Procedure.runWith_request (.signalStart id)) c).trans hlook
  obtain ⟨w, hw⟩ := SignalStore.isWritten?_of_lt hsize
  unfold multiplierBody
  rw [Procedure.runWith_bind_ok hstart, Procedure.runWith_bind_ok (signal_holds ha htrace),
    Procedure.runWith_bind_ok (signal_holds hb htrace)]
  exact (congrFun (Procedure.runWith_request _) c).trans (setSignal_ok hw)

/-- The last input of a multiplier that waits: its body runs, and leaves the product behind. -/
theorem arrive_multiplier {q : Component} {a b : Scalar} {i : Nat} (levels : Nat)
    (hr : c.registry.get? id = some q) (hs : q.stage = .created) (hp : q.pending = 1)
    (htemplate : c.circuit.templates.get? q.template
      = some ⟨multiplierShape, multiplierBody, none⟩)
    (ha : c.store.get? (q.signalStart + 1) = some a)
    (hb : c.store.get? (q.signalStart + 2) = some b) (hsize : q.signalStart < c.store.size)
    (htrace : c.trace.enabled = false) :
    ∃ c', arrive (enterWithin (levels + 1)) id i c = .ok () c' ∧
      c' = { c with store := c'.store, registry := c'.registry } ∧
      c'.view = (c.view.write q.signalStart (a * b)).put id
        { q with pending := 0, stage := .finished } := by
  have hcounted : (c.arrived id i 0).registry.get? id = some { q with pending := 0 } :=
    (Registry.sets_modify hr _).self
  have hbegun : ((c.arrived id i 0).begun id).registry.get? id
      = some { q with pending := 0, stage := .running } :=
    (Registry.sets_modify hcounted _).self
  have hbody : c.circuit.templates.body? q.template c.config.useAlternate
      = some multiplierBody := by
    unfold TemplateTable.body?
    rw [htemplate]
    simp [Template.chosen, Template.runsAlternate]
  have hstart : (c.arrived id i 0).startable id = .ok multiplierBody :=
    startable_eq hcounted hs rfl hbody
  have hquiet : ((c.arrived id i 0).begun id).trace.enabled = false := by
    show ((c.trace.record _).record _).enabled = false
    rw [Trace.enabled_record, Trace.enabled_record, htrace]
  have hrun : enterWithin (levels + 1) multiplierBody id ((c.arrived id i 0).begun id) = _ :=
    multiplierBody_eq hbegun ha hb hsize hquiet
  refine ⟨_, (arrive_last hr hp).trans ((trigger_eq hstart).trans (runBody_ok hrun)), ?_, ?_⟩
  · unfold Computation.ended Computation.wrote Computation.begun Computation.arrived
      Computation.counted Computation.modified Computation.left Computation.recorded
    simp only [Trace.record_off htrace]
  · have hwrote : (((c.arrived id i 0).begun id).wrote q.signalStart (a * b)).registry.get? id
        = some { q with pending := 0, stage := .running } := hbegun
    rw [Computation.view_ended hwrote,
      Computation.view_wrote (c := (c.arrived id i 0).begun id) hsize,
      Computation.view_begun hcounted, Computation.view_arrived hr, View.put_put]
    refine View.ext (by simp) (by simp) (by simp) (by simp) (funext fun i => by simp)
      (funext fun other => ?_)
    simp only [View.records_put, View.records_write]
    split <;> rfl

/-! ## Multipliers that wait -/

/-- Some multipliers that wait for both inputs, in a computation without a trace.  They have no
    alternate body, and their blocks lie in the store and do not overlap. -/
structure Multipliers (c : Computation) (ids : List Handle) (r : Handle → Component) : Prop where
  distinct : ids.Nodup
  record : ∀ id ∈ ids, c.registry.get? id = some (r id)
  template : ∀ id ∈ ids,
    c.circuit.templates.get? (r id).template = some ⟨multiplierShape, multiplierBody, none⟩
  created : ∀ id ∈ ids, (r id).stage = .created
  pending : ∀ id ∈ ids, (r id).pending = 2
  inside : ∀ id ∈ ids, (r id).signalStart + 3 ≤ c.store.size
  apart : ∀ id ∈ ids, ∀ other ∈ ids, id ≠ other →
    (r id).signalStart + 3 ≤ (r other).signalStart ∨ (r other).signalStart + 3 ≤ (r id).signalStart
  untraced : c.trace.enabled = false

/-- The inputs of some multipliers: a handle and a local signal. -/
def inputsOf (ids : List Handle) : List (Handle × Nat) := ids.flatMap fun id => [(id, 1), (id, 2)]

theorem mem_inputsOf {ids : List Handle} {l : Nat} :
    (id, l) ∈ inputsOf ids ↔ id ∈ ids ∧ (l = 1 ∨ l = 2) := by
  simp only [inputsOf, List.mem_flatMap, List.mem_cons, Prod.mk.injEq, List.not_mem_nil, or_false]
  constructor
  · rintro ⟨other, hother, ⟨rfl, hl⟩ | ⟨rfl, hl⟩⟩
    · exact ⟨hother, .inl hl⟩
    · exact ⟨hother, .inr hl⟩
  · rintro ⟨hid, hl⟩
    exact ⟨id, hid, hl.imp (⟨rfl, ·⟩) (⟨rfl, ·⟩)⟩

theorem nodup_inputsOf {ids : List Handle} (h : ids.Nodup) : (inputsOf ids).Nodup := by
  refine List.nodup_flatMap.mpr ⟨fun id _ => by simp, h.imp fun {id other} hne => ?_⟩
  simp only [Function.onFun, List.disjoint_left, List.mem_cons, List.not_mem_nil, or_false]
  rintro x (rfl | rfl) <;> rintro (hx | hx) <;> exact hne (congrArg Prod.fst hx)

/-! ## Some inputs written -/

/-- How far a multiplier has come when some inputs are written. -/
def recordAfter (done : List (Handle × Nat)) (id : Handle) (r : Component) : Component :=
  if (id, 1) ∈ done ∧ (id, 2) ∈ done then { r with pending := 0, stage := .finished }
  else if (id, 1) ∈ done ∨ (id, 2) ∈ done then { r with pending := 1 }
  else r

/-- What has become of a computation when some inputs of its multipliers are written. -/
structure Interleaved (c : Computation) (ids : List Handle) (r : Handle → Component)
    (values : Handle → Nat → Scalar) (done : List (Handle × Nat)) (c' : Computation) : Prop where
  rest : c' = { c with store := c'.store, registry := c'.registry }
  size : c'.store.size = c.store.size
  capacity : c'.registry.capacity = c.registry.capacity
  record : ∀ id ∈ ids, c'.registry.get? id = some (recordAfter done id (r id))
  input : ∀ id ∈ ids, ∀ l, l = 1 ∨ l = 2 → c'.store.get? ((r id).signalStart + l)
    = if (id, l) ∈ done then some (values id l) else c.store.get? ((r id).signalStart + l)
  output : ∀ id ∈ ids, c'.store.get? (r id).signalStart
    = if (id, 1) ∈ done ∧ (id, 2) ∈ done then some (values id 1 * values id 2)
      else c.store.get? (r id).signalStart
  others : ∀ id, id ∉ ids → c'.registry.get? id = c.registry.get? id
  outside : ∀ i, (∀ id ∈ ids, i < (r id).signalStart ∨ (r id).signalStart + 3 ≤ i) →
    c'.store.get? i = c.store.get? i

namespace Interleaved

variable {ids : List Handle} {r : Handle → Component} {values : Handle → Nat → Scalar}
  {done done' : List (Handle × Nat)} {l : Nat}

/-- Before the first input is written nothing has changed. -/
theorem nil (h : Multipliers c ids r) (values : Handle → Nat → Scalar) :
    Interleaved c ids r values [] c where
  rest := rfl
  size := rfl
  capacity := rfl
  record := h.record
  input _ _ _ _ := rfl
  output _ _ := rfl
  others _ _ := rfl
  outside _ _ := rfl

/-- **The inputs that were written determine the computation.** -/
theorem unique (h : Interleaved c ids r values done c') (h' : Interleaved c ids r values done' c'')
    (hsame : ∀ x, x ∈ done ↔ x ∈ done') : c' = c'' := by
  have hstore : c'.store = c''.store := by
    refine SignalStore.ext_get? (h.size.trans h'.size.symm) fun i => ?_
    by_cases hblock : ∃ id ∈ ids, (r id).signalStart ≤ i ∧ i < (r id).signalStart + 3
    · -- The signal is the output of a multiplier, or one of its inputs.
      obtain ⟨id, hid, hle, hlt⟩ := hblock
      obtain ⟨l, rfl⟩ := Nat.exists_eq_add_of_le hle
      obtain rfl | hl : l = 0 ∨ l = 1 ∨ l = 2 := by omega
      · have hout := h.output id hid
        have hout' := h'.output id hid
        simp only [hsame] at hout
        exact hout.trans hout'.symm
      · have hin := h.input id hid l hl
        have hin' := h'.input id hid l hl
        simp only [hsame] at hin
        exact hin.trans hin'.symm
    · have hfar : ∀ id ∈ ids, i < (r id).signalStart ∨ (r id).signalStart + 3 ≤ i := by
        intro id hid
        by_contra hnear
        exact hblock ⟨id, hid, by omega⟩
      rw [h.outside i hfar, h'.outside i hfar]
  have hregistry : c'.registry = c''.registry := by
    refine Registry.ext_get? (h.capacity.trans h'.capacity.symm) fun id => ?_
    by_cases hid : id ∈ ids
    · rw [h.record id hid, h'.record id hid]
      unfold recordAfter
      simp only [hsame]
    · rw [h.others id hid, h'.others id hid]
  rw [h.rest, h'.rest, hstore, hregistry]

/-- What one write comes to: the input is there, and if it is the second one, so is the product;
    the record has come on. -/
def written (w : View) (id : Handle) (r : Component) (values : Nat → Scalar)
    (done : List (Handle × Nat)) (l : Nat) : View :=
  if (id, 1) ∈ (id, l) :: done ∧ (id, 2) ∈ (id, l) :: done then
    ((w.write (r.signalStart + l) (values l)).write r.signalStart (values 1 * values 2)).put id
      (recordAfter ((id, l) :: done) id r)
  else (w.write (r.signalStart + l) (values l)).put id (recordAfter ((id, l) :: done) id r)

section Written

variable (w : View) (id : Handle) (q : Component) (vs : Nat → Scalar) (done : List (Handle × Nat))

theorem size_written : (written w id q vs done l).size = w.size := by
  unfold written
  split <;> simp

theorem capacity_written : (written w id q vs done l).capacity = w.capacity := by
  unfold written
  split <;> simp

theorem records_written (other : Handle) : (written w id q vs done l).records other
    = if id = other then some (recordAfter ((id, l) :: done) id q) else w.records other := by
  unfold written
  split <;> simp

theorem signals_written (hl : l = 1 ∨ l = 2) (i : Nat) : (written w id q vs done l).signals i
    = if q.signalStart + l = i then some (vs l)
      else if q.signalStart = i ∧ (id, 1) ∈ (id, l) :: done ∧ (id, 2) ∈ (id, l) :: done then
        some (vs 1 * vs 2)
      else w.signals i := by
  unfold written
  by_cases hboth : (id, 1) ∈ (id, l) :: done ∧ (id, 2) ∈ (id, l) :: done
  · rw [if_pos hboth]
    simp only [View.signals_put, View.signals_write, hboth, and_true]
    by_cases hin : q.signalStart + l = i
    · rw [if_pos hin, if_pos hin, if_neg (by omega)]
    · rw [if_neg hin, if_neg hin]
  · simp only [View.signals_put, View.signals_write, hboth, and_false, if_false]

end Written

/-- A computation to which just that has happened has one input more. -/
theorem of_written (h : Multipliers c ids r) (hf : Interleaved c ids r values done c')
    (hid : id ∈ ids) (hl : l = 1 ∨ l = 2)
    (hrest : c'' = { c' with store := c''.store, registry := c''.registry })
    (hview : c''.view = written c'.view id (r id) (values id) done l) :
    Interleaved c ids r values ((id, l) :: done) c'' := by
  have hsignal : ∀ i, c''.store.get? i = _ := fun i =>
    (congrArg (fun w : View => w.signals i) hview).trans (signals_written _ _ _ _ _ hl i)
  have hrecord : ∀ other, c''.registry.get? other = _ := fun other =>
    (congrArg (fun w : View => w.records other) hview).trans (records_written _ _ _ _ _ other)
  -- The inputs of the other multipliers are written or not as they were before.
  have hmem : ∀ other l', other ≠ id → ((other, l') ∈ (id, l) :: done ↔ (other, l') ∈ done) := by
    intro other l' hne
    simp [hne]
  -- A block is this multiplier's own, or nothing was written in it.
  have hfar : ∀ i, (i < (r id).signalStart ∨ (r id).signalStart + 3 ≤ i) →
      c''.store.get? i = c'.store.get? i := by
    intro i hi
    rw [hsignal, if_neg (by omega), if_neg (by omega)]
    rfl
  have hapart : ∀ other ∈ ids, other ≠ id → ∀ k < 3,
      c''.store.get? ((r other).signalStart + k) = c'.store.get? ((r other).signalStart + k) := by
    intro other hother hne k hk
    have hblocks := h.apart other hother id hid hne
    exact hfar _ (by omega)
  exact
    { rest := by rw [hrest, hf.rest]
      size := ((congrArg View.size hview).trans (size_written ..)).trans hf.size
      capacity := ((congrArg View.capacity hview).trans (capacity_written ..)).trans hf.capacity
      record := by
        intro other hother
        rw [hrecord]
        by_cases he : id = other
        · subst he
          rw [if_pos rfl]
        · rw [if_neg he]
          refine (hf.record other hother).trans ?_
          unfold recordAfter
          simp only [hmem other _ (Ne.symm he)]
      input := by
        intro other hother l' hl'
        by_cases he : other = id
        · subst he
          rw [hsignal]
          by_cases hsame : l' = l
          · subst hsame
            rw [if_pos rfl, if_pos (List.mem_cons_self ..)]
          · have hin := hf.input other hother l' hl'
            rw [if_neg (by omega), if_neg (by omega)]
            simp only [List.mem_cons, Prod.mk.injEq, hsame, and_false, false_or]
            exact hin
        · rw [hapart other hother he l' (by omega), hf.input other hother l' hl']
          simp only [hmem other l' he]
      output := by
        intro other hother
        by_cases he : other = id
        · subst he
          rw [hsignal, if_neg (by omega)]
          simp only [true_and]
          split
          · rfl
          · -- One input is still to come, so it was to come before.
            rename_i hboth
            refine (hf.output other hother).trans (if_neg fun hdone => hboth ?_)
            exact ⟨List.mem_cons_of_mem _ hdone.1, List.mem_cons_of_mem _ hdone.2⟩
        · have hout := hapart other hother he 0 (by omega)
          rw [Nat.add_zero] at hout
          rw [hout, hf.output other hother]
          simp only [hmem other _ he]
      others := by
        intro other hother
        have hne : id ≠ other := fun he => hother (he ▸ hid)
        rw [hrecord, if_neg hne]
        exact hf.others other hother
      outside := fun i hi => (hfar i (hi id hid)).trans (hf.outside i hi) }

/-- A computation that was only fed has the circuit and the trace it had before. -/
theorem same (h : Interleaved c ids r values done c') :
    c'.circuit = c.circuit ∧ c'.trace = c.trace := by
  rw [h.rest]
  exact ⟨rfl, rfl⟩

section Write

variable (h : Multipliers c ids r) (hf : Interleaved c ids r values done c') (hid : id ∈ ids)
  (hl : l = 1 ∨ l = 2)
include h hf hid hl

/-- An input of a multiplier that waits is written and counted. -/
theorem writeInput_eq (enter : Enter) {n : Nat}
    (hr : c'.registry.get? id = some { r id with pending := n }) :
    Action.writeInput enter id l (values id l) c'
      = arrive enter id ((r id).signalStart + l) (c'.wrote ((r id).signalStart + l) (values id l)) ∧
    (c'.wrote ((r id).signalStart + l) (values id l)).view
      = c'.view.write ((r id).signalStart + l) (values id l) := by
  have hshape : c'.circuit.templates.shape? (r id).template = some multiplierShape := by
    rw [hf.same.1]
    unfold TemplateTable.shape?
    rw [h.template id hid]
    rfl
  have hinput : multiplierShape.isInput l = true := by
    rcases hl with rfl | rfl <;> rfl
  have hlt : (r id).signalStart + l < c'.store.size := by
    have hinside := h.inside id hid
    rw [hf.size]
    omega
  obtain ⟨w, hw⟩ := SignalStore.isWritten?_of_lt hlt
  have hsignal := inputSignal_eq hr hshape hinput (h.created id hid)
  exact ⟨Action.writeInput_eq hsignal hw, Computation.view_wrote hlt⟩

/-- The first input of a multiplier leaves it waiting. -/
theorem write_first {other : Nat} (hother : l = 1 ∧ other = 2 ∨ l = 2 ∧ other = 1)
    (hnew : (id, l) ∉ done) (hnone : (id, other) ∉ done) : ∃ c'',
    Action.writeInput enter id l (values id l) c' = .ok () c'' ∧
    Interleaved c ids r values ((id, l) :: done) c'' := by
  have hafter : recordAfter done id (r id) = { r id with pending := 2 } := by
    rw [← h.pending id hid]
    unfold recordAfter
    rcases hother with ⟨rfl, rfl⟩ | ⟨rfl, rfl⟩ <;> simp [hnew, hnone]
  have hr : c'.registry.get? id = some { r id with pending := 2 } :=
    (hf.record id hid).trans (congrArg some hafter)
  obtain ⟨hwrite, hview⟩ := hf.writeInput_eq h hid hl enter hr
  refine ⟨_, hwrite.trans (arrive_waiting hr rfl Nat.one_ne_zero), hf.of_written h hid hl ?_ ?_⟩
  · have htrace : c'.trace.enabled = false := hf.same.2 ▸ h.untraced
    unfold Computation.arrived Computation.counted Computation.modified Computation.wrote
      Computation.recorded
    simp only [Trace.record_off htrace]
  · refine (Computation.view_arrived (c := c'.wrote _ _) hr).trans ?_
    rw [hview]
    unfold written recordAfter
    rcases hother with ⟨rfl, rfl⟩ | ⟨rfl, rfl⟩ <;> simp [hnone]

/-- The second input of a multiplier starts its body. -/
theorem write_second {levels other : Nat} (hother : l = 1 ∧ other = 2 ∨ l = 2 ∧ other = 1)
    (hnew : (id, l) ∉ done) (hdone : (id, other) ∈ done) : ∃ c'',
    Action.writeInput (enterWithin (levels + 1)) id l (values id l) c' = .ok () c'' ∧
    Interleaved c ids r values ((id, l) :: done) c'' := by
  have hafter : recordAfter done id (r id) = { r id with pending := 1 } := by
    unfold recordAfter
    rcases hother with ⟨rfl, rfl⟩ | ⟨rfl, rfl⟩ <;> simp [hnew, hdone]
  have hboth : (id, 1) ∈ (id, l) :: done ∧ (id, 2) ∈ (id, l) :: done := by
    rcases hother with ⟨rfl, rfl⟩ | ⟨rfl, rfl⟩ <;> simp [hdone]
  have hr : c'.registry.get? id = some { r id with pending := 1 } :=
    (hf.record id hid).trans (congrArg some hafter)
  have htrace : c'.trace.enabled = false := hf.same.2 ▸ h.untraced
  have hinside := h.inside id hid
  obtain ⟨hwrite, hview⟩ := hf.writeInput_eq h hid hl (enterWithin (levels + 1)) hr
  -- By now both inputs hold their values.
  have hin : ∀ l', l' = 1 ∨ l' = 2 →
      (c'.store.write ((r id).signalStart + l) (values id l)).get? ((r id).signalStart + l')
        = some (values id l') := by
    intro l' hl'
    by_cases hsame : l = l'
    · subst hsame
      exact SignalStore.get?_write_self _ (by rw [hf.size]; omega)
    · obtain rfl : l' = other := by omega
      rw [SignalStore.get?_write_ne _ (by omega), hf.input id hid l' hl', if_pos hdone]
  have htemplate : c'.circuit.templates.get? (r id).template
      = some ⟨multiplierShape, multiplierBody, none⟩ := by
    rw [hf.same.1]
    exact h.template id hid
  have hsize : (r id).signalStart
      < (c'.store.write ((r id).signalStart + l) (values id l)).size := by
    rw [SignalStore.size_write, hf.size]
    omega
  obtain ⟨c'', harrive, hrest, hlast⟩ := arrive_multiplier
    (c := c'.wrote ((r id).signalStart + l) (values id l)) (i := (r id).signalStart + l) levels hr
    (h.created id hid) rfl htemplate (hin 1 (.inl rfl)) (hin 2 (.inr rfl)) hsize
    ((Trace.enabled_record _ _).trans htrace)
  refine ⟨c'', hwrite.trans harrive, hf.of_written h hid hl ?_ ?_⟩
  · rw [hrest]
    unfold Computation.wrote Computation.recorded
    simp only [Trace.record_off htrace]
  · rw [hlast, hview]
    unfold written recordAfter
    rw [if_pos hboth, if_pos hboth]

/-- **One write takes one state to the next**, whether or not it starts a body. -/
theorem write (levels : Nat) (hnew : (id, l) ∉ done) : ∃ c'',
    Action.writeInput (enterWithin (levels + 1)) id l (values id l) c' = .ok () c'' ∧
    Interleaved c ids r values ((id, l) :: done) c'' := by
  obtain ⟨other, hother⟩ : ∃ other, l = 1 ∧ other = 2 ∨ l = 2 ∧ other = 1 :=
    hl.elim (fun h => ⟨2, .inl ⟨h, rfl⟩⟩) fun h => ⟨1, .inr ⟨h, rfl⟩⟩
  by_cases hdone : (id, other) ∈ done
  · exact hf.write_second h hid hl hother hnew hdone
  · exact hf.write_first h hid hl hother hnew hdone

end Write

/-- Inputs that are still to be written can be written in any order. -/
theorem writes (h : Multipliers c ids r) {order : List (Handle × Nat)}
    (henter : order ≠ [] → ∃ levels, enter = enterWithin (levels + 1))
    (hf : Interleaved c ids r values done c') (hmem : ∀ x ∈ order, x ∈ inputsOf ids)
    (hnodup : order.Nodup) (hnew : ∀ x ∈ order, x ∉ done) : ∃ c'',
    (order.forM fun x => Action.writeInput enter x.1 x.2 (values x.1 x.2)) c' = .ok () c'' ∧
    Interleaved c ids r values (order.reverse ++ done) c'' := by
  induction order generalizing done c' with
  | nil => exact ⟨c', rfl, hf⟩
  | cons x rest ih =>
    obtain ⟨id, l⟩ := x
    obtain ⟨levels, rfl⟩ := henter (List.cons_ne_nil _ _)
    obtain ⟨hid, hl⟩ := mem_inputsOf.mp (hmem (id, l) (List.mem_cons_self ..))
    obtain ⟨hhead, hrest⟩ := List.nodup_cons.mp hnodup
    obtain ⟨c₁, hwrite, hf₁⟩ := hf.write h hid hl levels (hnew _ (List.mem_cons_self ..))
    obtain ⟨c'', hwrites, hf''⟩ := ih (fun _ => ⟨levels, rfl⟩) hf₁
      (fun x hx => hmem x (List.mem_cons_of_mem _ hx)) hrest fun x hx hdone => by
        rcases List.mem_cons.mp hdone with rfl | hdone
        · exact hhead hx
        · exact hnew x (List.mem_cons_of_mem _ hx) hdone
    refine ⟨c'', (bind_ok hwrite).trans hwrites, ?_⟩
    rw [List.reverse_cons, List.append_assoc]
    exact hf''

/-- If all inputs are written, the writes succeed in every order, and what is known of the
    computation in which they end does not depend on the order. -/
theorem ends (h : Multipliers c ids r) (values : Handle → Nat → Scalar) (enter : Enter)
    {order : List (Handle × Nat)} (horder : order.Perm (inputsOf ids))
    (henter : order ≠ [] → ∃ levels, enter = enterWithin (levels + 1)) : ∃ c' done,
    Procedure.runWith enter (order.forM fun x => Procedure.writeInput x.1 x.2 (values x.1 x.2)) c
      = .ok () c' ∧ Interleaved c ids r values done c' ∧ ∀ x, x ∈ done ↔ x ∈ inputsOf ids := by
  have hwrites : Procedure.runWith enter
      (order.forM fun x => Procedure.writeInput x.1 x.2 (values x.1 x.2))
        = order.forM fun x => Action.writeInput enter x.1 x.2 (values x.1 x.2) := by
    rw [Procedure.runWith_forM]
    congr 1
    funext x
    exact Procedure.runWith_request (.writeInput x.1 x.2 (values x.1 x.2))
  obtain ⟨c', hrun, hf⟩ := (Interleaved.nil h values).writes h henter
    (fun x hx => horder.mem_iff.mp hx) (horder.nodup_iff.mpr (nodup_inputsOf h.distinct))
    fun x _ => List.not_mem_nil
  refine ⟨c', _, (congrFun hwrites c).trans hrun, hf, fun x => ?_⟩
  rw [List.append_nil, List.mem_reverse, horder.mem_iff]

end Interleaved

/-! ## All inputs -/

/-- **Multipliers side by side may be fed in any order.**  All writes succeed, whatever the order;
    and there is one computation in which every order ends.  In it the multipliers have finished,
    their outputs hold the products of their inputs, and no other signal and no other record has
    changed, nor anything else. -/
theorem multipliers_interleave {c : Computation} {ids : List Handle} {r : Handle → Component}
    (h : Multipliers c ids r) (values : Handle → Nat → Scalar) :
    ∃ final : Computation,
      (∀ order : List (Handle × Nat), order.Perm (inputsOf ids) →
        (∀ levels, Procedure.runWith (enterWithin (levels + 1))
          (order.forM fun x => Procedure.writeInput x.1 x.2 (values x.1 x.2)) c = .ok () final) ∧
        Procedure.run (order.forM fun x => Procedure.writeInput x.1 x.2 (values x.1 x.2)) c
          = .ok () final) ∧
      (∀ id ∈ ids,
        final.registry.get? id = some { r id with pending := 0, stage := .finished } ∧
        final.store.get? (r id).signalStart = some (values id 1 * values id 2) ∧
        final.store.get? ((r id).signalStart + 1) = some (values id 1) ∧
        final.store.get? ((r id).signalStart + 2) = some (values id 2)) ∧
      (∀ id, id ∉ ids → final.registry.get? id = c.registry.get? id) ∧
      (∀ i, (∀ id ∈ ids, i < (r id).signalStart ∨ (r id).signalStart + 3 ≤ i) →
        final.store.get? i = c.store.get? i) ∧
      final.store.size = c.store.size ∧ final.registry.capacity = c.registry.capacity ∧
      final = { c with store := final.store, registry := final.registry } := by
  obtain ⟨final, done, -, hfinal, hdone⟩ :=
    Interleaved.ends h values (enterWithin 1) (.refl _) fun _ => ⟨0, rfl⟩
  have hall : ∀ id ∈ ids, (id, 1) ∈ done ∧ (id, 2) ∈ done := fun id hid =>
    ⟨(hdone _).mpr (mem_inputsOf.mpr ⟨hid, .inl rfl⟩),
      (hdone _).mpr (mem_inputsOf.mpr ⟨hid, .inr rfl⟩)⟩
  have hsame : ∀ (enter : Enter) (order : List (Handle × Nat)), order.Perm (inputsOf ids) →
      (order ≠ [] → ∃ levels, enter = enterWithin (levels + 1)) →
      Procedure.runWith enter (order.forM fun x => Procedure.writeInput x.1 x.2 (values x.1 x.2)) c
        = .ok () final := by
    intro enter order horder henter
    obtain ⟨c', done', hrun, hf, hdone'⟩ := Interleaved.ends h values enter horder henter
    rw [hrun, hf.unique hfinal fun x => (hdone' x).trans (hdone x).symm]
  refine ⟨final, fun order horder => ⟨fun levels => ?_, ?_⟩, fun id hid => ⟨?_, ?_, ?_, ?_⟩,
    hfinal.others, hfinal.outside, hfinal.size, hfinal.capacity, hfinal.rest⟩
  · exact hsame _ order horder fun _ => ⟨levels, rfl⟩
  · -- From outside there is room for a body, because there is a handle.
    refine hsame _ order horder fun hne => ?_
    obtain ⟨⟨id, l⟩, hx⟩ := List.exists_mem_of_ne_nil order hne
    have hid := (mem_inputsOf.mp (horder.mem_iff.mp hx)).1
    have hlt : id.index < c.nesting := Registry.lt_of_get? (h.record id hid)
    obtain ⟨levels, hlevels⟩ := Nat.exists_eq_succ_of_ne_zero (Nat.ne_zero_of_lt hlt)
    exact ⟨levels, by rw [hlevels]⟩
  · rw [hfinal.record id hid]
    unfold recordAfter
    rw [if_pos (hall id hid)]
  · rw [hfinal.output id hid, if_pos (hall id hid)]
  · rw [hfinal.input id hid 1 (.inl rfl), if_pos (hall id hid).1]
  · rw [hfinal.input id hid 2 (.inr rfl), if_pos (hall id hid).2]

/-! ### Two multipliers -/

/-- A circuit with room for two multipliers. -/
def productsCircuit : Circuit :=
  ⟨{ name := "products", totalSignals := 7, totalComponents := 2
     templates := ⟨#[some ⟨multiplierShape, multiplierBody, none⟩]⟩ }, multiplierShape⟩

/-- The record of one of them, as it is created. -/
def product (id : Handle) : Component :=
  .fresh multiplierId (1 + 3 * id.index) 2 0 "product" none

/-- Both are created, and wait. -/
def products : Computation :=
  Action.after (do
    create (enterWithin 0) ⟨0⟩ multiplierId 1 "product" none
    create (enterWithin 0) ⟨1⟩ multiplierId 4 "product" none) (.start productsCircuit {})

/-- The second one runs between the two inputs of the first one. -/
theorem multipliers_interleave_two : Multipliers products [⟨0⟩, ⟨1⟩] product ∧
    ∃ final, Procedure.run ([((⟨0⟩ : Handle), 1), (⟨1⟩, 2), (⟨1⟩, 1), (⟨0⟩, 2)].forM fun x =>
        Procedure.writeInput x.1 x.2 (Scalar.ofNat (2 * x.1.index + x.2 + 1))) products
      = .ok () final ∧
      final.store.get? 1 = some (Scalar.ofNat 2 * Scalar.ofNat 3) ∧
      final.store.get? 4 = some (Scalar.ofNat 4 * Scalar.ofNat 5) := by
  have hmultipliers : Multipliers products [⟨0⟩, ⟨1⟩] product :=
    { distinct := by decide
      record := by decide
      template := List.forall_mem_cons.mpr ⟨rfl, List.forall_mem_singleton.mpr rfl⟩
      created := by decide
      pending := by decide
      inside := by decide
      apart := by decide
      untraced := rfl }
  obtain ⟨final, hrun, hdone, -⟩ := multipliers_interleave hmultipliers
    fun id l => Scalar.ofNat (2 * id.index + l + 1)
  refine ⟨hmultipliers, final, (hrun _ ?_).2, (hdone ⟨0⟩ (by decide)).2.1,
    (hdone ⟨1⟩ (by decide)).2.1⟩
  decide

end CircuitWitness.Sample
