import CircuitWitness.Proofs.Records
/-
  What the audit decides.

  The audit has nine ways to complain.  Where inputs are counted only as they are written, the
  scheduler leaves it three: a component still waits for its body, a component other than the main
  one was not released, a signal was read early.  The first two show in the stage of a record and
  count no event (`Component.breach?`); the third is about the trace alone, once its flags are known
  to be true.  So the audit can be read off the registry and the order of reads and writes
  (`Computation.breach?`), and that reading is the whole of its verdict.
-/

namespace CircuitWitness

variable {α : Type}

/-! ## Breaches without counting -/

/-- The first breach that the stages show, or else the reads without a write before them. -/
def Computation.breach? (c : Computation) : Option AuditFailure :=
  (c.registry.toList.findSome? fun x => x.2.breach? x.1).or
    (if c.trace.readsWithoutWrite = [] then none
      else some (.unwrittenReads c.trace.readsWithoutWrite))

/-- No read comes without a write before it if there is one before each read. -/
theorem Trace.readsWithoutWrite_eq_nil_iff {t : Trace} : t.readsWithoutWrite = [] ↔
    ∀ (k i : Nat) (w : Bool), t.toList[k]? = some (.signalRead i w) →
      ∃ j < k, t.toList[j]? = some (.signalWritten i) := by
  have hearlier : ∀ k i, (∃ j < k, t.toList[j]? = some (.signalWritten i)) ↔
      Event.signalWritten i ∈ t.toList.take k := by
    intro k i
    rw [List.mem_iff_getElem?]
    simp [List.getElem?_take]
  unfold readsWithoutWrite
  rw [List.filterMap_eq_nil_iff]
  constructor
  · intro h k i w hk
    have hlt : k < t.toList.length := (List.getElem?_eq_some_iff.mp hk).1
    have hnone := h k (List.mem_range.mpr hlt)
    rw [hk] at hnone
    exact (hearlier k i).mpr (by simpa [Event.read?] using hnone)
  · intro h k _
    cases hk : t.toList[k]? with
    | none => rfl
    | some e =>
      cases e with
      | signalRead i w =>
        have hwritten := (hearlier k i).mp (h k i w hk)
        simpa [Event.read?] using hwritten
      | _ => rfl

/-- The stages show no breach, and no read comes without a write before it. -/
theorem Computation.breach?_eq_none_iff {c : Computation} : c.breach? = none ↔
    (∀ id r, c.registry.get? id = some r → r.stage ≠ .created) ∧
    (∀ id r, c.registry.get? id = some r → id ≠ .mainComponent → r.stage = .released) ∧
    ∀ (k i : Nat) (w : Bool), c.trace.toList[k]? = some (.signalRead i w) →
      ∃ j < k, c.trace.toList[j]? = some (.signalWritten i) := by
  have hstages : c.registry.toList.findSome? (fun x => x.2.breach? x.1) = none ↔
      ∀ id r, c.registry.get? id = some r → r.breach? id = none := by
    rw [List.findSome?_eq_none_iff]
    exact ⟨fun h id r hr => h (id, r) (Registry.mem_toList.mpr hr),
      fun h x hx => h x.1 x.2 (Registry.mem_toList.mp hx)⟩
  have hreads : (if c.trace.readsWithoutWrite = [] then none
      else some (AuditFailure.unwrittenReads c.trace.readsWithoutWrite)) = none ↔
      c.trace.readsWithoutWrite = [] := by
    split <;> simp [*]
  unfold breach?
  rw [Option.or_eq_none_iff, hstages, hreads, Trace.readsWithoutWrite_eq_nil_iff, ← and_assoc]
  refine and_congr_left' ?_
  simp only [Component.breach?_eq_none_iff]
  exact ⟨fun h => ⟨fun id r hr => (h id r hr).1, fun id r hr => (h id r hr).2⟩,
    fun h id r hr => ⟨h.1 id r hr, h.2 id r hr⟩⟩

/-! ## The audit finds these breaches -/

/-- The whole audit finds the first breach. -/
theorem Computation.Chronicled.audit_eq {m : Moment} (h : m.state.Chronicled) (hm : m.Settled)
    (hreads : Truthful m.state.trace.toList) :
    m.state.audit = m.state.breach?.elim (.ok ()) .error := by
  have hall : m.state.auditComponents m.state.registry.toList
      = (m.state.registry.toList.findSome? fun x => x.2.breach? x.1).elim (.ok ()) .error := by
    refine auditComponents_eq _ fun ⟨id, r⟩ hmem => ?_
    have hr := Registry.mem_toList.mp hmem
    exact auditComponent_eq (hm.records id r hr) (h.stories id r hr)
  unfold audit breach?
  rw [h.enabled, hall, Trace.earlyReads_eq hreads]
  cases m.state.registry.toList.findSome? fun x => x.2.breach? x.1 with
  | some e => rfl
  | none => cases m.state.trace.readsWithoutWrite <;> rfl

/-! ## The theorem -/

/-- **What the audit decides.**  A program acts on a circuit from the start with the trace switched
    on, by any requests but to count an input without writing one, and so do the bodies.  Then at
    every moment of the run

    * the audit passes exactly if every component has left the first stage, every component but the
      main one is released, and in the trace a write to its signal comes before each read;
    * the template of every component has an entry; a component that has left the first stage
      passes all that is asked of it before the release, and one that has not was never started;
    * the audit answers with the first breach that the stages and the reads show. -/
theorem Program.Visits.audit_decides {levels : Nat} {p : Program α} {circuit : Circuit}
    {config : Config} {m : Moment} {next : Option Request} (hfit : circuit.CountersFit)
    (hon : config.recordTrace = true) (hc : circuit.Only Request.NoCount)
    (hp : p.Only Request.NoCount) (hv : p.Visits levels (.start circuit config) next m) :
    (m.state.audit = .ok () ↔
      (∀ id r, m.state.registry.get? id = some r → r.stage ≠ .created) ∧
      (∀ id r, m.state.registry.get? id = some r → id ≠ .mainComponent → r.stage = .released) ∧
      ∀ (k i : Nat) (w : Bool), m.state.trace.toList[k]? = some (.signalRead i w) →
        ∃ j < k, m.state.trace.toList[j]? = some (.signalWritten i)) ∧
    (∀ id r, m.state.registry.get? id = some r →
      ∃ shape, circuit.templates.shape? r.template = some shape ∧
        (r.stage ≠ .created → m.state.Timely id r shape) ∧
        (r.stage = .created → m.state.trace.triggers id = 0)) ∧
    m.state.audit = m.state.breach?.elim (.ok ()) .error := by
  have hpath := hv.path_noCount hc hp
  have hset : m.Settled := hpath.settled (Moment.settled_start circuit config) hfit
  have hch : m.state.Chronicled := hpath.chronicled (Moment.settled_start circuit config) hfit
    (Moment.chronicled_start circuit hon)
  have hfaith : m.state.Faithful := hpath.faithful (Moment.faithful_start circuit hon)
  have haudit := hch.audit_eq hset hfaith.reads
  have hcirc : m.state.circuit = circuit := hpath.circuit_eq.1
  refine ⟨?_, fun id r hr => ?_, haudit⟩
  · rw [haudit, ← Computation.breach?_eq_none_iff]
    cases m.state.breach? <;> simp
  · obtain ⟨shape, hshape, -⟩ := (hset.records id r hr).known
    have hstory := hch.stories id r hr
    refine ⟨shape, hcirc ▸ hshape, fun hs => ?_, fun hs => ?_⟩
    · exact Computation.timely_of_begun (hset.records id r hr) hstory hs hshape
    · rw [Computation.triggers_past hstory hshape, Component.count_triggered_past_created hs]

/-- The same for the small circuit: in the main component's body the audit passes; once the child
    has run it does not, since nobody has released the child. -/
theorem Program.Visits.audit_decides_relay :
    relayInside.audit = .ok () ∧
    relayPaired.audit = .error (.notReleased "main.pulse" .finished) := by
  have hc := relay_only.mono fun _ => Request.Ordinary.noCount
  have hp := relayProgram_only.mono fun _ => Request.Ordinary.noCount
  have hrun : (Request.createChild ⟨0⟩ 0 ⟨1⟩ ⟨1⟩ 4 "main.pulse").perform (enterWithin 1) relayInside
      = .ok () relayPaired := Action.eq_ok_after (by decide +kernel)
  have hv : relayProgram.Visits 2 (.start relay .diagnostic) none ⟨[⟨0⟩], relayPaired⟩ :=
    .answered (c := relayCreated) rfl (.answered (c := relayWaiting) rfl
      (.inside relay_enters (.answered hrun .done)))
  obtain ⟨-, -, hinside⟩ := audit_decides relay_fits rfl hc hp relay_visits
  obtain ⟨-, -, hpaired⟩ := audit_decides relay_fits rfl hc hp hv
  have hnone : relayInside.breach? = none := rfl
  have hsome : relayPaired.breach? = some (.notReleased "main.pulse" .finished) := by decide +kernel
  exact ⟨hinside.trans (by rw [hnone]; rfl), hpaired.trans (by rw [hsome]; rfl)⟩

end CircuitWitness
