import CircuitWitness.Proofs.Abreast
/-
  Diagnostics do not influence the computation.

  Two switches of the engine are there for whoever inspects a computation: one records a trace, the
  other reports to the log.  Runs that differ in these alone go abreast, and what they share at
  every step is everything but the trace (`Computation.silent`).  A trace that is switched off stays
  empty.

  A program can ask for the trace, and then it can tell the two runs apart; so neither the program
  nor a body may make that request.
-/

namespace CircuitWitness

open CircuitWitness.Action

variable {c c' : Computation} {levels : Nat} {α : Type}

/-! ## What is common to both runs -/

/-- The same switches, without diagnostics. -/
def Config.silent (config : Config) : Config :=
  { config with logComponents := false, recordTrace := false }

/-- The same state, without diagnostics. -/
def Computation.silent (c : Computation) : Computation :=
  { c with config := c.config.silent, trace := .empty false }

/-- A trace that is to stay off is empty. -/
def Computation.Mute (c : Computation) : Prop :=
  c.config.recordTrace = false → c.trace = .empty false

/-- The states differ in nothing but diagnostics. -/
structure Computation.Undisturbed (c c' : Computation) : Prop where
  same : c.silent = c'.silent
  left : c.Mute
  right : c'.Mute

namespace Computation

/-- A trace that is off stays empty. -/
theorem Mute.record (h : c.Mute) (e : Event) : (c.recorded e).Mute := fun hoff => by
  show c.trace.record e = _
  rw [h hoff]
  rfl

theorem mute_start (circuit : Circuit) (config : Config) : (start circuit config).Mute := by
  intro hoff
  have hoff : config.recordTrace = false := hoff
  unfold start
  simp only [hoff]
  split <;> rfl

/-- What can be found out about the silent state is the same in both. -/
theorem Undisturbed.look_eq (h : c.Undisturbed c') {f : Computation → α}
    (hf : ∀ c : Computation, f c.silent = f c) : f c = f c' := by
  rw [← hf c, ← hf c', h.same]

/-- A change that does to the silent state what it does to the state, and keeps a trace that is off
    empty. -/
theorem Undisturbed.change (h : c.Undisturbed c') (g : Computation → Computation)
    (hg : ∀ c : Computation, (g c).silent = (g c.silent).silent)
    (hmute : ∀ c : Computation, c.Mute → (g c).Mute) : (g c).Undisturbed (g c') :=
  ⟨by rw [hg, hg c', h.same], hmute c h.left, hmute c' h.right⟩

/-- Two states that differ in diagnostics have the same records. -/
theorem Undisturbed.registry_eq (h : c.Undisturbed c') : c.registry = c'.registry :=
  h.look_eq (f := fun c => c.registry) fun _ => rfl

end Computation

open CircuitWitness.Computation in
/-- To be alike but for diagnostics is preserved by all that the engine does. -/
def diagnostics : Likeness where
  Alike := Undisturbed
  bare h := h.look_eq fun _ => rfl
  startable h id := h.look_eq (f := fun c => c.startable id) fun _ => rfl
  recorded h e _ := h.change (·.recorded e) (fun _ => rfl) fun _ hm => hm.record e
  stored h i v := h.change (fun c => { c with store := c.store.write i v }) (fun _ => rfl)
    fun _ hm => hm
  counted h id n := h.change (·.counted id n) (fun _ => rfl) fun _ hm => hm
  enrolled h _ _ _ _ _ _ _ reg reg' hr hr' := by
    rw [h.registry_eq] at hr
    cases hr.symm.trans hr'
    exact h.change (fun c => { c with registry := reg }) (fun _ => rfl) fun _ hm => hm
  dropped h id _ := h.change (·.dropped id) (fun _ => rfl) fun _ hm => hm.record _
  awaiting h n := h.change (fun c => { c with pendingInputs := n }) (fun _ => rfl) fun _ hm => hm
  noted h n := h.change (·.noted n) (fun _ => rfl) fun _ hm => hm
  begun h id _ := h.change (·.begun id) (fun _ => rfl) fun _ hm => hm.record _
  ended h id _ caller := h.change (·.ended id caller) (fun _ => rfl) fun _ hm => hm.record _
  left h caller := h.change (·.left caller) (fun _ => rfl) fun _ hm => hm

/-- Reads go on alike: whether they are checked is the same on both sides, and the event of a read
    is only traced. -/
theorem diagnostics_reads : diagnostics.Reads :=
  Likeness.reads_of (L := diagnostics)
    (fun h => Computation.Undisturbed.look_eq h (f := fun c => c.config.checkReads) fun _ => rfl)
    fun h i w => Computation.Undisturbed.change h (·.recorded (.signalRead i w)) (fun _ => rfl)
      fun _ hm => hm.record _

/-- Requests go on alike, all but the one for the trace. -/
theorem diagnostics_preserves : diagnostics.Preserves fun _ q _ => q ≠ .trace := by
  intro levels q c c' hc hq hbody
  have h : c.Undisturbed c' := hc
  refine Likeness.request diagnostics_reads hc ⟨fun he => absurd he hq, fun id _ => ?_, ?_⟩ hbody
  · rw [h.registry_eq]
  · rintro parent slot child t start label -
    exact h.change (·.kept parent slot child) (fun _ => rfl) fun _ hm => hm

/-! ## The theorem -/

/-- **Diagnostics do not influence the computation.**  Two runs of a program act on one circuit, and
    the switches differ at most in the diagnostics.  No body asks for the trace, and neither does
    the program.  Then the runs go abreast: every request, also those of the bodies, is answered or
    fails alike in both, the same bodies are entered, and at every step the states are equal but for
    the trace, which is empty where it is switched off.  So the runs end alike as well. -/
theorem Program.diagnostics_silent {p : Program α} {circuit : Circuit} {config config' : Config}
    (hconfig : config.silent = config'.silent) (hbodies : circuit.Only (· ≠ .trace))
    (hp : p.Only (· ≠ .trace)) :
    p.Abreast Computation.Undisturbed levels (.start circuit config) (.start circuit config') ∧
    Agree Computation.Undisturbed (p.runWith (enterWithin levels) (.start circuit config))
      (p.runWith (enterWithin levels) (.start circuit config')) := by
  have hstart : (Computation.start circuit config).Undisturbed (.start circuit config') := by
    refine ⟨?_, Computation.mute_start circuit config,
      Computation.mute_start circuit config'⟩
    show { Computation.start circuit config with config := config.silent, trace := .empty false }
      = { Computation.start circuit config' with config := config'.silent, trace := .empty false }
    rw [hconfig]
    rfl
  have halong : p.Along (fun _ q _ => q ≠ .trace) levels (.start circuit config) :=
    Program.along_of_visits (P := fun q _ => q ≠ .trace) levels p (.start circuit config)
      fun q m' hv => hv.only (Moment.upright_start circuit config) hbodies hp q rfl
  exact (Likeness.abreast diagnostics_preserves hstart halong).symm

/-- The small circuit never looks at the trace. -/
theorem relay_untraced : relay.Only (· ≠ .trace) := by
  refine relay_bodies.mono fun q hq => ?_
  rcases hq with ⟨_, _, _, _, _, _, rfl⟩ | ⟨_, _, rfl⟩ <;> simp

/-- The same inside the body of the small circuit's main component: without diagnostics the run
    comes by this moment too, with the same components and signals, and of the seven events nothing
    is left. -/
theorem Program.diagnostics_silent_relay :
    relayInside.trace.toList.length = 7 ∧
    ∃ d, relayProgram.Visits 2 (.start relay { checkReads := true })
        (some (.createChild ⟨0⟩ 0 ⟨1⟩ ⟨1⟩ 4 "main.pulse")) ⟨[⟨0⟩], d⟩ ∧
      d.registry = relayInside.registry ∧ d.store = relayInside.store ∧ d.trace = .empty false := by
  have hp : relayProgram.Only (· ≠ .trace) :=
    ⟨by simp, fun _ => ⟨by simp, fun _ => ⟨by simp, fun _ => trivial⟩⟩⟩
  have hsilent : Config.diagnostic.silent = Config.silent { checkReads := true } := rfl
  have habreast : relayProgram.Abreast Computation.Undisturbed 2 (.start relay .diagnostic)
      (.start relay { checkReads := true }) := (diagnostics_silent hsilent relay_untraced hp).1
  obtain ⟨d, h, hv⟩ := habreast.visits relay_visits
  have hpath : Path .any (.start relay { checkReads := true }) ⟨[⟨0⟩], d⟩ :=
    (path_of_visits 2 relayProgram _ (Moment.upright_start relay _) fun _ _ _ => trivial).2 _ _ hv
  have hconfig : d.config = { checkReads := true } := hpath.circuit_eq.2
  refine ⟨by decide, d, hv, h.registry_eq.symm, ?_, h.right (by rw [hconfig])⟩
  exact (h.look_eq (f := fun c => c.store) fun _ => rfl).symm

end CircuitWitness
