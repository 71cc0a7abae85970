import CircuitWitness.Proofs.Abreast
import CircuitWitness.Proofs.Acceptance
/-
  Alternate bodies.

  The switch for alternate bodies and the table of templates are read in one place only, where a
  component is about to start, and what is found there is one body.  So two computations whose
  circuits and switches come to the same body for every template go abreast, however the bodies
  stand in their tables (`resolution`).

  A table in which every alternate has taken the place of the first body comes to the bodies of the
  old table as they are with alternates preferred (`TemplateTable.body?_promoted`).  Where there is
  no alternate, the two tables are the same, and the switch does nothing.
-/

namespace CircuitWitness

open CircuitWitness.Action

/-! ## Putting alternates in place -/

/-- The alternate body, if there is one, in the place of the other. -/
def Template.promoted (e : Template) : Template :=
  match e.alternate with
  | some body => { e with body := body, alternate := none }
  | none => e

theorem Template.chosen_promoted (e : Template) (prefer : Bool) :
    e.promoted.chosen prefer = e.chosen true := by
  obtain ⟨shape, body, alternate⟩ := e
  cases alternate <;> cases prefer <;> rfl

theorem Template.shape_promoted (e : Template) : e.promoted.shape = e.shape := by
  obtain ⟨shape, body, alternate⟩ := e
  cases alternate <;> rfl

namespace TemplateTable

variable {t : TemplateTable}

/-- The table in which all alternates are in place. -/
def promoted (t : TemplateTable) : TemplateTable := ⟨t.entries.map (Option.map Template.promoted)⟩

@[simp] theorem get?_promoted (t : TemplateTable) (id : TemplateId) :
    t.promoted.get? id = (t.get? id).map Template.promoted := by
  unfold promoted get?
  rw [Array.getElem?_map]
  rcases t.entries[id.index]? with _ | _ | e <;> rfl

@[simp] theorem shape?_promoted (t : TemplateTable) (id : TemplateId) :
    t.promoted.shape? id = t.shape? id := by
  unfold shape?
  rw [get?_promoted, Option.map_map]
  exact congrArg (fun f => (t.get? id).map f) (funext Template.shape_promoted)

/-- **In the new table a component runs what it ran in the old one with alternates preferred.** -/
theorem body?_promoted (t : TemplateTable) (id : TemplateId) (prefer : Bool) :
    t.promoted.body? id prefer = t.body? id true := by
  unfold body?
  rw [get?_promoted, Option.map_map]
  exact congrArg (fun f => (t.get? id).map f) (funext fun e => e.chosen_promoted prefer)

theorem bare_promoted (t : TemplateTable) : t.promoted.bare = t.bare := by
  unfold bare promoted
  rw [Array.map_map, Option.map_comp_map]
  congr 3
  funext e
  obtain ⟨shape, body, alternate⟩ := e
  cases alternate <;> rfl

/-- No template is missing in the new table that was not missing in the old one. -/
theorem validate_promoted (h : t.validate = .ok ()) : t.promoted.validate = .ok () := by
  rw [validate_iff] at h ⊢
  intro i hi
  have hsize : t.promoted.size = t.size := Array.size_map
  rw [get?_promoted, Option.isSome_map]
  exact h i (hsize ▸ hi)

/-- Where there are no alternates, there is nothing to put in place. -/
theorem promoted_eq (h : t.alternateCount = 0) : t.promoted = t := by
  have hnone : ∀ slot ∈ t.entries, slot.map Template.promoted = slot := by
    intro slot hslot
    have hslot := List.countP_eq_zero.mp h slot (Array.mem_toList_iff.mpr hslot)
    rcases slot with _ | ⟨shape, body, alternate⟩
    · rfl
    · cases alternate with
      | none => rfl
      | some body => exact absurd rfl hslot
  unfold promoted
  congr 1
  exact (Array.map_congr_left hnone).trans (Array.map_id' _)

end TemplateTable

/-- The circuit in which all alternates are in place. -/
def Circuit.promoted (circuit : Circuit) : Circuit :=
  { circuit with templates := circuit.templates.promoted }

/-- The new circuit is accepted as the old one was. -/
theorem CircuitDescription.accept_promoted {d : CircuitDescription} {circuit : Circuit}
    (h : d.accept = .ok circuit) :
    CircuitDescription.accept { d with templates := d.templates.promoted }
      = .ok circuit.promoted := by
  obtain ⟨rfl, hmain, hcheck⟩ := of_accept h
  have htable : circuit.templates.validate = .ok () := by
    unfold accept at h
    cases hv : circuit.templates.validate with
    | ok u => rfl
    | error e =>
      rw [hv] at h
      cases h
  have hmain' := (circuit.templates.shape?_promoted circuit.mainTemplate).trans hmain
  -- The checks that follow do not look at the templates.
  exact accept_ok (TemplateTable.validate_promoted htable) hmain' hcheck

/-! ## Two computations that come to the same bodies -/

variable {circuit circuit' : Circuit} {config config' : Config} {c c' : Computation}
  {levels : Nat} {α : Type}

/-- The circuits differ in the bodies of their templates only, the switches in the preference for
    alternates, and each template runs the same body. -/
structure SameBodies (circuit circuit' : Circuit) (config config' : Config) : Prop where
  circuit_eq : circuit' = { circuit with templates := circuit'.templates }
  config_eq : config' = { config with useAlternate := config'.useAlternate }
  bare_eq : circuit'.templates.bare = circuit.templates.bare
  body?_eq : ∀ id, circuit'.templates.body? id config'.useAlternate
    = circuit.templates.body? id config.useAlternate

/-- A state of a computation, and the same state on another circuit with other switches. -/
structure Computation.Moved (circuit circuit' : Circuit) (config config' : Config)
    (c c' : Computation) : Prop where
  circuit_eq : c.circuit = circuit
  config_eq : c.config = config
  same : c' = { c with circuit := circuit', config := config' }

namespace SameBodies

/-- Where all alternates are in place it does not matter whether they are preferred. -/
theorem promoted (circuit : Circuit) (config : Config) (prefer : Bool) :
    SameBodies circuit circuit.promoted { config with useAlternate := true }
      { config with useAlternate := prefer } where
  circuit_eq := rfl
  config_eq := rfl
  bare_eq := circuit.templates.bare_promoted
  body?_eq id := circuit.templates.body?_promoted id prefer

/-- Without alternates it does not matter whether they are preferred. -/
theorem of_alternateCount (h : circuit.templates.alternateCount = 0) (config : Config)
    (prefer : Bool) :
    SameBodies circuit circuit config { config with useAlternate := prefer } where
  circuit_eq := rfl
  config_eq := rfl
  bare_eq := rfl
  body?_eq id := by
    have hany : ∀ prefer, circuit.templates.body? id prefer = circuit.templates.body? id true := by
      intro prefer
      rw [← circuit.templates.body?_promoted id prefer, TemplateTable.promoted_eq h]
    rw [hany, hany config.useAlternate]

end SameBodies

namespace Computation.Moved

/-- A change that depends on neither the circuit nor the switches. -/
theorem change (h : Moved circuit circuit' config config' c c') (g : Computation → Computation)
    (hcircuit : (g c).circuit = c.circuit) (hconfig : (g c).config = c.config)
    (hg : g { c with circuit := circuit', config := config' }
      = { g c with circuit := circuit', config := config' }) :
    Moved circuit circuit' config config' (g c) (g c') :=
  ⟨hcircuit.trans h.circuit_eq, hconfig.trans h.config_eq, by rw [h.same, hg]⟩

end Computation.Moved

/-- To be the same but for circuit and switches is preserved by all that the engine does, if these
    come to the same bodies. -/
def resolution (h : SameBodies circuit circuit' config config') : Likeness where
  Alike := Computation.Moved circuit circuit' config config'
  bare := by
    rintro c c' ⟨rfl, rfl, rfl⟩
    unfold Computation.bare
    rw [h.bare_eq, h.circuit_eq]
  startable := by
    rintro c c' ⟨rfl, rfl, rfl⟩ id
    unfold Computation.startable
    simp only [h.body?_eq]
    rfl
  recorded hc e _ := hc.change (·.recorded e) rfl rfl rfl
  stored hc i v := hc.change (fun c => { c with store := c.store.write i v }) rfl rfl rfl
  counted hc id n := hc.change (·.counted id n) rfl rfl rfl
  enrolled hc _ _ _ _ _ _ _ reg reg' hr hr' := by
    rw [hc.same] at hr'
    cases hr.symm.trans hr'
    exact hc.change (fun c => { c with registry := reg }) rfl rfl rfl
  dropped hc id _ := by
    have hreclaim : config'.reclaim = config.reclaim := by rw [h.config_eq]
    refine hc.change (·.dropped id) rfl rfl ?_
    unfold Computation.dropped
    rw [hc.config_eq, hreclaim]
    rfl
  awaiting hc n := hc.change (fun c => { c with pendingInputs := n }) rfl rfl rfl
  noted hc n := hc.change (·.noted n) rfl rfl rfl
  begun hc id _ := hc.change (·.begun id) rfl rfl rfl
  ended hc id _ caller := hc.change (·.ended id caller) rfl rfl rfl
  left hc caller := hc.change (·.left caller) rfl rfl rfl

theorem resolution_reads (h : SameBodies circuit circuit' config config') :
    (resolution h).Reads := by
  have hstrict : config'.checkReads = config.checkReads := by rw [h.config_eq]
  have hsame : ∀ {c c' : Computation}, c.Moved circuit circuit' config config' c' →
      c.config.checkReads = c'.config.checkReads := by
    rintro c c' ⟨-, hconfig, rfl⟩
    rw [hconfig]
    exact hstrict.symm
  have hread : ∀ {c c' : Computation}, c.Moved circuit circuit' config config' c' → ∀ i w,
      (c.recorded (.signalRead i w)).Moved circuit circuit' config config'
        (c'.recorded (.signalRead i w)) :=
    fun hc i w => hc.change (·.recorded (.signalRead i w)) rfl rfl rfl
  exact @Likeness.reads_of (resolution h) hsame hread

/-- All requests go on alike. -/
theorem resolution_preserves (h : SameBodies circuit circuit' config config') :
    (resolution h).Preserves fun _ _ _ => True := by
  intro levels q c c' hc _ hbody
  have hmoved : c.Moved circuit circuit' config config' c' := hc
  refine Likeness.request (resolution_reads h) hc ⟨fun _ => ?_, fun id _ => ?_, ?_⟩ hbody
  · rw [hmoved.same]
  · rw [hmoved.same]
  · rintro parent slot child t start label -
    exact hmoved.change (·.kept parent slot child) rfl rfl rfl

/-- The computations begin alike. -/
theorem SameBodies.start (h : SameBodies circuit circuit' config config') :
    (Computation.start circuit config).Moved circuit circuit' config config'
      (.start circuit' config') := by
  obtain ⟨hcircuit, hconfig, -, -⟩ := h
  generalize circuit'.templates = templates at hcircuit
  generalize config'.useAlternate = prefer at hconfig
  subst hcircuit hconfig
  exact ⟨rfl, rfl, rfl⟩

/-- Two runs of a program go abreast, in states that are equal but for the circuit and the switches,
    and they end alike. -/
def Program.RunsAlike (p : Program α) (levels : Nat) (circuit circuit' : Circuit)
    (config config' : Config) : Prop :=
  p.Abreast (Computation.Moved circuit circuit' config config') levels (.start circuit config)
    (.start circuit' config') ∧
  Agree (Computation.Moved circuit circuit' config config')
    (p.runWith (enterWithin levels) (.start circuit config))
    (p.runWith (enterWithin levels) (.start circuit' config'))

/-- **Computations that come to the same bodies run alike**, whatever is asked of them. -/
theorem SameBodies.runsAlike (h : SameBodies circuit circuit' config config') (p : Program α) :
    p.RunsAlike levels circuit circuit' config config' := by
  have hstart : (resolution h).Alike (.start circuit config) (.start circuit' config') := h.start
  have halong : p.Along (fun _ _ _ => True) levels (.start circuit config) :=
    Program.along_of_visits (P := fun _ _ => True) levels p (.start circuit config)
      fun _ _ _ => trivial
  exact (Likeness.abreast (resolution_preserves h) hstart halong).symm

/-! ## The theorem -/

/-- **Alternate bodies are a transformation of the table.**

    * A circuit runs with its alternates preferred, and the circuit in which they are in place runs
      with any preference.  Whatever is asked, by the program and by the bodies, the runs go
      abreast: every request is answered or fails alike, the same bodies are entered, and at every
      step the states are equal but for circuit and switches, so signals, written flags, components,
      trace, count of inputs and running component are the same.  The runs end alike as well.
    * In a circuit without alternates the preference does nothing at all.
    * The circuit with the alternates in place is accepted if the first one is. -/
theorem Program.alternates_promoted (p : Program α) (levels : Nat) (circuit : Circuit)
    (config : Config) :
    (∀ prefer, p.RunsAlike levels circuit circuit.promoted { config with useAlternate := true }
      { config with useAlternate := prefer }) ∧
    (circuit.templates.alternateCount = 0 → ∀ prefer,
      p.RunsAlike levels circuit circuit config { config with useAlternate := prefer }) ∧
    ∀ d : CircuitDescription, d.accept = .ok circuit →
      CircuitDescription.accept { d with templates := d.templates.promoted }
        = .ok circuit.promoted := by
  refine ⟨fun prefer => ?_, fun hnone prefer => ?_, fun d hd => ?_⟩
  · exact (SameBodies.promoted circuit config prefer).runsAlike p
  · exact (SameBodies.of_alternateCount hnone config prefer).runsAlike p
  · exact CircuitDescription.accept_promoted hd

/-- The small circuit, in which the child has an alternate body: it writes nine and not one. -/
def forkedDescription : CircuitDescription :=
  { relayDescription with
    templates := ⟨#[some ⟨⟨"Relay", 1, 2, 3, 1⟩, relayBody, none⟩,
      some ⟨⟨"Pulse", 1, 0, 1, 0⟩, pulseBody, some fun _ => Procedure.setSignal 4 9⟩]⟩ }

def forked : Circuit := ⟨forkedDescription, ⟨"Relay", 1, 2, 3, 1⟩⟩

/-- The child has run, in a computation that prefers alternates. -/
def forkedEnd : Computation :=
  (relayProgram.runWith (enterWithin 2)).after (.start forked { useAlternate := true })

/-- The alternate body of the child runs, in the first circuit because it is preferred, and in the
    other one because it is in place; without preference the first circuit runs the other body.  In
    the circuit without alternates the preference changes nothing. -/
theorem Program.alternates_promoted_forked :
    forkedDescription.accept = .ok forked ∧
    CircuitDescription.accept
      { forkedDescription with templates := forkedDescription.templates.promoted }
        = .ok forked.promoted ∧
    ((relayProgram.runWith (enterWithin 2)).after (.start forked {})).store.read? 4 = some 1 ∧
    forkedEnd.store.read? 4 = some 9 ∧
    (∃ d, relayProgram.runWith (enterWithin 2) (.start forked.promoted {}) = .ok () d ∧
      d.store = forkedEnd.store ∧ d.registry = forkedEnd.registry) ∧
    relay.templates.alternateCount = 0 ∧
    ((relayProgram.runWith (enterWithin 2)).after
        (.start relay { useAlternate := true })).store
      = ((relayProgram.runWith (enterWithin 2)).after (.start relay {})).store := by
  have haccept : forkedDescription.accept = .ok forked := rfl
  have hnone : relay.templates.alternateCount = 0 := rfl
  have hend : relayProgram.runWith (enterWithin 2) (.start forked { useAlternate := true })
      = .ok () forkedEnd := Action.eq_ok_after (by decide +kernel)
  obtain ⟨habreast, -, hpromoted⟩ := alternates_promoted relayProgram 2 forked {}
  obtain ⟨-, hsame, -⟩ := alternates_promoted relayProgram 2 relay {}
  obtain ⟨d, hd, hmoved⟩ := (habreast false).2.of_ok hend
  refine ⟨haccept, hpromoted forkedDescription haccept, by decide +kernel, by decide +kernel,
    ⟨d, hd, ?_, ?_⟩, hnone, ?_⟩
  · rw [hmoved.same]
  · rw [hmoved.same]
  · rw [(hsame hnone true).2.after.same]

end CircuitWitness
