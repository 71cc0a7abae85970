import CircuitWitness.Proofs.Abreast
/-
  Reclamation cannot be observed.

  When a component is released, the engine may drop the handles of its children or keep them.  Take
  a run that keeps them and one that drops them.  They go abreast as long as no request uses the
  slots of a released component, and then one state is the other with these slots emptied
  (`Computation.reclaimed`).

  The run that keeps them does so for good: releasing leaves the slots of a component as they are,
  and so does every request that comes after (`Request.Keeps`).

  Where bodies use no slots but those of their own component, and nothing outside of them uses any,
  the condition holds by itself: a body that makes a request is running, so its component is not
  released (`Program.Visits.spares`).
-/

namespace CircuitWitness

open CircuitWitness.Action

variable {c c' : Computation} {levels : Nat} {α : Type} {id : Handle}

/-! ## Dropping the slots of released components -/

/-- The record of a component, without its slots if it was released. -/
def Component.reclaimed (r : Component) : Component :=
  if r.stage = .released then { r with slots := #[] } else r

/-- The same state, had all released components dropped their handles. -/
def Computation.reclaimed (c : Computation) : Computation :=
  { c with
    config := { c.config with reclaim := true }
    registry := c.registry.map Component.reclaimed }

theorem Component.reclaimed_of_ne {r : Component} (h : r.stage ≠ .released) : r.reclaimed = r :=
  if_neg h

/-- But for the slots, nothing is dropped. -/
theorem Component.reclaimed_eq (r : Component) :
    r.reclaimed = { r with slots := r.reclaimed.slots } := by
  unfold reclaimed
  split <;> rfl

namespace Registry

/-- A change that commutes with another one on the record that it changes. -/
theorem map_modify {reg : Registry} {f f' g : Component → Component}
    (h : ∀ r, reg.get? id = some r → g (f r) = f' (g r)) :
    (reg.modify id f).map g = (reg.map g).modify id f' := by
  refine ext_get? (by simp) fun other => ?_
  rw [get?_map, get?_modify, get?_modify, get?_map, get?_map]
  by_cases he : id = other
  · subst he
    rw [if_pos rfl, if_pos rfl]
    cases hr : reg.get? id with
    | none => rfl
    | some r => exact congrArg some (h r hr)
  · rw [if_neg he, if_neg he]

/-- A new record, entered before or after the others are changed. -/
theorem map_create {reg reg₁ reg₂ : Registry} {r : Component} {g : Component → Component}
    (hg : g r = r) (h : reg.create id r = .ok reg₁) (h' : (reg.map g).create id r = .ok reg₂) :
    reg₂ = reg₁.map g := by
  obtain ⟨-, -, hcap, hget⟩ := create_ok h
  obtain ⟨-, -, hcap', hget'⟩ := create_ok h'
  refine ext_get? (by simp [hcap, hcap']) fun other => ?_
  rw [hget', get?_map, get?_map, hget]
  by_cases he : id = other
  · rw [if_pos he, if_pos he]
    exact congrArg some hg.symm
  · rw [if_neg he, if_neg he]

end Registry

namespace Computation

theorem get?_reclaimed (id : Handle) :
    c.reclaimed.registry.get? id = (c.registry.get? id).map Component.reclaimed :=
  Registry.get?_map id

/-- A component that was not released has the same record. -/
theorem get?_reclaimed_of_ne (h : c.registry.stage? id ≠ some .released) :
    c.reclaimed.registry.get? id = c.registry.get? id := by
  rw [get?_reclaimed]
  cases hr : c.registry.get? id with
  | none => rfl
  | some r =>
    refine congrArg some (Component.reclaimed_of_ne fun hs => h ?_)
    exact Registry.stage?_eq_some.mpr ⟨r, hr, hs⟩

/-- A change of one record that can be made before or after the slots are dropped. -/
theorem reclaimed_modified {f f' : Component → Component}
    (h : ∀ r, c.registry.get? id = some r → (f r).reclaimed = f' r.reclaimed) :
    (c.modified id f).reclaimed = c.reclaimed.modified id f' := by
  unfold modified reclaimed
  simp only [Registry.map_modify h]

/-- A component enters another stage, before it is released. -/
theorem reclaimed_advance {stage : Stage} (hs : c.registry.stage? id = some stage)
    (hold : stage ≠ .released) (next : Stage) (hnext : next ≠ .released) :
    (c.modified id fun r => { r with stage := next }).reclaimed
      = c.reclaimed.modified id fun r => { r with stage := next } := by
  refine reclaimed_modified fun r hr => ?_
  obtain ⟨r', hr', hs'⟩ := Registry.stage?_eq_some.mp hs
  cases hr.symm.trans hr'
  rw [Component.reclaimed_of_ne hnext, Component.reclaimed_of_ne (hs' ▸ hold)]

theorem bare_reclaimed (c : Computation) : c.reclaimed.bare = c.bare := by
  have hrecords : (c.registry.map Component.reclaimed).map Component.bare
      = c.registry.map Component.bare := by
    rw [Registry.map_map]
    congr 1
    funext r
    show r.reclaimed.bare = r.bare
    rw [r.reclaimed_eq]
    rfl
  unfold bare reclaimed
  simp only [hrecords]

theorem startable_reclaimed (c : Computation) (id : Handle) :
    c.reclaimed.startable id = c.startable id := by
  have hdefect : ∀ d, c.reclaimed.defect id d = c.defect id d := fun d => by
    rw [← c.reclaimed.defect_bare, bare_reclaimed, c.defect_bare]
  unfold startable
  cases hr : c.registry.get? id with
  | none =>
    have hr' : c.reclaimed.registry.get? id = none := by rw [get?_reclaimed, hr]; rfl
    rw [component_none hr, component_none hr', hdefect]
  | some r =>
    have hr' : c.reclaimed.registry.get? id = some { r with slots := r.reclaimed.slots } := by
      rw [get?_reclaimed, hr, ← r.reclaimed_eq]
      rfl
    rw [component_eq hr, component_eq hr']
    simp only [hdefect]
    rfl

end Computation

open CircuitWitness.Computation in
/-- To be alike but for the slots of released components is preserved by all that the engine
    does. -/
def reclamation : Likeness where
  Alike c c' := c' = c.reclaimed
  bare h := by rw [h, bare_reclaimed]
  startable h id := by rw [h, startable_reclaimed]
  recorded h _ _ := by rw [h]; rfl
  stored h _ _ := by rw [h]; rfl
  counted {c _} h id n := by
    rw [h]
    refine (reclaimed_modified fun r _ => ?_).symm
    unfold Component.reclaimed
    split <;> rfl
  enrolled {c _} h _ _ _ _ _ _ _ reg reg' hr hr' := by
    subst h
    rw [Registry.map_create (Component.reclaimed_of_ne (by simp [Component.fresh])) hr hr']
    rfl
  dropped {c _} h id _ := by
    rw [h]
    have hrecord : (c.modified id fun r => { r with
          slots := if c.config.reclaim then #[] else r.slots, stage := .released }).reclaimed
        = c.reclaimed.modified id fun r => { r with slots := #[], stage := .released } := by
      refine reclaimed_modified fun r _ => ?_
      rw [r.reclaimed_eq]
      rfl
    exact congrArg (·.recorded (.released id)) hrecord.symm
  awaiting h _ := by rw [h]; rfl
  noted h _ := by rw [h]; rfl
  begun h id hs := by
    rw [h]
    have hrecord := reclaimed_advance hs nofun .running nofun
    exact congrArg (fun s => (s.recorded (.triggered id)).left (some id)) hrecord.symm
  ended {c _} h id hs caller := by
    rw [h]
    have hrecord := reclaimed_advance (c := c.left caller) hs nofun .finished nofun
    exact congrArg (·.recorded (.finished id)) hrecord.symm
  left h _ := by rw [h]; rfl

theorem reclamation_reads : reclamation.Reads :=
  Likeness.reads_of (L := reclamation) (fun h => by cases h; rfl) fun h _ _ => by cases h; rfl

/-- The request uses no slots of a released component. -/
def Request.Spares (q : Request) (c : Computation) : Prop :=
  ∀ id, q.slotsOf? = some id → c.registry.stage? id ≠ some .released

/-- Requests that spare released components go on alike. -/
theorem reclamation_preserves : reclamation.Preserves fun _ q c => q.Spares c := by
  intro levels q c c' hc hq hbody
  obtain rfl : c' = c.reclaimed := hc
  refine Likeness.request reclamation_reads rfl ⟨fun _ => rfl, fun id hid => ?_, ?_⟩ hbody
  · exact (Computation.get?_reclaimed_of_ne (hq id hid)).symm
  · rintro parent slot child t start label rfl
    refine (Computation.reclaimed_modified fun r hr => ?_).symm
    have hs : r.stage ≠ .released := fun hs =>
      hq parent rfl (Registry.stage?_eq_some.mpr ⟨r, hr, hs⟩)
    rw [Component.reclaimed_of_ne hs]
    exact Component.reclaimed_of_ne hs

/-! ## Keeping the slots of released components -/

/-- Handles are kept, and a component has certain slots; it may be known to be released. -/
structure Registry.Retains (id : Handle) (slots : Array (Option Handle)) (released : Prop)
    (config : Config) (reg : Registry) : Prop where
  keeps : config.reclaim = false
  record : ∃ r, reg.get? id = some r ∧ r.slots = slots ∧ (released → r.stage = .released)

namespace Registry.Retains

variable {slots : Array (Option Handle)} {released : Prop} {config : Config} {reg : Registry}
  (h : reg.Retains id slots released config)

include h

/-- A change of a record that leaves alone the slots, and the stage of a released component. -/
theorem modified (other : Handle) {f : Component → Component}
    (hf : ∀ r, reg.get? other = some r → (f r).slots = r.slots ∧
      (r.stage = .released → (f r).stage = .released)) :
    (reg.modify other f).Retains id slots released config := by
  obtain ⟨r, hr, hslots, hreleased⟩ := h.record
  refine ⟨h.keeps, ?_⟩
  by_cases he : other = id
  · subst he
    obtain ⟨hs, hstage⟩ := hf r hr
    exact ⟨f r, (sets_modify hr f).self, hs.trans hslots, fun hlast => hstage (hreleased hlast)⟩
  · exact ⟨r, by rw [get?_modify, if_neg he, hr], hslots, hreleased⟩

/-- A change of another record. -/
theorem modified_ne {other : Handle} (hne : other ≠ id) (f : Component → Component) :
    (reg.modify other f).Retains id slots released config := by
  obtain ⟨r, hr, hrecord⟩ := h.record
  exact ⟨h.keeps, r, by rw [get?_modify, if_neg hne, hr], hrecord⟩

/-- A component that was not released enters another stage. -/
theorem advance {other : Handle} {stage : Stage} (hs : reg.stage? other = some stage)
    (hold : stage ≠ .released) (next : Stage) :
    (reg.modify other fun r => { r with stage := next }).Retains id slots released config := by
  refine h.modified other fun r hr => ⟨rfl, fun hlast => ?_⟩
  obtain ⟨r', hr', hs'⟩ := stage?_eq_some.mp hs
  cases hr.symm.trans hr'
  exact absurd (hs'.symm.trans hlast) hold

end Registry.Retains

/-- Slots are retained in all that the engine does without them. -/
theorem Registry.Retains.lasting (id : Handle) (slots : Array (Option Handle)) (released : Prop) :
    Lasting fun config reg => reg.Retains id slots released config where
  counted h other _ := h.modified other fun _ _ => ⟨rfl, fun hs => hs⟩
  enrolled {config reg reg'} h other _ _ _ _ _ _ hr := by
    obtain ⟨hfree, -, -, hget⟩ := create_ok hr
    obtain ⟨r, hr, hrecord⟩ := h.record
    have hne : other ≠ id := fun he => by
      rw [he, hr] at hfree
      cases hfree
    exact ⟨h.keeps, r, by rw [hget, if_neg hne, hr], hrecord⟩
  begun h _ hs := h.advance hs nofun .running
  ended h _ hs := h.advance hs nofun .finished
  dropped {config _} h other _ := by
    refine h.modified other fun r _ => ⟨?_, fun _ => rfl⟩
    show (if config.reclaim = true then #[] else r.slots) = r.slots
    rw [h.keeps]
    rfl

/-- A request that releases. -/
def Request.Releases : Request → Prop
  | .release _ | .releaseChildren _ => True
  | _ => False

/-- A request leaves alone the slots of all components that are released already, and the slots of
    all components if it releases some. -/
def Request.Keeps (levels : Nat) (q : Request) (c : Computation) : Prop :=
  ∀ id r, c.registry.get? id = some r → r.stage = .released ∨ q.Releases →
    ∃ r', ((q.perform (enterWithin levels)).after c).registry.get? id = some r' ∧
      r'.slots = r.slots ∧ (r.stage = .released → r'.stage = .released)

/-- Requests that spare released components leave alone the slots of one. -/
theorem Registry.Retains.preserves (id : Handle) (slots : Array (Option Handle)) :
    (lasting id slots True).likeness.Preserves fun _ q c =>
      q.Spares c ∧ c.config.reclaim = false := by
  rintro levels q c c' ⟨rfl, h⟩ ⟨hq, -⟩ hbody
  refine Likeness.request (lasting id slots True).reads ⟨rfl, h⟩
    ⟨fun _ => rfl, fun _ _ => rfl, ?_⟩ hbody
  rintro parent slot child t start label rfl
  have hne : parent ≠ id := by
    rintro rfl
    obtain ⟨r, hr, -, hs⟩ := h.record
    exact hq parent rfl (Registry.stage?_eq_some.mpr ⟨r, hr, hs trivial⟩)
  exact ⟨rfl, h.modified_ne hne _⟩

/-- **Handles are kept for good**, if they are not dropped. -/
theorem Request.keeps {q : Request} (hq : (Program.ask q .done).Along
      (fun _ q c => q.Spares c ∧ c.config.reclaim = false) levels c) : q.Keeps levels c := by
  have hkeeps := hq.now.2
  rintro id r hr (hs | hreleases)
  · have h : c.registry.Retains id r.slots True c.config := ⟨hkeeps, r, hr, rfl, fun _ => hs⟩
    obtain ⟨-, -, hmeet, -⟩ :=
      Likeness.abreast (Registry.Retains.preserves id r.slots) ⟨rfl, h⟩ hq
    obtain ⟨-, -, r', hr', hslots, hstage⟩ := hmeet.agree.after
    exact ⟨r', hr', hslots, fun _ => hstage trivial⟩
  · have h : c.registry.Retains id r.slots (r.stage = .released) c.config :=
      ⟨hkeeps, r, hr, rfl, fun hs => hs⟩
    have hbody : ∀ x, ¬ Enters (enterWithin levels) (fun enter => q.perform enter) c x := by
      cases q with
      | release | releaseChildren => exact fun x hx => not_enters_quiet _ x hx
      | _ => cases hreleases
    have hlasting := Registry.Retains.lasting id r.slots (r.stage = .released)
    have hmeet := Likeness.request hlasting.reads (q := q) ⟨rfl, h⟩
      ⟨fun _ => rfl, fun _ _ => rfl, fun he => by subst he; cases hreleases⟩
      fun x hx => absurd hx (hbody x)
    obtain ⟨-, -, hrecord⟩ := hmeet.agree.after
    exact hrecord

/-! ## The theorem -/

/-- **Reclamation cannot be observed through anything but the slots of released components.**  Two
    runs of a program act on one circuit; the first keeps the handles of released components, and
    the second drops them.  In the first run no request, also none of a body, uses the slots of a
    component that is released at that moment.  Then

    * the runs go abreast: every request is answered or fails alike in both, the same bodies are
      entered, and at every step the second state is the first one with the slots of released
      components emptied;
    * the runs end alike, again up to these slots;
    * in the first run a release leaves the slots of all components alone, and so does every later
      request with those that are released. -/
theorem Program.reclaim_unobserved {p : Program α} {circuit : Circuit} (config : Config)
    (hspares : ∀ q m, p.Visits levels (.start circuit { config with reclaim := false }) (some q) m →
      q.Spares m.state) :
    p.Abreast (fun c c' => c' = c.reclaimed) levels
      (.start circuit { config with reclaim := false })
      (.start circuit { config with reclaim := true }) ∧
    Agree (fun c c' => c' = c.reclaimed)
      (p.runWith (enterWithin levels) (.start circuit { config with reclaim := false }))
      (p.runWith (enterWithin levels) (.start circuit { config with reclaim := true })) ∧
    p.Along Request.Keeps levels (.start circuit { config with reclaim := false }) := by
  have hstart : Computation.start circuit { config with reclaim := true }
      = (Computation.start circuit { config with reclaim := false }).reclaimed := by
    have hempty : (Registry.empty circuit.totalComponents).map Component.reclaimed
        = .empty circuit.totalComponents :=
      Registry.ext_get? (by simp) fun other => by simp [Registry.get?_empty]
    unfold Computation.reclaimed
    rw [show (Computation.start circuit { config with reclaim := false }).registry
      = Registry.empty circuit.totalComponents from rfl, hempty]
    rfl
  have hup := Moment.upright_start circuit { config with reclaim := false }
  -- The configuration never changes, so the handles are kept at every step.
  have halong := Program.along_of_visits (P := fun q c => q.Spares c ∧ c.config.reclaim = false)
    levels p (.start circuit { config with reclaim := false }) fun q m hv => ⟨hspares q m hv, by
      have hpath : Path .any (.start circuit { config with reclaim := false }) m :=
        (Program.path_of_visits levels p _ hup fun _ _ _ => trivial).2 _ _ hv
      rw [hpath.circuit_eq.2]
      rfl⟩
  have hspared : p.Along (fun _ q c => q.Spares c) levels
      (.start circuit { config with reclaim := false }) := halong.imp fun hq => hq.now.1
  obtain ⟨hends, habreast⟩ := Likeness.abreast reclamation_preserves hstart hspared
  exact ⟨habreast, hends, halong.imp Request.keeps⟩

/-! ## Bodies that use their own slots -/

/-- The bodies of a circuit use no slots but those of the components that they run for. -/
def Circuit.OwnSlots (circuit : Circuit) : Prop :=
  ∀ body, circuit.Runs body → ∀ id, Program.Only (fun q => ∀ parent,
    q.slotsOf? = some parent → parent = id) (body.program id)

/-- The slots that are used at a moment are those of the innermost body. -/
theorem Program.Visits.own {p : Program α} {m m' : Moment} {next : Option Request}
    (hv : p.Visits levels m next m') (hup : m.Upright) (hc : m.state.circuit.OwnSlots)
    (hp : p.Only fun q => ∀ parent, q.slotsOf? = some parent → m.stack.head? = some parent) :
    ∀ q, next = some q → ∀ parent, q.slotsOf? = some parent → m'.stack.head? = some parent := by
  induction hv with
  | done | lost => intro q hq; cases hq
  | asks => intro q hq; cases hq; exact hp.1
  | @answered _ levels q _ _ _ _ _ _ h _ ih =>
    have hpath := (Request.follows_any levels q hup).1
    rw [after_ok h] at hpath
    exact ih (hpath.upright hup) (hpath.circuit_eq.1 ▸ hc) (hp.2 _)
  | @refused _ levels q _ _ _ _ _ _ h _ ih =>
    have hpath := (Request.follows_any levels q hup).1
    rw [after_error h] at hpath
    exact ih (hpath.upright hup) (hpath.circuit_eq.1 ▸ hc) (hp.2 _)
  | inside h _ ih =>
    obtain ⟨hpath, hbody⟩ := (Request.follows_any _ _ hup).2 _ h
    exact ih (hpath.upright hup) (hpath.circuit_eq.1 ▸ hc)
      ((hc _ hbody.runs _).mono fun q hq parent hparent => congrArg some (hq parent hparent).symm)

/-- **Bodies that use their own slots spare released components**: a body that makes a request is
    running. -/
theorem Program.Visits.spares {p : Program α} {circuit : Circuit} {config : Config} {m : Moment}
    {q : Request} (hv : p.Visits levels (.start circuit config) (some q) m)
    (hbodies : circuit.OwnSlots) (hp : p.Only fun q => q.slotsOf? = none) : q.Spares m.state := by
  intro parent hparent hreleased
  have hup := Moment.upright_start circuit config
  have hown := hv.own hup hbodies
    (hp.mono fun q hq parent hparent => by rw [hq] at hparent; cases hparent) q rfl parent hparent
  have hpath : Path .any (.start circuit config) m :=
    (Program.path_of_visits levels p _ hup fun _ _ _ => trivial).2 _ _ hv
  have hbusy : m.Busy := hpath.keeps (fun _ _ hi hs => hs.busy hi)
    (Moment.busy_start circuit config)
  have hrun : m.state.Running parent := hbusy.running parent (List.mem_of_head? hown)
  cases hrun.symm.trans hreleased

/-! ## The small circuit -/

theorem relay_ownSlots : relay.OwnSlots := by
  rintro body ⟨⟨i⟩, prefer, h⟩ id
  match i, h with
  | 0, h =>
    cases prefer <;> cases h <;>
      exact ⟨fun parent h => (Option.some.inj h).symm, fun answer => by cases answer <;> trivial⟩
  | 1, h =>
    cases prefer <;> cases h <;>
      exact ⟨fun parent h => (by cases h), fun answer => by cases answer <;> trivial⟩
  | i + 2, h => cases h

/-- The main component of the small circuit runs, and is released. -/
def relayReleased : Program Unit :=
  .ask (.create ⟨0⟩ ⟨0⟩ 1 "main" none) fun _ =>
  .ask (.writeInput ⟨0⟩ 1 5) fun _ =>
  .ask (.writeInput ⟨0⟩ 2 7) fun _ =>
  .ask (.release (some ⟨0⟩)) fun _ => .done ()

/-- The end of that run, where handles are kept. -/
def relayKept : Computation :=
  (relayReleased.runWith (enterWithin 2)).after (.start relay { reclaim := false })

/-- The same for the small circuit: where handles are kept, the released component holds its child,
    and in the other run it holds nothing. -/
theorem Program.reclaim_unobserved_relay :
    relayReleased.runWith (enterWithin 2) (.start relay { reclaim := false }) = .ok () relayKept ∧
    relayReleased.runWith (enterWithin 2) (.start relay { reclaim := true })
      = .ok () relayKept.reclaimed ∧
    (relayKept.registry.get? ⟨0⟩).map (·.slots) = some #[some ⟨1⟩] ∧
    (relayKept.reclaimed.registry.get? ⟨0⟩).map (·.slots) = some #[] := by
  have honly : relayReleased.Only fun q => q.slotsOf? = none :=
    ⟨rfl, fun _ => ⟨rfl, fun _ => ⟨rfl, fun _ => ⟨rfl, fun _ => trivial⟩⟩⟩⟩
  have hrun : relayReleased.runWith (enterWithin 2) (.start relay { reclaim := false })
      = .ok () relayKept := Action.eq_ok_after (by decide +kernel)
  have hspares : ∀ q m, relayReleased.Visits 2 (.start relay { reclaim := false }) (some q) m →
      q.Spares m.state := fun q m hv => hv.spares relay_ownSlots honly
  obtain ⟨d, hd, rfl⟩ := (reclaim_unobserved {} hspares).2.1.of_ok hrun
  exact ⟨hrun, hd, by decide +kernel, by decide +kernel⟩

end CircuitWitness
