import Mathlib.Tactic.ByContra
import CircuitWitness.Proofs.Main
import CircuitWitness.Proofs.Run
/-
  Counts and stages agree.

  A component whose inputs are all counted has begun, at every moment at which a program or a body
  can look: counting the last input and beginning are one step, and so are creating a component
  without inputs and beginning.  A body that fails leaves its component running, so failures do no
  harm to this either.

  The invariant also says which components are running for the bodies on the stack.  This is what
  the return of a body needs: the record it finds is the running one that it left, whatever the
  bodies below it have done meanwhile.
-/

namespace CircuitWitness

/-- The input counts of all templates fit the counters. -/
def Circuit.CountersFit (circuit : Circuit) : Prop :=
  ∀ t shape, circuit.templates.shape? t = some shape → shape.inputs < 2 ^ 32

/-- A record of a known template, whose body has begun exactly if no input is missing. -/
structure Component.Settled (templates : TemplateTable) (r : Component) : Prop where
  known : ∃ shape, templates.shape? r.template = some shape ∧ r.pending ≤ shape.inputs
  agrees : r.pending = 0 ↔ r.stage ≠ .created

/-- All records are settled, and the components on the stack are running, each for one body. -/
structure Moment.Settled (m : Moment) : Prop where
  records : ∀ id r, m.state.registry.get? id = some r → r.Settled m.state.circuit.templates
  running : ∀ id ∈ m.stack, ∃ r, m.state.registry.get? id = some r ∧ r.stage = .running
  nodup : m.stack.Nodup

namespace Component.Settled

variable {templates : TemplateTable} {r : Component}

theorem pending_le (h : r.Settled templates) {shape : TemplateShape}
    (hshape : templates.shape? r.template = some shape) : r.pending ≤ shape.inputs := by
  obtain ⟨shape', hshape', hle⟩ := h.known
  rw [hshape] at hshape'
  cases hshape'
  exact hle

/-- A component with missing inputs has not begun. -/
theorem created_of_pending (h : r.Settled templates) {n : Nat} (hp : r.pending = n + 1) :
    r.stage = .created := by
  by_contra hs
  have hzero := h.agrees.mpr hs
  omega

theorem count (h : r.Settled templates) {n : Nat} (hp : r.pending = n + 1) (hn : n ≠ 0) :
    ({ r with pending := n } : Component).Settled templates := by
  obtain ⟨shape, hshape, hle⟩ := h.known
  have hs : r.stage = .created := h.created_of_pending hp
  refine ⟨⟨shape, hshape, ?_⟩, ?_⟩
  · show n ≤ shape.inputs
    omega
  · show n = 0 ↔ r.stage ≠ .created
    exact ⟨fun h => absurd h hn, fun h => absurd hs h⟩

/-- A component that begins has no input missing. -/
theorem begins (h : r.Settled templates) :
    ({ r with pending := 0, stage := .running } : Component).Settled templates := by
  obtain ⟨shape, hshape, -⟩ := h.known
  exact ⟨⟨shape, hshape, Nat.zero_le _⟩, fun _ => by simp, fun _ => rfl⟩

/-- From one stage to another, neither of them the first. -/
theorem advance (h : r.Settled templates) (hs : r.stage ≠ .created) (stage : Stage)
    (hstage : stage ≠ .created) (slots : Array (Option Handle)) :
    ({ r with slots := slots, stage := stage } : Component).Settled templates :=
  ⟨h.known, fun _ => hstage, fun _ => h.agrees.mpr hs⟩

theorem fresh {t : TemplateId} {shape : TemplateShape} (ht : templates.shape? t = some shape)
    (hfit : shape.inputs < 2 ^ 32) (hn : shape.inputs ≠ 0) (start : Nat) (label : String)
    (parent : Option Handle) :
    (Component.fresh t start shape.inputCounter shape.slots label parent).Settled templates := by
  have hp : shape.inputCounter = shape.inputs := TemplateShape.inputCounter_eq hfit
  refine ⟨⟨shape, ht, ?_⟩, ?_⟩
  · show shape.inputCounter ≤ shape.inputs
    omega
  · show shape.inputCounter = 0 ↔ Stage.created ≠ .created
    simp [hp, hn]

end Component.Settled

/-! ## How the invariant moves along -/

namespace Moment.Settled

variable {s : List Handle} {c c' : Computation} {id : Handle} {r : Component}

/-- What leaves the records alone keeps them settled. -/
theorem frame (h : Settled ⟨s, c⟩) (hc : c'.circuit = c.circuit)
    (hr : c'.registry = c.registry) : Settled ⟨s, c'⟩ := by
  obtain ⟨hrec, hrun, hnd⟩ := h
  refine ⟨?_, ?_, hnd⟩
  · show ∀ id r, c'.registry.get? id = some r → r.Settled c'.circuit.templates
    rw [hc, hr]; exact hrec
  · show ∀ id ∈ s, ∃ r, c'.registry.get? id = some r ∧ r.stage = .running
    rw [hr]; exact hrun

/-- A component that is not running is not on the stack. -/
theorem not_mem (h : Settled ⟨s, c⟩) (hr : c.registry.get? id = some r)
    (hs : r.stage ≠ .running) : id ∉ s := by
  intro hid
  obtain ⟨r', hr', hs'⟩ := h.running id hid
  have hr'' : c.registry.get? id = some r' := hr'
  rw [hr] at hr''
  obtain rfl := Option.some.inj hr''
  exact hs hs'

/-- A handle without a component is not on the stack. -/
theorem not_mem_of_free (h : Settled ⟨s, c⟩) (hfree : c.registry.get? id = none) : id ∉ s := by
  intro hid
  obtain ⟨r', hr', -⟩ := h.running id hid
  have hr'' : c.registry.get? id = some r' := hr'
  rw [hfree] at hr''
  cases hr''

/-- A settled record may take the place of another, if a running component stays running. -/
theorem set (h : Settled ⟨s, c⟩) (hc : c'.circuit = c.circuit)
    (hsets : c.registry.Sets c'.registry id r) (hr : r.Settled c.circuit.templates)
    (hrun : id ∈ s → r.stage = .running) : Settled ⟨s, c'⟩ := by
  refine ⟨?_, ?_, h.nodup⟩
  · intro other r' hr'
    have hget : (if id = other then some r else c.registry.get? other) = some r' :=
      (hsets other).symm.trans hr'
    show r'.Settled c'.circuit.templates
    rw [hc]
    by_cases he : id = other
    · rw [if_pos he] at hget
      obtain rfl := Option.some.inj hget
      exact hr
    · rw [if_neg he] at hget
      exact h.records other r' hget
  · intro other hother
    show ∃ r', c'.registry.get? other = some r' ∧ r'.stage = .running
    rw [hsets other]
    by_cases he : id = other
    · rw [if_pos he]
      exact ⟨r, rfl, hrun (he ▸ hother)⟩
    · rw [if_neg he]
      exact h.running other hother

/-- A body goes onto the stack. -/
theorem push (h : Settled ⟨s, c⟩) (hid : id ∉ s)
    (hrun : ∃ r, c.registry.get? id = some r ∧ r.stage = .running) : Settled ⟨id :: s, c⟩ := by
  refine ⟨h.records, ?_, List.nodup_cons.mpr ⟨hid, h.nodup⟩⟩
  intro other hother
  rcases List.mem_cons.mp hother with rfl | hother
  · exact hrun
  · exact h.running other hother

/-- The innermost body leaves the stack. -/
theorem pop (h : Settled ⟨id :: s, c⟩) : Settled ⟨s, c⟩ :=
  ⟨h.records, fun other hother => h.running other (List.mem_cons_of_mem id hother),
    (List.nodup_cons.mp h.nodup).2⟩

/-- A component whose inputs are all counted begins, and its body goes onto the stack. -/
theorem start (h : Settled ⟨s, c⟩) (hc : c'.circuit = c.circuit)
    (hsets : c.registry.Sets c'.registry id r) (hr : r.Settled c.circuit.templates)
    (hs : r.stage = .running) (hid : id ∉ s) : Settled ⟨id :: s, c'⟩ :=
  (h.set hc hsets hr fun hmem => absurd hmem hid).push hid ⟨r, hsets.self, hs⟩

/-- A settled component that was created and misses no input does not exist: nothing is left to
    begin by hand. -/
theorem not_startable (h : Settled ⟨s, c⟩) {body : Body} : c.startable id ≠ .ok body := by
  intro hb
  obtain ⟨r, hr, hs, hp, -⟩ := Action.of_startable hb
  exact (h.records id r hr).agrees.mp hp hs

/-- Counting the last input makes the component startable. -/
theorem startable (h : Settled ⟨s, c⟩) (hr : c.registry.get? id = some r) (hp : r.pending = 1)
    (signal : Nat) : ∃ body, (c.arrived id signal 0).startable id = .ok body := by
  have hset := h.records id r hr
  obtain ⟨shape, hshape, -⟩ := hset.known
  have hs : r.stage = .created := hset.created_of_pending hp
  obtain ⟨body, hb⟩ := TemplateTable.body?_of_shape? hshape c.config.useAlternate
  have hget : (c.arrived id signal 0).registry.get? id = some { r with pending := 0 } :=
    (Registry.sets_modify hr _).self
  exact ⟨body, Action.startable_eq hget hs rfl hb⟩

/-- If the component does not begin when an input is counted, then more inputs are to come. -/
theorem more_to_come (h : Settled ⟨s, c⟩) (hr : c.registry.get? id = some r) {n signal : Nat}
    (hp : r.pending = n + 1)
    (hn : n ≠ 0 ∨ ∃ e, (c.arrived id signal n).startable id = .error e) : n ≠ 0 := by
  rcases hn with hn | ⟨e, he⟩
  · exact hn
  · rintro rfl
    obtain ⟨body, hb⟩ := h.startable hr hp signal
    rw [he] at hb
    cases hb

end Moment.Settled

/-- **Every step keeps the records settled**, if inputs are counted only as they are written. -/
theorem Step.settled {m m' : Moment} (h : Step .noCount m m') (hm : m.Settled)
    (hfit : m.state.circuit.CountersFit) : m'.Settled := by
  cases h with
  | read | write | assign | note => exact hm.frame rfl rfl
  | @keep s c parent _ _ r hr =>
    -- The slots do not matter; a parent on the stack is running before and after.
    refine hm.set rfl (Registry.sets_modify hr _) ⟨(hm.records parent r hr).known,
      (hm.records parent r hr).agrees⟩ fun hmem => ?_
    by_contra hs
    exact hm.not_mem hr hs hmem
  | create ht hr hn =>
    have hfree := (Registry.create_ok hr).1
    exact hm.set rfl (Registry.sets_create hr) (.fresh ht (hfit _ _ ht) hn _ _ _) fun hmem =>
      absurd hmem (hm.not_mem_of_free hfree)
  | @createRun s c id t start label parent shape reg ht hr hn =>
    have hsets := Registry.sets_create hr
    have hp : shape.inputCounter = 0 := TemplateShape.inputCounter_zero hn
    refine hm.start rfl (hsets.trans (Registry.sets_modify hsets.self _)) ?_ rfl
      (hm.not_mem_of_free (Registry.create_ok hr).1)
    exact ⟨⟨shape, ht, by show shape.inputCounter ≤ _; omega⟩, fun _ => by simp, fun _ => hp⟩
  | @input s c id _ _ n _ r _ _ _ _ hr hp hn =>
    have hset := hm.records id r hr
    have hs : r.stage = .created := hset.created_of_pending hp
    exact hm.set rfl (Registry.sets_modify hr _) (hset.count hp hn) fun hmem =>
      absurd hmem (hm.not_mem hr (by simp [hs]))
  | @inputRun s c id _ _ _ r _ _ _ _ hr hp =>
    have hset := hm.records id r hr
    have hs : r.stage = .created := hset.created_of_pending hp
    have hsets := Registry.sets_modify hr fun r => { r with pending := 0 }
    exact hm.start rfl (hsets.trans (Registry.sets_modify hsets.self _)) hset.begins rfl
      (hm.not_mem hr (by simp [hs]))
  | @account s c i n r _ hr _ _ hp hn =>
    have hset := hm.records .mainComponent r hr
    have hs : r.stage = .created := hset.created_of_pending hp
    have hn : n ≠ 0 := hm.more_to_come hr hp hn
    exact hm.set rfl (Registry.sets_modify hr _) (hset.count hp hn) fun hmem =>
      absurd hmem (hm.not_mem hr (by simp [hs]))
  | @accountRun s c i r _ _ hr _ _ hp =>
    have hset := hm.records .mainComponent r hr
    have hs : r.stage = .created := hset.created_of_pending hp
    have hsets := Registry.sets_modify hr fun r => { r with pending := 0 }
    exact hm.start rfl (hsets.trans (Registry.sets_modify hsets.self _)) hset.begins rfl
      (hm.not_mem hr (by simp [hs]))
  -- Nothing that could be begun by hand is left.
  | trigger hb => exact absurd hb hm.not_startable
  | @finish s c id =>
    -- The body that returns is still running, whatever the bodies below it have done.
    obtain ⟨r, hr, hs⟩ := hm.running id (List.mem_cons_self ..)
    have hr : c.registry.get? id = some r := hr
    have hset := (hm.records id r hr).advance (by simp [hs]) .finished (by simp) r.slots
    exact hm.pop.set rfl (Registry.sets_modify hr _) hset fun hmem =>
      absurd hmem (List.nodup_cons.mp hm.nodup).1
  | leave => exact hm.pop.frame rfl rfl
  | @release s c id r hr hf =>
    have hset := (hm.records id r hr).advance (by simp [hf]) .released (by simp)
      (if c.config.reclaim then #[] else r.slots)
    exact hm.set rfl (Registry.sets_modify hr _) hset fun hmem =>
      absurd hmem (hm.not_mem hr (by simp [hf]))
  | count hq => exact absurd rfl (hq _)

theorem Path.settled {m m' : Moment} (h : Path .noCount m m') (hm : m.Settled)
    (hfit : m.state.circuit.CountersFit) : m'.Settled := by
  refine (h.keeps (I := fun m' => m'.Settled ∧ m'.state.circuit.CountersFit) ?_ ⟨hm, hfit⟩).1
  rintro m₁ m₂ ⟨hset, hfit⟩ hs
  exact ⟨hs.settled hset hfit, hs.circuit_eq.1 ▸ hfit⟩

/-- At the start there are no records. -/
theorem Moment.settled_start (circuit : Circuit) (config : Config) :
    (Moment.start circuit config).Settled := by
  refine ⟨fun id r hr => ?_, fun id hid => ?_, List.nodup_nil⟩
  · have hnone : (Moment.start circuit config).state.registry.get? id = none :=
      Registry.get?_empty _ _
    rw [hnone] at hr
    cases hr
  · cases hid

/-! ## Regular moments -/

/-- A moment of a run in which inputs are counted only as they are written. -/
structure Moment.Regular (m : Moment) : Prop where
  upright : m.Upright
  settled : m.Settled
  fits : m.state.circuit.CountersFit
  only : m.state.circuit.Only Request.NoCount
  main : m.state.circuit.templates.shape? m.state.circuit.mainTemplate
    = some m.state.circuit.mainShape

theorem Path.regular {m m' : Moment} (h : Path .noCount m m') (hm : m.Regular) : m'.Regular := by
  have hc : m'.state.circuit = m.state.circuit := h.circuit_eq.1
  refine ⟨h.upright hm.upright, h.settled hm.settled hm.fits, ?_, ?_, ?_⟩
  · rw [hc]; exact hm.fits
  · rw [hc]; exact hm.only
  · rw [hc]; exact hm.main

/-- Every moment of a run is regular. -/
theorem Program.Visits.regular {α : Type} {levels : Nat} {p : Program α} {d : CircuitDescription}
    {circuit : Circuit} {config : Config} {m : Moment} {next : Option Request}
    (hv : p.Visits levels (.start circuit config) next m) (hd : d.accept = .ok circuit)
    (hfit : circuit.CountersFit) (hc : circuit.Only Request.NoCount)
    (hp : p.Only Request.NoCount) : m.Regular :=
  (hv.path_noCount hc hp).regular ⟨Moment.upright_start circuit config,
    Moment.settled_start circuit config, hfit, hc, (CircuitDescription.of_accept hd).2.1⟩

theorem relay_fits : relay.CountersFit := by
  rintro ⟨i⟩ shape h
  match i, h with
  | 0, h | 1, h => cases h; decide
  | i + 2, h => cases h

end CircuitWitness
