import Mathlib.Data.List.Nodup
import Mathlib.Data.List.Perm.Subperm
import CircuitWitness.Proofs.Procedure
import CircuitWitness.Proofs.Woven
import CircuitWitness.Proofs.Tally
/-
  Bodies that start each other come to an end.

  Requests start bodies, and bodies make requests; no argument gets smaller on the way round.  What
  gets smaller is the number of components that have not begun: a body is entered in the step in
  which its component leaves the first stage, and no component goes back there.

  This is shown in the form in which termination can be said of actions that are given a number of
  levels: one level for each component that has not begun is enough, in that more levels change
  nothing and want of levels is no reason to fail (`Terminates`).  The induction is on the number of
  components that have not begun, and for programs on the program.

  The other half counts the bodies of a whole run (`Course`): the bodies that were started belong to
  different components, and to just those that have begun.
-/

namespace CircuitWitness

open CircuitWitness.Action

variable {π : Policy} {α : Type} {levels : Nat} {q : Request} {c : Computation} {x : Entry}

/-! ## What an entered body has used up -/

/-- As bodies go onto the stack, the count of those that have begun rises. -/
theorem Path.begunCount_add_length_le {m m' : Moment} (h : Path π m m') :
    m.state.registry.begunCount + m'.stack.length
      ≤ m'.state.registry.begunCount + m.stack.length := by
  refine h.keeps (I := fun m' => m.state.registry.begunCount + m'.stack.length
    ≤ m'.state.registry.begunCount + m.stack.length) ?_ (Nat.le_refl _)
  intro m₁ m₂ hle hs
  have hcount : m₁.state.registry.begunCount ≤ m₂.state.registry.begunCount :=
    Path.begunCount_le (.single hs)
  cases hs.onStack with
  | same h => rw [h]; omega
  | pop id h => rw [h, List.length_cons] at hle; omega
  | push id h _ _ _ hcount => rw [h, List.length_cons]; omega

/-- Where nothing is known about the stack, it may be taken for the body that is running. -/
theorem Moment.upright_active (c : Computation) : Moment.Upright ⟨c.active.toList, c⟩ := by
  show c.active = c.active.toList.head?
  cases c.active <;> rfl

/-- A request leaves the circuit alone, and starts bodies of the circuit only. -/
theorem Request.circuit_eq (levels : Nat) (q : Request) (c : Computation) :
    ((q.perform (enterWithin levels)).after c).circuit = c.circuit ∧
    ∀ x, Enters (enterWithin levels) (fun enter => q.perform enter) c x →
      x.state.circuit = c.circuit ∧ c.circuit.Runs x.body := by
  obtain ⟨hpath, hbody⟩ := Request.follows_any levels q (Moment.upright_active c)
  exact ⟨hpath.circuit_eq.1, fun x hx => ⟨(hbody x hx).1.circuit_eq.1, (hbody x hx).2.runs⟩⟩

theorem unbegun_after_le (levels : Nat) (q : Request) (c : Computation) :
    ((q.perform (enterWithin levels)).after c).registry.unbegun ≤ c.registry.unbegun :=
  (Request.follows_any levels q (Moment.upright_active c)).1.unbegun_le

/-- When a body is entered, fewer bodies can begin than before. -/
theorem unbegun_lt_of_enters (hx : Enters (enterWithin levels) (fun e => q.perform e) c x) :
    x.state.registry.unbegun < c.registry.unbegun := by
  have hpath : Path .any ⟨c.active.toList, c⟩ ⟨x.id :: c.active.toList, x.state⟩ :=
    ((Request.follows_any levels q (Moment.upright_active c)).2 x hx).1
  have hle := hpath.begunCount_add_length_le
  have hcap : x.state.registry.capacity = c.registry.capacity := hpath.capacity_eq
  have hbound := x.state.registry.tally_le_capacity fun r => r.stage != .created
  simp only [List.length_cons] at hle
  unfold Registry.unbegun
  unfold Registry.begunCount at hle ⊢
  omega

/-! ## Levels that are enough -/

/-- With one level for each body that can begin yet, more levels make no difference, and an action
    does not fail for want of levels. -/
def Terminates (act : Enter → Action α) (c : Computation) : Prop :=
  ∀ levels, c.registry.unbegun ≤ levels →
    act (enterWithin levels) c = act (enterWithin c.registry.unbegun) c ∧
    ∀ c', act (enterWithin levels) c ≠ .error .tooDeep c'

/-- A body comes to an end if its program does. -/
theorem Terminates.body {body : Body} {id : Handle}
    (h : Terminates (fun enter => (body.program id).runWith enter) c) :
    Terminates (fun enter => (body id).runWith enter) c := by
  intro levels hle
  obtain ⟨heq, hdeep⟩ := h levels hle
  constructor
  · show ((body.program id).runWith (enterWithin levels) >>= _ : Action Unit) c = _
    exact Action.bind_congr_left heq
  · intro c' hr
    have hr : ((body.program id).runWith (enterWithin levels) >>= _ : Action Unit) c
        = .error .tooDeep c' := hr
    cases hp : (body.program id).runWith (enterWithin levels) c with
    | ok res d =>
      rw [bind_ok hp] at hr
      cases res <;> cases hr
    | error f d =>
      rw [bind_error hp] at hr
      cases hr
      exact hdeep c' hp

/-- A request comes to an end if the bodies do that it enters. -/
theorem Request.terminates_of (q : Request) (c : Computation)
    (hbody : ∀ levels x, Enters (enterWithin levels) (fun e => q.perform e) c x →
      Terminates (fun enter => (x.body x.id).runWith enter) x.state) :
    Terminates (fun enter => q.perform enter) c := by
  intro levels hle
  have hq := q.schematic
  constructor
  · refine (hq.congr _ _ c fun x hx => ?_).symm
    -- Both numbers of levels leave enough for the body after one was spent on it.
    have hless := unbegun_lt_of_enters hx
    obtain ⟨k, hk⟩ : ∃ k, c.registry.unbegun = k + 1 := ⟨c.registry.unbegun - 1, by omega⟩
    obtain ⟨l, rfl⟩ : ∃ l, levels = l + 1 := ⟨levels - 1, by omega⟩
    have hends := hbody _ x hx
    rw [hk]
    exact (hends k (by omega)).1.trans (hends l (by omega)).1.symm
  · intro c' hr
    rcases (hq.outcome (enterWithin levels) c).2 _ c' hr with ⟨hshallow, -⟩ | ⟨x, s, hx, hfail⟩
    · exact hshallow rfl
    · have hless := unbegun_lt_of_enters hx
      obtain ⟨l, rfl⟩ : ∃ l, levels = l + 1 := ⟨levels - 1, by omega⟩
      exact (hbody _ x hx l (by omega)).2 s hfail

/-- A program comes to an end if its requests do. -/
theorem Program.terminates_of {n : Nat} (hreq : ∀ (q : Request) (c : Computation),
      c.registry.unbegun ≤ n → Terminates (fun enter => q.perform enter) c) (p : Program α) :
    ∀ c, c.registry.unbegun ≤ n → Terminates (fun enter => p.runWith enter) c := by
  induction p with
  | done a => exact fun c _ levels _ => ⟨rfl, fun c' hr => by cases hr⟩
  | ask q next ih =>
    intro c hn levels hle
    obtain ⟨heq, hdeep⟩ := hreq q c hn levels hle
    have hafter := unbegun_after_le levels q c
    -- What follows on an answer has fewer bodies to begin, and as many levels.
    have hnext : ∀ answer c', c'.registry.unbegun ≤ c.registry.unbegun →
        (next answer).runWith (enterWithin levels) c'
          = (next answer).runWith (enterWithin c.registry.unbegun) c' ∧
        ∀ d, (next answer).runWith (enterWithin levels) c' ≠ .error .tooDeep d := by
      intro answer c' hless
      have hends := ih answer c' (Nat.le_trans hless hn)
      obtain ⟨hmore, hdeep⟩ := hends levels (Nat.le_trans hless hle)
      exact ⟨hmore.trans (hends _ hless).1.symm, hdeep⟩
    cases hr : q.perform (enterWithin levels) c with
    | ok a c' =>
      rw [after_ok hr] at hafter
      obtain ⟨hmore, hdeep⟩ := hnext (.ok a) c' hafter
      show (Program.ask q next).runWith _ c = (Program.ask q next).runWith _ c ∧ _
      rw [runWith_answered hr, runWith_answered (heq.symm.trans hr)]
      exact ⟨hmore, fun d hd => hdeep d ((runWith_answered hr).symm.trans hd)⟩
    | error f c' =>
      rw [after_error hr] at hafter
      show (Program.ask q next).runWith _ c = (Program.ask q next).runWith _ c ∧ _
      cases f with
      | refused e =>
        obtain ⟨hmore, hdeep⟩ := hnext (.error e) c' hafter
        rw [runWith_refused hr, runWith_refused (heq.symm.trans hr)]
        exact ⟨hmore, fun d hd => hdeep d ((runWith_refused hr).symm.trans hd)⟩
      | outOfRange =>
        have hlost : ∀ e, Fault.outOfRange ≠ .refused e := fun e => by simp
        rw [runWith_lost hr hlost, runWith_lost (heq.symm.trans hr) hlost]
        exact ⟨rfl, fun d hd => by cases (runWith_lost hr hlost).symm.trans hd⟩
      | tooDeep => exact absurd hr (hdeep c')

/-- **Every request comes to an end.** -/
theorem Request.terminates (n : Nat) : ∀ (q : Request) (c : Computation),
    c.registry.unbegun ≤ n → Terminates (fun enter => q.perform enter) c := by
  induction n with
  | zero =>
    intro q c hn
    refine q.terminates_of c fun levels x hx => ?_
    have hless := unbegun_lt_of_enters hx
    omega
  | succ n ih =>
    intro q c hn
    refine q.terminates_of c fun levels x hx => ?_
    have hless := unbegun_lt_of_enters hx
    exact .body (Program.terminates_of ih _ x.state (by omega))

/-- **Every program comes to an end.** -/
theorem Program.terminates (p : Program α) (c : Computation) :
    Terminates (fun enter => p.runWith enter) c :=
  Program.terminates_of (Request.terminates c.registry.unbegun) p c (Nat.le_refl _)

/-! ## The bodies of a whole run -/

/-- Some steps, and the components whose bodies they start, in order. -/
inductive Course (π : Policy) (m : Moment) : List Handle → Moment → Prop
  | refl : Course π m [] m
  /-- A step starts a body. -/
  | starts {ids : List Handle} {id : Handle} {m₁ m₂ : Moment} (h : Course π m ids m₁)
      (hs : Step π m₁ m₂) (hstack : m₂.stack = id :: m₁.stack) : Course π m (ids ++ [id]) m₂
  /-- A step starts no body. -/
  | goes {ids : List Handle} {m₁ m₂ : Moment} (h : Course π m ids m₁) (hs : Step π m₁ m₂)
      (hstack : m₂.stack.length ≤ m₁.stack.length) : Course π m ids m₂

theorem Path.course {m m' : Moment} (h : Path π m m') : ∃ ids, Course π m ids m' := by
  induction h with
  | refl => exact ⟨[], .refl⟩
  | tail _ hs ih =>
    obtain ⟨ids, hcourse⟩ := ih
    cases hs.onStack with
    | same h => exact ⟨ids, hcourse.goes hs (by rw [h])⟩
    | pop id h => exact ⟨ids, hcourse.goes hs (by rw [h]; exact Nat.le_succ _)⟩
    | push id h => exact ⟨ids ++ [id], hcourse.starts hs h⟩

/-- The listed components are different ones, and just those that have begun; the bodies on the
    stack are different ones among them. -/
structure Moment.Counts (m : Moment) (ids : List Handle) : Prop where
  nodup : ids.Nodup
  started : ∀ id, id ∈ ids ↔ m.state.Started id
  stack : ∀ id ∈ m.stack, id ∈ ids
  once : m.stack.Nodup

namespace Moment.Counts

variable {m m' : Moment} {ids : List Handle}

/-- A step that starts no body. -/
theorem goes (h : m.Counts ids) (hs : Step π m m')
    (hstack : m'.stack.length ≤ m.stack.length) : m'.Counts ids := by
  have hkeep : ∀ id, m.state.Started id → m'.state.Started id := fun id h => h.ages hs.ages
  cases hs.onStack with
  | same heq hstarted =>
    refine ⟨h.nodup, fun id => (h.started id).trans ⟨hkeep id, hstarted id⟩, ?_, ?_⟩
    · rw [heq]
      exact h.stack
    · rw [heq]
      exact h.once
  | pop id heq hstarted =>
    have honce := h.once
    have hmem := h.stack
    rw [heq] at honce hmem
    refine ⟨h.nodup, fun other => ⟨fun hin => hkeep other ((h.started other).mp hin),
      fun hin => ?_⟩, fun other hin => hmem other (List.mem_cons_of_mem id hin),
      (List.nodup_cons.mp honce).2⟩
    -- The body that is left behind had begun before.
    rcases hstarted other hin with hin | rfl
    · exact (h.started other).mpr hin
    · exact hmem other (List.mem_cons_self ..)
  | push id heq =>
    rw [heq, List.length_cons] at hstack
    omega

/-- A step that starts a body, which was not started before. -/
theorem starts (h : m.Counts ids) (hs : Step π m m') {id : Handle}
    (hstack : m'.stack = id :: m.stack) : m'.Counts (ids ++ [id]) := by
  have hkeep : ∀ id, m.state.Started id → m'.state.Started id := fun id h => h.ages hs.ages
  cases hs.onStack with
  | same heq => simp [heq] at hstack
  | pop id' heq =>
    have hlen := congrArg List.length hstack
    rw [heq, List.length_cons, List.length_cons] at hlen
    omega
  | push id' heq hnew hrun hstarted =>
    obtain rfl : id' = id := by
      rw [heq] at hstack
      exact (List.cons.inj hstack).1
    have hfresh : id' ∉ ids := fun hin => hnew ((h.started id').mp hin)
    have hself : m'.state.Started id' :=
      Computation.started_iff.mpr ⟨.running, hrun, by simp⟩
    refine ⟨?_, fun other => ?_, ?_, ?_⟩
    · exact List.nodup_append.mpr ⟨h.nodup, by simp, fun a ha b hb => by
        rw [List.mem_singleton.mp hb]
        exact fun he => hfresh (he ▸ ha)⟩
    · rw [List.mem_append, List.mem_singleton, h.started other]
      constructor
      · rintro (hin | rfl)
        · exact hkeep other hin
        · exact hself
      · exact hstarted other
    · intro other hin
      rw [hstack] at hin
      rcases List.mem_cons.mp hin with rfl | hin
      · simp
      · exact List.mem_append_left _ (h.stack other hin)
    · rw [hstack]
      exact List.nodup_cons.mpr ⟨fun hin => hfresh (h.stack id' hin), h.once⟩

/-- There are no more of them than handles. -/
theorem length_le (h : m.Counts ids) : ids.length ≤ m.state.registry.capacity := by
  have hinj : Function.Injective Handle.index := fun a b h => by cases a; cases b; cases h; rfl
  have hsub : ids.map Handle.index ⊆ List.range m.state.registry.capacity := by
    intro i hi
    obtain ⟨id, hid, rfl⟩ := List.mem_map.mp hi
    obtain ⟨r, hr, -⟩ := (h.started id).mp hid
    exact List.mem_range.mpr (Registry.lt_of_get? hr)
  have hle := ((h.nodup.map hinj).subperm hsub).length_le
  rwa [List.length_map, List.length_range] at hle

/-- No more bodies are on the stack than there are handles. -/
theorem stack_length_le (h : m.Counts ids) : m.stack.length ≤ m.state.registry.capacity :=
  Nat.le_trans (h.once.subperm h.stack).length_le h.length_le

end Moment.Counts

/-- At the start no body has begun. -/
theorem Moment.counts_start (circuit : Circuit) (config : Config) :
    (Moment.start circuit config).Counts [] := by
  refine ⟨List.nodup_nil, fun id => ⟨by simp, ?_⟩, by simp [Moment.start], List.nodup_nil⟩
  rintro ⟨r, hr, -⟩
  have hnone : (Moment.start circuit config).state.registry.get? id = none :=
    Registry.get?_empty _ _
  cases hnone.symm.trans hr

theorem Course.counts {m m' : Moment} {ids : List Handle} (h : Course π m ids m')
    (hm : m.Counts []) : m'.Counts ids := by
  induction h with
  | refl => exact hm
  | starts _ hs hstack ih => exact ih.starts hs hstack
  | goes _ hs hstack ih => exact ih.goes hs hstack

/-- With the trace on, the bodies that were started are the starts in it. -/
theorem Course.trace {m m' : Moment} {ids : List Handle} (h : Course π m ids m') :
    m.state.trace.Starts m'.state.trace ids := by
  induction h with
  | refl => exact .refl _
  | @starts ids id m₁ m₂ _ hs hstack ih =>
    cases hs.onStack with
    | same heq => simp [heq] at hstack
    | pop id' heq =>
      have hlen := congrArg List.length hstack
      rw [heq, List.length_cons, List.length_cons] at hlen
      omega
    | push id' heq _ _ _ _ htrace =>
      rw [heq] at hstack
      exact ih.trans ((List.cons.inj hstack).1 ▸ htrace)
  | @goes ids m₁ m₂ _ hs hstack ih =>
    cases hs.onStack with
    | same _ _ htrace | pop _ _ _ htrace => simpa using ih.trans htrace
    | push id heq =>
      rw [heq, List.length_cons] at hstack
      omega

/-- At the start the trace is on, if it is to be, and no body was started. -/
theorem Moment.starts_start (circuit : Circuit) {config : Config}
    (hon : config.recordTrace = true) : (Moment.start circuit config).state.trace.enabled = true ∧
      (Moment.start circuit config).state.trace.starts = [] := by
  unfold Moment.start Computation.start
  dsimp only
  split
  · exact ⟨hon, rfl⟩
  · have hempty : (Trace.empty config.recordTrace).Starts
        ((Trace.empty config.recordTrace).record (.signalWritten 0)) [] :=
      Trace.starts_record _ (by simp)
    exact hempty hon

/-- What is on the stack now and was not before had not begun before. -/
theorem Path.not_started_of_mem {m m' : Moment} (h : Path π m m') {id : Handle}
    (hid : id ∈ m'.stack) : id ∈ m.stack ∨ ¬ m.state.Started id := by
  induction h with
  | refl => exact .inl hid
  | tail hpath hs ih =>
    cases hs.onStack with
    | same h => exact ih (h ▸ hid)
    | pop other h => exact ih (h ▸ List.mem_cons_of_mem other hid)
    | push other h hnew =>
      rw [h] at hid
      rcases List.mem_cons.mp hid with rfl | hid
      · exact .inr fun hstarted => hnew (hstarted.ages (Path.ages hpath))
      · exact ih hid

/-- **Activation is bounded and comes to an end.**  A program acts on a circuit from the start, by
    any requests, and so do the bodies.  Then at every moment of the run, inside bodies or not,

    * every request comes to an end: one level for each component that has not begun is enough for
      it, more levels change nothing, and it does not fail for want of levels;
    * a body that a request enters belongs to a component that had not begun; it is running then,
      fewer components are left that have not begun, and it has begun for good;
    * the bodies on the stack belong to different components, so there are no more of them than
      the circuit has components;
    * the bodies that were started on the way belong to different components, to those that have
      begun, so there are no more of them than the circuit has components; and with the trace on,
      they are the starts in the trace. -/
theorem Program.Visits.activation_bounded {levels : Nat} {p : Program α} {circuit : Circuit}
    {config : Config} {m : Moment} {next : Option Request}
    (hv : p.Visits levels (.start circuit config) next m) :
    (∀ (q : Request) (below : Nat), m.state.registry.unbegun ≤ below →
      q.perform (enterWithin below) m.state = q.run m.state ∧
      ∀ c, q.run m.state ≠ .error .tooDeep c) ∧
    (∀ (q : Request) (below : Nat) (x : Entry),
      Enters (enterWithin below) (fun e => q.perform e) m.state x →
      ¬ m.state.Started x.id ∧ x.state.Running x.id ∧
      x.state.registry.unbegun < m.state.registry.unbegun ∧
      ((q.perform (enterWithin below)).after m.state).Started x.id) ∧
    (∀ {β : Type} (p' : Program β) (below : Nat) (next' : Option Request) (m' : Moment),
      p'.Visits below m next' m' → ∀ id, m.state.Started id → m'.state.Started id) ∧
    m.stack.Nodup ∧ m.stack.length ≤ circuit.totalComponents ∧
    (∃ ids, Course .any (.start circuit config) ids m) ∧
    ∀ ids, Course .any (.start circuit config) ids m →
      ids.Nodup ∧ ids.length ≤ circuit.totalComponents ∧
      (∀ id, id ∈ ids ↔ m.state.Started id) ∧ m.stack ⊆ ids ∧
      (config.recordTrace = true → m.state.trace.starts = ids) := by
  have hpath : Path .any (.start circuit config) m :=
    (Program.path_of_visits levels p _ (Moment.upright_start circuit config)
      fun _ _ _ => trivial).2 next m hv
  have hup : m.Upright := hpath.upright (Moment.upright_start circuit config)
  have hcap : m.state.registry.capacity = circuit.totalComponents :=
    hpath.capacity_eq.trans (Registry.capacity_empty _)
  have hcounts : ∀ {m' : Moment}, Path .any (.start circuit config) m' → ∃ ids, m'.Counts ids :=
    fun hp => hp.course.imp fun _ hcourse => hcourse.counts (Moment.counts_start circuit config)
  obtain ⟨ids, hids⟩ := hcounts hpath
  have hstack := hids.stack_length_le
  rw [hcap] at hstack
  refine ⟨fun q below hle => ?_, fun q below x hx => ?_, fun p' below next' m' hv' id h => ?_,
    hids.once, hstack, hpath.course, fun ids hcourse => ?_⟩
  · have hends := Request.terminates _ q m.state (Nat.le_refl _)
    have hroom : m.state.registry.unbegun ≤ m.state.nesting := Nat.sub_le _ _
    exact ⟨(hends below hle).1.trans (hends _ hroom).1.symm, (hends _ hroom).2⟩
  · obtain ⟨hpx, hstarts⟩ := (Request.follows_any below q hup).2 x hx
    obtain ⟨ids', hids'⟩ := hcounts (hpath.trans hpx)
    have hmem : x.id ∈ x.id :: m.stack := List.mem_cons_self ..
    have hnew : ¬ m.state.Started x.id := (hpx.not_started_of_mem hmem).resolve_left
      (List.nodup_cons.mp hids'.once).1
    have hrun : x.state.Running x.id := by
      obtain ⟨c, hc⟩ := hstarts.begun
      obtain ⟨r, hr, -⟩ := (hids'.started x.id).mp (hids'.stack x.id hmem)
      have hr : x.state.registry.get? x.id = some r := hr
      rw [hc] at hr ⊢
      have hr : (c.registry.modify x.id _).get? x.id = some r := hr
      rw [Registry.get?_modify, if_pos rfl] at hr
      obtain ⟨r', hr', -⟩ := Option.map_eq_some_iff.mp hr
      exact (Computation.running_begun hr' x.id).mpr (.inr rfl)
    refine ⟨hnew, hrun, unbegun_lt_of_enters hx, (q.schematic.started _ m.state ?_).2 x hx⟩
    intro y hy id h
    have hpy := ((Request.follows_any below q hup).2 y hy).1
    have hbody := (bodiesStep (π := .any) below y m.stack (hpy.upright hup)
      fun _ _ _ _ _ => trivial).1
    exact h.ages hbody.ages
  · have hlater : Path .any m m' := (Program.path_of_visits below p' m hup
      fun _ _ _ => trivial).2 next' m' hv'
    exact h.ages hlater.ages
  · have hids := hcourse.counts (Moment.counts_start circuit config)
    have hlength := hids.length_le
    rw [hcap] at hlength
    refine ⟨hids.nodup, hlength, hids.started, hids.stack, fun hon => ?_⟩
    obtain ⟨hen, hnone⟩ := Moment.starts_start circuit hon
    obtain ⟨-, hlist⟩ := hcourse.trace hen
    rw [hlist, hnone, List.nil_append]

/-- The same inside the body of the small circuit's main component: it is one of two bodies, and the
    only one that was started. -/
theorem Program.Visits.activation_bounded_relay :
    relayInside.registry.unbegun = 1 ∧
    (∀ (q : Request) (c : Computation), q.run relayInside ≠ .error .tooDeep c) ∧
    ∀ ids, Course .any (.start relay .diagnostic) ids ⟨[⟨0⟩], relayInside⟩ → ids = [⟨0⟩] := by
  obtain ⟨hends, -, -, -, -, -, hcourse⟩ := activation_bounded relay_visits
  refine ⟨by decide, fun q => (hends q _ (Nat.le_refl _)).2, fun ids h => ?_⟩
  rw [← (hcourse ids h).2.2.2.2 rfl]
  decide

end CircuitWitness
