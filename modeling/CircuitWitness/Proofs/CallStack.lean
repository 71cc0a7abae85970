import CircuitWitness.Proofs.Nesting
/-
  The discipline of the call stack.

  A body is begun in one place of the engine and ended in another, and in between it may fail at
  any depth.  Three records have to stay in step whatever happens: which component is active, which
  components are running, and the starts and ends in the trace.

  The bodies considered here give up at the first refusal they are told of (`Program.Strict`), as
  compiled bodies do.  Then a refusal of a request arises at one moment (`Program.Refuses`): where a
  body ends with it by itself, or where a request is refused that no body has failed for.  From
  there on nothing happens but returning, so what is open when the request comes back are the
  bodies that were on the stack at that moment.
-/

namespace CircuitWitness

open CircuitWitness.Action

variable {π : Policy} {α : Type}

/-- A program that ends with the first refusal it is told of. -/
def Program.Strict {α : Type} : Program (Except Refusal α) → Prop
  | .done _ => True
  | .ask _ next => (∀ e, next (.error e) = .done (.error e)) ∧ ∀ a, (next (.ok a)).Strict

/-- The bodies of a circuit end with the first refusal they are told of. -/
def Circuit.Strict (circuit : Circuit) : Prop :=
  ∀ body, circuit.Runs body → ∀ id, Program.Strict (body.program id)

/-- A program ends with a refusal, and the refusal arises at a moment. -/
inductive Program.Refuses : {α : Type} → Nat → Program (Except Refusal α) → Moment → Refusal →
    Moment → Prop
  /-- The program refuses by itself. -/
  | itself {α : Type} {levels : Nat} {m : Moment} {e : Refusal} :
      Refuses levels (.done (.error e : Except Refusal α)) m e m
  /-- It goes on after an answer. -/
  | later {α : Type} {levels : Nat} {q : Request}
      {next : Except Refusal q.Answer → Program (Except Refusal α)} {m m' : Moment} {a : q.Answer}
      {c : Computation} {e : Refusal} (h : q.perform (enterWithin levels) m.state = .ok a c)
      (hr : Refuses levels (next (.ok a)) ⟨m.stack, c⟩ e m') :
      Refuses levels (.ask q next) m e m'
  /-- A request is refused, and all bodies that it entered have returned. -/
  | request {α : Type} {levels : Nat} {q : Request}
      {next : Except Refusal q.Answer → Program (Except Refusal α)} {m : Moment}
      {c : Computation} {e : Refusal}
      (h : q.perform (enterWithin levels) m.state = .error (.refused e) c)
      (hown : ∀ x, Enters (enterWithin levels) (fun enter => q.perform enter) m.state x →
        ∃ s, x.Returns (enterWithin levels) s)
      (hnext : next (.error e) = .done (.error e)) :
      Refuses levels (.ask q next) m e ⟨m.stack, c⟩
  /-- A request is refused, because a body that it entered ends with the refusal. -/
  | inside {α : Type} {levels : Nat} {q : Request}
      {next : Except Refusal q.Answer → Program (Except Refusal α)} {m m' : Moment}
      {c : Computation} {e : Refusal} {x : Entry}
      (h : q.perform (enterWithin (levels + 1)) m.state = .error (.refused e) c)
      (hx : Enters (enterWithin (levels + 1)) (fun enter => q.perform enter) m.state x)
      (hr : Refuses levels (x.body.program x.id) ⟨x.id :: m.stack, x.state⟩ e m')
      (hnext : next (.error e) = .done (.error e)) : Refuses (levels + 1) (.ask q next) m e m'

/-! ## Components that are running -/

/-- A component that is running stays running until its body is ended as the innermost one. -/
theorem Step.running {m m' : Moment} (h : Step π m m') {id : Handle}
    (hrun : m.state.Running id) : m'.state.Running id ∨ m.stack = id :: m'.stack := by
  obtain ⟨r, hr, hs⟩ := Option.map_eq_some_iff.mp hrun
  -- A record may be put anywhere but in the place of the running one, and there if it runs.
  have hsets : ∀ {reg reg' : Registry} {other : Handle} {r' : Component},
      reg.Sets reg' other r' → reg.stage? id = some .running →
      (other = id → r'.stage = .running) → reg'.stage? id = some .running := by
    intro reg reg' other r' hsets hold hnew
    rw [Computation.stage?_sets hsets]
    by_cases he : other = id
    · rw [if_pos he, hnew he]
    · rw [if_neg he]
      exact hold
  have hsame : ∀ {other : Handle} {r' : Component}, m.state.registry.get? other = some r' →
      other = id → r'.stage = .running := by
    rintro other r' hr' rfl
    cases hr.symm.trans hr'
    exact hs
  have hmodify : ∀ {other : Handle} {r' : Component} (f : Component → Component),
      m.state.registry.get? other = some r' → (f r').stage = r'.stage →
      (m.state.registry.modify other f).stage? id = some .running := fun f hr' hf =>
    hsets (Registry.sets_modify hr' f) hrun fun he => hf.trans (hsame hr' he)
  cases h with
  | read | write | leave | assign | note => exact .inl hrun
  | keep hr' | count hq hr' | account hq hr' => exact .inl (hmodify _ hr' rfl)
  | input hq hi hw hr' => exact .inl (hmodify _ hr' rfl)
  | create ht hr' =>
    refine .inl (hsets (Registry.sets_create hr') hrun fun he => ?_)
    cases hr.symm.trans (he ▸ (Registry.create_ok hr').1)
  | createRun ht hr' =>
    have hnew := Registry.sets_create hr'
    exact .inl (hsets (hnew.trans (Registry.sets_modify hnew.self _)) hrun fun _ => rfl)
  | inputRun hq hi hw hr' | accountRun hq hr' =>
    have hnew := Registry.sets_modify hr' fun r => { r with pending := 0 }
    exact .inl (hsets (hnew.trans (Registry.sets_modify hnew.self _)) hrun fun _ => rfl)
  | trigger hb =>
    obtain ⟨r', hr', -⟩ := of_startable hb
    exact .inl (hsets (Registry.sets_modify hr' _) hrun fun _ => rfl)
  | @finish s c other =>
    by_cases he : other = id
    · exact .inr (he ▸ rfl)
    · cases hr' : c.registry.get? other with
      | some r' => exact .inl (hsets (Registry.sets_modify hr' _) hrun fun h => absurd h he)
      | none =>
        refine .inl ?_
        show ((c.registry.modify other _).get? id).map Component.stage = _
        rw [Registry.get?_modify, if_neg he]
        exact hrun
  | release hr' hf =>
    refine .inl (hsets (Registry.sets_modify hr' _) hrun fun he => ?_)
    have hrunning := hsame hr' he
    rw [hf] at hrunning
    cases hrunning

/-- The bodies on the stack are running, each once. -/
structure Moment.Busy (m : Moment) : Prop where
  running : ∀ id ∈ m.stack, m.state.Running id
  once : m.stack.Nodup

theorem Computation.Running.started {c : Computation} {id : Handle} (h : c.Running id) :
    c.Started id := Computation.started_iff.mpr ⟨.running, h, by simp⟩

theorem Step.busy {m m' : Moment} (h : Step π m m') (hm : m.Busy) : m'.Busy := by
  have hnotpop : ∀ id, m'.stack.length ≥ m.stack.length → m.stack ≠ id :: m'.stack := by
    intro id hle he
    rw [he, List.length_cons] at hle
    omega
  cases h.onStack with
  | same heq =>
    refine ⟨fun id hid => ?_, heq ▸ hm.once⟩
    exact (h.running (hm.running id (heq ▸ hid))).resolve_right (hnotpop id (by rw [heq]))
  | pop top heq =>
    have honce := hm.once
    rw [heq] at honce
    refine ⟨fun id hid => ?_, (List.nodup_cons.mp honce).2⟩
    refine (h.running (hm.running id (heq ▸ List.mem_cons_of_mem top hid))).resolve_right ?_
    rintro hpop
    rw [heq] at hpop
    cases hpop
    exact (List.nodup_cons.mp honce).1 hid
  | push top heq hnew hrun =>
    refine ⟨fun id hid => ?_, ?_⟩
    · rw [heq] at hid
      rcases List.mem_cons.mp hid with rfl | hid
      · exact hrun
      · refine (h.running (hm.running id hid)).resolve_right (hnotpop id ?_)
        rw [heq]
        exact Nat.le_succ _
    · rw [heq]
      exact List.nodup_cons.mpr ⟨fun hid => hnew (hm.running top hid).started, hm.once⟩

theorem Moment.busy_start (circuit : Circuit) (config : Config) :
    (Moment.start circuit config).Busy := ⟨by simp [Moment.start], List.nodup_nil⟩

/-- **A component that is running off the stack is running for ever.** -/
theorem Path.stuck {m m' : Moment} (h : Path π m m') {id : Handle} (hrun : m.state.Running id)
    (hid : id ∉ m.stack) : m'.state.Running id ∧ id ∉ m'.stack := by
  refine h.keeps (I := fun m' => m'.state.Running id ∧ id ∉ m'.stack) ?_ ⟨hrun, hid⟩
  rintro m₁ m₂ ⟨hrun, hid⟩ hs
  have hstay : m₂.state.Running id := (hs.running hrun).resolve_right fun he =>
    hid (he ▸ List.mem_cons_self ..)
  refine ⟨hstay, ?_⟩
  cases hs.onStack with
  | same heq => exact heq ▸ hid
  | pop top heq => exact fun hmem => hid (heq ▸ List.mem_cons_of_mem top hmem)
  | push top heq hnew =>
    rw [heq]
    rintro hmem
    rcases List.mem_cons.mp hmem with rfl | hmem
    · exact hnew hrun.started
    · exact hid hmem

/-! ## Strict programs -/

/-- A body returns exactly if its program ends without a refusal. -/
theorem Entry.returns_iff {levels : Nat} {x : Entry} {c : Computation} :
    x.Returns (enterWithin (levels + 1)) c ↔
      (x.body.program x.id).runWith (enterWithin levels) x.state = .ok (.ok ()) c := by
  show ((x.body.program x.id).runWith (enterWithin levels) >>= _ : Action Unit) x.state = _ ↔ _
  cases hr : (x.body.program x.id).runWith (enterWithin levels) x.state with
  | error f d => rw [bind_error hr]; simp
  | ok res d =>
    rw [bind_ok hr]
    cases res with
    | ok u => exact ⟨fun h => (by cases h; rfl), fun h => (by cases h; rfl)⟩
    | error e => exact ⟨fun h => (by cases h), fun h => (by cases h)⟩

/-- A program never fails with a refusal: it is told of those, and ends with one. -/
theorem Program.runWith_ne_refused {enter : Enter} (p : Program α) (c : Computation) (e : Refusal)
    (c' : Computation) : p.runWith enter c ≠ .error (.refused e) c' := by
  induction p generalizing c with
  | done a => exact fun h => by cases h
  | ask q next ih =>
    intro hrun
    cases hr : q.perform enter c with
    | ok a d => exact ih (.ok a) d ((runWith_answered hr).symm.trans hrun)
    | error f d =>
      cases f with
      | refused e' => exact ih (.error e') d ((runWith_refused hr).symm.trans hrun)
      | outOfRange | tooDeep =>
        cases (runWith_lost hr fun e => by simp).symm.trans hrun

/-- A body fails with a refusal exactly if its program ends with that. -/
theorem Entry.fails_iff {levels : Nat} {x : Entry} {e : Refusal} {c : Computation} :
    x.Fails (enterWithin (levels + 1)) (.refused e) c ↔
      (x.body.program x.id).runWith (enterWithin levels) x.state = .ok (.error e) c := by
  show ((x.body.program x.id).runWith (enterWithin levels) >>= _ : Action Unit) x.state = _ ↔ _
  cases hr : (x.body.program x.id).runWith (enterWithin levels) x.state with
  | error f d =>
    rw [bind_error hr]
    refine ⟨fun h => ?_, fun h => by cases h⟩
    cases h
    exact absurd hr (Program.runWith_ne_refused _ _ _ _)
  | ok res d =>
    rw [bind_ok hr]
    cases res with
    | ok u => exact ⟨fun h => (by cases h), fun h => (by cases h)⟩
    | error e' => exact ⟨fun h => (by cases h; rfl), fun h => (by cases h; rfl)⟩

/-- What is open when a program ends with a refusal: the bodies that were on the stack when it
    arose, above those that were there before.  Nothing has happened since but returning. -/
structure Unwound (m m' : Moment) (c : Computation) (opened : List Handle) : Prop where
  stack : m'.stack = opened ++ m.stack
  state : c = m'.state.left m.state.active
  opens : m.state.Opens c opened

/-- What is to be known of the bodies that are entered with so many levels: one that returns leaves
    nothing open, and one that fails with a refusal is unwound from where that arose. -/
def BodiesUnwind (circuit : Circuit) (levels : Nat) : Prop :=
  ∀ (x : Entry) (s : List Handle), Moment.Upright ⟨x.id :: s, x.state⟩ →
    x.state.circuit = circuit → circuit.Runs x.body →
    (∀ c, x.Returns (enterWithin levels) c → x.state.Opens c []) ∧
    ∀ e c, x.Fails (enterWithin levels) (.refused e) c → ∃ k m' opened, levels = k + 1 ∧
      (x.body.program x.id).Refuses k ⟨x.id :: s, x.state⟩ e m' ∧
      Unwound ⟨x.id :: s, x.state⟩ m' c opened

section Unwinding

variable {circuit : Circuit} {levels : Nat} {m : Moment}

/-- A request that succeeds leaves nothing open. -/
theorem BodiesUnwind.answered (hin : BodiesUnwind circuit levels) (q : Request) (hup : m.Upright)
    (hc : m.state.circuit = circuit) {a : q.Answer} {c : Computation}
    (h : q.perform (enterWithin levels) m.state = .ok a c) : m.state.Opens c [] := by
  refine (q.schematic.opens (enterWithin levels) m.state fun x s hx hs => ?_).1 a c h
  obtain ⟨hpx, hstarts⟩ := (Request.follows_any levels q hup).2 x hx
  exact (hin x m.stack (hpx.upright hup) (hpx.circuit_eq.1.trans hc) (hc ▸ hstarts.runs)).1 s hs

/-- A request that is refused is unwound from where the refusal arose. -/
theorem BodiesUnwind.refused (hin : BodiesUnwind circuit levels) (q : Request) (hup : m.Upright)
    (hc : m.state.circuit = circuit) {e : Refusal} {c : Computation}
    (h : q.perform (enterWithin levels) m.state = .error (.refused e) c)
    {next : Except Refusal q.Answer → Program (Except Refusal α)}
    (hnext : next (.error e) = .done (.error e)) :
    ∃ m' opened, (Program.ask q next).Refuses levels m e m' ∧ Unwound m m' c opened := by
  have hbody : ∀ x, Enters (enterWithin levels) (fun enter => q.perform enter) m.state x → _ :=
    fun x hx => by
      obtain ⟨hpx, hstarts⟩ := (Request.follows_any levels q hup).2 x hx
      exact hin x m.stack (hpx.upright hup) (hpx.circuit_eq.1.trans hc) (hc ▸ hstarts.runs)
  obtain ⟨hown, hpassed⟩ := (q.schematic.opens (enterWithin levels) m.state
    fun x s hx hs => (hbody x hx).1 s hs).2 _ c h
  have hactive := q.schematic.active_eq (enterWithin levels) m.state
  rw [after_error h] at hactive
  rcases (q.schematic.outcome (enterWithin levels) m.state).2 _ c h with
    ⟨-, hall⟩ | ⟨x, s, hx, hfail⟩
  · -- All bodies have returned, so the refusal arises here.
    refine ⟨⟨m.stack, c⟩, [], .request h hall hnext, rfl, ?_, hown hall⟩
    show c = { c with active := m.state.active }
    rw [← hactive]
  · -- A body fails, and the refusal arises where that body was unwound from.
    obtain ⟨k, m', opened, rfl, hrefuses, hunwound⟩ := (hbody x hx).2 e s hfail
    obtain ⟨hc', hopens⟩ := hpassed x _ s hx hfail
    refine ⟨m', opened ++ [x.id], .inside h hx hrefuses hnext, ?_, ?_,
      hopens opened hunwound.opens⟩
    · rw [hunwound.stack, List.append_assoc]
      rfl
    · rw [hc', hunwound.state]
      rfl

/-- A strict program that ends well leaves nothing open, and one that ends with a refusal is unwound
    from where that arose. -/
theorem Program.Strict.unwind (hin : BodiesUnwind circuit levels)
    {p : Program (Except Refusal α)} (hp : p.Strict) (hup : m.Upright)
    (hc : m.state.circuit = circuit) :
    (∀ a c, p.runWith (enterWithin levels) m.state = .ok (.ok a) c → m.state.Opens c []) ∧
    ∀ e c, p.runWith (enterWithin levels) m.state = .ok (.error e) c →
      ∃ m' opened, p.Refuses levels m e m' ∧ Unwound m m' c opened := by
  induction p generalizing m with
  | done res =>
    constructor
    · intro a c hrun
      cases hrun
      exact .refl _
    · intro e c hrun
      cases hrun
      exact ⟨m, [], .itself, rfl, rfl, .refl _⟩
  | ask q next ih =>
    have hpath := (Request.follows_any levels q hup).1
    have hactive := q.schematic.active_eq (enterWithin levels) m.state
    cases hr : q.perform (enterWithin levels) m.state with
    | ok b c₁ =>
      rw [after_ok hr] at hpath hactive
      have hfirst := hin.answered q hup hc hr
      obtain ⟨hok, herr⟩ := ih (.ok b) (hp.2 b) (m := ⟨m.stack, c₁⟩) (hpath.upright hup)
        (hpath.circuit_eq.1.trans hc)
      refine ⟨fun a c hrun => hfirst.trans (hok a c ((runWith_answered hr).symm.trans hrun)),
        fun e c hrun => ?_⟩
      obtain ⟨m', opened, hrefuses, hunwound⟩ := herr e c ((runWith_answered hr).symm.trans hrun)
      refine ⟨m', opened, .later hr hrefuses, hunwound.stack, ?_, hfirst.trans hunwound.opens⟩
      rw [← hactive]
      exact hunwound.state
    | error f c₁ =>
      cases f with
      | refused e₁ =>
        have hend : (Program.ask q next).runWith (enterWithin levels) m.state
            = .ok (.error e₁) c₁ := by
          rw [runWith_refused hr, hp.1 e₁]
          rfl
        constructor
        · intro a c hrun
          cases hend.symm.trans hrun
        · intro e c hrun
          cases hend.symm.trans hrun
          exact hin.refused q hup hc hr (hp.1 e₁)
      | outOfRange | tooDeep =>
        have hlost : (Program.ask q next).runWith (enterWithin levels) m.state = _ :=
          runWith_lost hr fun e => by simp
        exact ⟨fun a c hrun => (by cases hlost.symm.trans hrun),
          fun e c hrun => (by cases hlost.symm.trans hrun)⟩

/-- **Bodies of a strict circuit unwind**, by induction on the levels below them. -/
theorem Circuit.Strict.unwind (hstrict : circuit.Strict) (levels : Nat) :
    BodiesUnwind circuit levels := by
  induction levels with
  | zero => exact fun x s _ _ _ => ⟨fun c h => (by cases h), fun e c h => (by cases h)⟩
  | succ levels ih =>
    intro x s hup hc hruns
    obtain ⟨hok, herr⟩ := (hstrict x.body hruns x.id).unwind ih hup hc
    refine ⟨fun c h => hok () c (Entry.returns_iff.mp h), fun e c h => ?_⟩
    obtain ⟨m', opened, hrefuses, hunwound⟩ := herr e c (Entry.fails_iff.mp h)
    exact ⟨levels, m', opened, rfl, hrefuses, hunwound⟩

end Unwinding

/-- **The discipline of the call stack.**  A program acts on a circuit from the start with the trace
    switched on, by any requests, and the bodies end with the first refusal they are told of.  Then
    at every moment of the run

    * the innermost body on the stack is the one that is active, and none is active outside bodies;
    * after a request the same body is active as before, whether it was answered or refused;
    * if a request is answered, the starts and ends that it added to the trace are nested with
      nothing open, and the same components are running as before;
    * if it is refused, the refusal arose at one moment, and nothing has happened since but
      returning.  The starts and ends that were added are nested, and what they leave open are
      the bodies that were on the stack at that moment above those that had been there before.
      These are the components that are running now and were not before, and they are running at
      every later moment, with no body of theirs on the stack. -/
theorem Program.Visits.call_stack {levels : Nat} {p : Program α} {circuit : Circuit}
    {config : Config} {m : Moment} {next : Option Request} (hon : config.recordTrace = true)
    (hstrict : circuit.Strict) (hv : p.Visits levels (.start circuit config) next m) :
    m.state.active = m.stack.head? ∧
    ∀ (q : Request) (below : Nat),
      ((q.perform (enterWithin below)).after m.state).active = m.state.active ∧
      (∀ a c, q.perform (enterWithin below) m.state = .ok a c → ∃ block,
        c.trace.toList = m.state.trace.toList ++ block ∧ nested [] block = some [] ∧
        ∀ id, c.Running id ↔ m.state.Running id) ∧
      ∀ e c, q.perform (enterWithin below) m.state = .error (.refused e) c →
        ∃ block opened m', (Program.ask q .done).Refuses below m e m' ∧
          m'.stack = opened ++ m.stack ∧ c = m'.state.left m.state.active ∧
          c.trace.toList = m.state.trace.toList ++ block ∧ nested [] block = some opened ∧
          opened.Nodup ∧ (∀ id, c.Running id ↔ m.state.Running id ∨ id ∈ opened) ∧
          (∀ id ∈ opened, ¬ m.state.Running id) ∧
          ∀ m'', Path .any ⟨m.stack, c⟩ m'' → ∀ id ∈ opened,
            m''.state.Running id ∧ id ∉ m''.stack := by
  have hpath : Path .any (.start circuit config) m :=
    (Program.path_of_visits levels p _ (Moment.upright_start circuit config)
      fun _ _ _ => trivial).2 next m hv
  have hup : m.Upright := hpath.upright (Moment.upright_start circuit config)
  have hc : m.state.circuit = circuit := hpath.circuit_eq.1
  have hbusy : m.Busy := hpath.keeps (fun _ _ hi hs => hs.busy hi)
    (Moment.busy_start circuit config)
  have hen : m.state.trace.enabled = true := by
    obtain ⟨ids, hcourse⟩ := hpath.course
    exact (hcourse.trace (Moment.starts_start circuit hon).1).1
  refine ⟨hup, fun q below => ⟨q.schematic.active_eq _ _, fun a c h => ?_, fun e c h => ?_⟩⟩
  · obtain ⟨⟨block, hx, hnested⟩, hrun, -⟩ := (hstrict.unwind below).answered q hup hc h
    exact ⟨block, (hx hen).2, hnested [], fun id => by simpa using hrun id⟩
  · have hdone : (Program.done (.error e) : Program (Except Refusal q.Answer))
        = .done (.error e) := rfl
    obtain ⟨m', opened, hrefuses, hstack, hstate, hopens⟩ :=
      (hstrict.unwind below).refused q hup hc h hdone
    obtain ⟨⟨block, hx, hnested⟩, hrun, hfresh, hnodup⟩ := hopens
    refine ⟨block, opened, m', hrefuses, hstack, hstate, (hx hen).2, ?_, hnodup, hrun, hfresh,
      fun m'' hlater id hid => ?_⟩
    · have hnone := hnested []
      rwa [List.append_nil] at hnone
    · -- What is running on the stack was running before, so none of the opened is there.
      exact hlater.stuck ((hrun id).mpr (.inr hid)) fun hmem =>
        hfresh id hid (hbusy.running id hmem)

theorem relay_strict : relay.Strict := by
  rintro body ⟨⟨i⟩, prefer, h⟩ id
  match i, h with
  | 0, h | 1, h => cases prefer <;> cases h <;> exact ⟨fun _ => rfl, fun _ => trivial⟩
  | i + 2, h => cases h

/-- The small circuit, where the handle of the child is in use before the main component runs. -/
def relayTaken : Program Unit := .ask (.create ⟨1⟩ ⟨0⟩ 1 "spare" none) fun _ => relayProgram

/-- The component that has the handle was created, and waits for its inputs. -/
def relaySpared : Computation :=
  (create (enterWithin 2) ⟨1⟩ ⟨0⟩ 1 "spare" none).after (.start relay .diagnostic)

/-- The main component is created. -/
def relayOpened : Computation :=
  (create (enterWithin 2) ⟨0⟩ ⟨0⟩ 1 "main" none).after relaySpared

/-- It has one of its inputs. -/
def relayPending : Computation := (writeInput (enterWithin 2) ⟨0⟩ 1 5).after relayOpened

/-- It has its second input, and its body begins. -/
def relayBegun : Computation := ((relayPending.wrote 3 7).arrived ⟨0⟩ 3 0).begun ⟨0⟩

/-- Its body has failed. -/
def relayStuck : Computation := (relayBegun.kept ⟨0⟩ 0 ⟨1⟩).left none

/-- The same where the main component of the small circuit fails, since it cannot create its child:
    no body is active then, and the main component is running for ever. -/
theorem Program.Visits.call_stack_relay :
    (Request.writeInput ⟨0⟩ 2 7).perform (enterWithin 2) relayPending
      = .error (.refused (.graphDefect ⟨1⟩ "spare" .duplicateComponent)) relayStuck ∧
    relayStuck.active = none ∧
    ∀ m'', Path .any ⟨[], relayStuck⟩ m'' → m''.state.Running ⟨0⟩ := by
  have hv : relayTaken.Visits 2 (.start relay .diagnostic) (some (.writeInput ⟨0⟩ 2 7))
      ⟨[], relayPending⟩ :=
    .answered (c := relaySpared) rfl (.answered (c := relayOpened) rfl
      (.answered (c := relayPending) rfl .asks))
  have hbody : Entry.Fails (enterWithin 2) ⟨relayBody, ⟨0⟩, relayBegun⟩
      (.refused (.graphDefect ⟨1⟩ "spare" .duplicateComponent)) (relayBegun.kept ⟨0⟩ 0 ⟨1⟩) :=
    Entry.fails_iff.mpr (runWith_refused rfl)
  have hfails : (Request.writeInput ⟨0⟩ 2 7).perform (enterWithin 2) relayPending
      = .error (.refused (.graphDefect ⟨1⟩ "spare" .duplicateComponent)) relayStuck :=
    (writeInput_eq rfl rfl).trans ((arrive_last rfl rfl).trans ((trigger_eq rfl).trans
      (runBody_error hbody)))
  obtain ⟨hactive, -, hrefused⟩ := (call_stack rfl relay_strict hv).2 (.writeInput ⟨0⟩ 2 7) 2
  rw [after_error hfails] at hactive
  obtain ⟨block, opened, m', -, -, -, -, -, -, hrun, -, hever⟩ := hrefused _ _ hfails
  refine ⟨hfails, hactive, fun m'' hlater => (hever m'' hlater ⟨0⟩ ?_).1⟩
  have hnow : relayStuck.Running ⟨0⟩ := rfl
  have hbefore : ¬ relayPending.Running ⟨0⟩ := by
    unfold Computation.Running
    decide
  exact ((hrun ⟨0⟩).mp hnow).resolve_left hbefore

end CircuitWitness
