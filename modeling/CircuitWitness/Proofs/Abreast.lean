import CircuitWitness.Proofs.CallStack
/-
  Two runs of one program, side by side.

  The runs start in two states that are related in some way.  They go abreast if they stay so: at
  every step the states are related, a request is answered in the same way in both, and a body that
  the request enters in one run it enters in the other too, in states from which the body goes
  abreast in its turn.  `Program.Abreast` says this by recursion, first on the levels of bodies and
  then on the program, the way runs are defined themselves.

  A `Likeness` is a relation on states that the plain changes of the engine preserve.  From this
  alone it follows that operations that are woven of them preserve it as well (`Woven.meets`), and
  then, for two runs of one program that start alike, that they go abreast (`Likeness.abreast`).
  Whoever compares two runs owes the laws of the relation and a word on the requests that look at
  more than the bare state.

  What may be asked of a run can depend on the states in which it is asked: `Program.Along` says
  that all requests of a run have some property, those of the bodies included.
-/

namespace CircuitWitness

open CircuitWitness.Action

variable {R : Computation → Computation → Prop} {α β : Type} {enter : Enter} {levels : Nat}
  {c c' : Computation}

/-! ## Registries -/

namespace Registry

/-- What is refused a handle depends on the handles in use. -/
theorem create_refused {reg reg' : Registry} {id : Handle} {r : Component} {d : GraphDefect}
    (hcapacity : reg.capacity = reg'.capacity)
    (hused : (reg.get? id).isSome = (reg'.get? id).isSome) (h : reg.create id r = .error d) :
    reg'.create id r = .error d := by
  unfold create at h ⊢
  rw [← hcapacity, ← hused]
  by_cases hcap : reg.capacity ≤ id.index
  · rw [if_pos hcap] at h ⊢
    exact h
  · rw [if_neg hcap] at h ⊢
    by_cases hsome : (reg.get? id).isSome = true
    · rw [if_pos hsome] at h ⊢
      exact h
    · rw [if_neg hsome] at h
      cases h

end Registry

/-! ## Results -/

/-- Two results that answer or fail alike, in states that are related. -/
inductive Agree (R : Computation → Computation → Prop) {α : Type} :
    EStateM.Result Fault Computation α → EStateM.Result Fault Computation α → Prop
  | ok {a : α} {c c' : Computation} (h : R c c') : Agree R (.ok a c) (.ok a c')
  | error {f : Fault} {c c' : Computation} (h : R c c') : Agree R (.error f c) (.error f c')

namespace Agree

variable {x x' : Action α}

theorem bind {f f' : α → Action β} (hx : Agree R (x c) (x' c'))
    (hf : ∀ a d d', x c = .ok a d → x' c' = .ok a d' → R d d' → Agree R (f a d) (f' a d')) :
    Agree R ((x >>= f) c) ((x' >>= f') c') := by
  generalize hr : x c = r, hr' : x' c' = r' at hx
  cases hx with
  | ok h =>
    rw [bind_ok hr, bind_ok hr']
    exact hf _ _ _ hr hr' h
  | error h =>
    rw [bind_error hr, bind_error hr']
    exact .error h

theorem after (h : Agree R (x c) (x' c')) : R (x.after c) (x'.after c') := by
  unfold Action.after
  generalize x c = r, x' c' = r' at h
  cases h with
  | ok h | error h => exact h

theorem of_ok {a : α} {d : Computation} (h : Agree R (x c) (x' c')) (hr : x c = .ok a d) :
    ∃ d', x' c' = .ok a d' ∧ R d d' := by
  rw [hr] at h
  generalize x' c' = r' at h
  cases h with
  | ok h => exact ⟨_, rfl, h⟩

theorem of_error {f : Fault} {d : Computation} (h : Agree R (x c) (x' c'))
    (hr : x c = .error f d) : ∃ d', x' c' = .error f d' ∧ R d d' := by
  rw [hr] at h
  generalize x' c' = r' at h
  cases h with
  | error h => exact ⟨_, rfl, h⟩

/-- A look that finds the same in both states. -/
theorem look {f : Computation → Except Refusal α} (hR : R c c') (hsame : f c = f c') :
    Agree R (Action.look f c) (Action.look f c') := by
  cases hr : f c with
  | ok a => rw [look_ok hr, look_ok (hsame ▸ hr)]; exact .ok hR
  | error e => rw [look_error hr, look_error (hsame ▸ hr)]; exact .error hR

end Agree

/-! ## Runs -/

/-- An action in two states: it ends alike, and the bodies that it enters are the same in both, in
    states of which something is known. -/
structure Meet (R : Computation → Computation → Prop) (below : Entry → Computation → Prop)
    (enter : Enter) (act : Enter → Action α) (c c' : Computation) : Prop where
  agree : Agree R (act enter c) (act enter c')
  left : ∀ x, Enters enter act c x →
    ∃ d', Enters enter act c' { x with state := d' } ∧ below x d'
  right : ∀ x', Enters enter act c' x' →
    ∃ d, Enters enter act c { x' with state := d } ∧ below { x' with state := d } x'.state

/-- Two runs of a program, given what is to be known of the bodies that they enter. -/
def Program.AbreastWith (R : Computation → Computation → Prop)
    (below : Entry → Computation → Prop) (enter : Enter) :
    Program α → Computation → Computation → Prop
  | .done _, c, c' => R c c'
  | .ask q next, c, c' =>
    R c c' ∧ Meet R below enter (fun enter => q.perform enter) c c' ∧
      (∀ a d d', q.perform enter c = .ok a d → q.perform enter c' = .ok a d' →
        (next (.ok a)).AbreastWith R below enter d d') ∧
      ∀ e d d', q.perform enter c = .error (.refused e) d →
        q.perform enter c' = .error (.refused e) d' →
        (next (.error e)).AbreastWith R below enter d d'

/-- Two runs of a body, with so many levels of bodies at hand. -/
def Entry.Abreast (R : Computation → Computation → Prop) : Nat → Entry → Computation → Prop
  | 0, x, d' => R x.state d'
  | levels + 1, x, d' =>
    (x.body.program x.id).AbreastWith R (Entry.Abreast R levels) (enterWithin levels) x.state d'

/-- Two runs of a program go abreast: at every step, and at every step of the bodies that are
    entered, the states are related and the same is answered. -/
def Program.Abreast (R : Computation → Computation → Prop) (levels : Nat) (p : Program α)
    (c c' : Computation) : Prop :=
  p.AbreastWith R (Entry.Abreast R levels) (enterWithin levels) c c'

theorem Meet.mono {below below' : Entry → Computation → Prop} {act : Enter → Action α}
    (h : Meet R below enter act c c')
    (hbelow : ∀ x d', Enters enter act c x → below x d' → below' x d') :
    Meet R below' enter act c c' := by
  refine ⟨h.agree, fun x hx => ?_, fun x' hx' => ?_⟩
  · obtain ⟨d', hd', hb⟩ := h.left x hx
    exact ⟨d', hd', hbelow x d' hx hb⟩
  · obtain ⟨d, hd, hb⟩ := h.right x' hx'
    exact ⟨d, hd, hbelow _ _ hd hb⟩

/-- An action that does in a state what another one does in a second state enters the same
    bodies. -/
theorem Enters.congr {act act' : Enter → Action α} {x : Entry}
    (h : ∀ enter, act enter c = act' enter c') : Enters enter act c x ↔ Enters enter act' c' x := by
  unfold Enters
  simp only [h]

/-- An action that does in each state what another action does in a second one. -/
theorem Meet.congr {below : Entry → Computation → Prop} {act act' : Enter → Action α}
    {c₁ c₁' : Computation} (h : ∀ enter, act enter c = act' enter c₁)
    (h' : ∀ enter, act enter c' = act' enter c₁') (hmeet : Meet R below enter act' c₁ c₁') :
    Meet R below enter act c c' := by
  refine ⟨?_, fun x hx => ?_, fun x hx => ?_⟩
  · rw [h, h']
    exact hmeet.agree
  · obtain ⟨d', hd', hb⟩ := hmeet.left x ((Enters.congr h).mp hx)
    exact ⟨d', (Enters.congr h').mpr hd', hb⟩
  · obtain ⟨d, hd, hb⟩ := hmeet.right x ((Enters.congr h').mp hx)
    exact ⟨d, (Enters.congr h).mpr hd, hb⟩

/-- Whatever moment the first run comes by, the second one comes by a moment that is like it. -/
theorem Program.Abreast.visits {p : Program α} {m m' : Moment} {next : Option Request}
    (hv : p.Visits levels m next m') :
    ∀ {c' : Computation}, p.Abreast R levels m.state c' →
      ∃ d', R m'.state d' ∧ p.Visits levels ⟨m.stack, c'⟩ next ⟨m'.stack, d'⟩ := by
  induction hv with
  | done => exact fun h => ⟨_, h, .done⟩
  | asks => exact fun h => ⟨_, h.1, .asks⟩
  | answered hr _ ih =>
    rintro c' ⟨-, hmeet, hok, -⟩
    obtain ⟨d', hr', -⟩ := hmeet.agree.of_ok hr
    obtain ⟨e', hR, hv'⟩ := ih (hok _ _ _ hr hr')
    exact ⟨e', hR, .answered hr' hv'⟩
  | refused hr _ ih =>
    rintro c' ⟨-, hmeet, -, hrefused⟩
    obtain ⟨d', hr', -⟩ := hmeet.agree.of_error hr
    obtain ⟨e', hR, hv'⟩ := ih (hrefused _ _ _ hr hr')
    exact ⟨e', hR, .refused hr' hv'⟩
  | lost hr hf =>
    rintro c' ⟨-, hmeet, -, -⟩
    obtain ⟨d', hr', hR⟩ := hmeet.agree.of_error hr
    exact ⟨d', hR, .lost hr' hf⟩
  | inside hx _ ih =>
    rintro c' ⟨-, hmeet, -, -⟩
    obtain ⟨d', hx', hbelow⟩ := hmeet.left _ hx
    obtain ⟨e', hR, hv'⟩ := ih hbelow
    exact ⟨e', hR, .inside hx' hv'⟩

/-! ### Requests along one run -/

/-- All requests of a run, those of the bodies included, have a property that may depend on the
    levels of bodies at hand and on the state. -/
inductive Program.Along (P : Nat → Request → Computation → Prop) :
    {α : Type} → Nat → Program α → Computation → Prop
  | done {α : Type} {levels : Nat} {a : α} {c : Computation} : Along P levels (.done a) c
  | ask {α : Type} {levels : Nat} {q : Request} {next : Except Refusal q.Answer → Program α}
      {c : Computation} (now : P levels q c)
      (answered : ∀ a d, q.perform (enterWithin levels) c = .ok a d →
        Along P levels (next (.ok a)) d)
      (refused : ∀ e d, q.perform (enterWithin levels) c = .error (.refused e) d →
        Along P levels (next (.error e)) d)
      (inside : ∀ k x, levels = k + 1 →
        Enters (enterWithin levels) (fun enter => q.perform enter) c x →
        Along P k (x.body.program x.id) x.state) : Along P levels (.ask q next) c

/-- What holds of the requests at all moments of a run holds along it. -/
theorem Program.along_of_visits {P : Request → Computation → Prop} (levels : Nat) :
    ∀ {α : Type} (p : Program α) (m : Moment),
      (∀ q m', p.Visits levels m (some q) m' → P q m'.state) →
      p.Along (fun _ => P) levels m.state := by
  induction levels using Nat.strong_induction_on with
  | _ levels ihlevels =>
    intro α p
    induction p with
    | done => exact fun _ _ => .done
    | ask q next ih =>
      intro m hall
      refine .ask (hall q m .asks) (fun a d hr => ?_) (fun e d hr => ?_) fun k x hk hx => ?_
      · exact ih (.ok a) ⟨m.stack, d⟩ fun q' m' hv => hall q' m' (.answered hr hv)
      · exact ih (.error e) ⟨m.stack, d⟩ fun q' m' hv => hall q' m' (.refused hr hv)
      · subst hk
        exact ihlevels k (Nat.lt_succ_self k) (x.body.program x.id) ⟨x.id :: m.stack, x.state⟩
          fun q' m' hv => hall q' m' (.inside hx hv)

theorem Program.Along.now {P : Nat → Request → Computation → Prop} {q : Request}
    {next : Except Refusal q.Answer → Program α} (h : (Program.ask q next).Along P levels c) :
    P levels q c := by
  cases h with
  | ask now => exact now

/-- What follows for a program of one request follows along every run. -/
theorem Program.Along.imp {P P' : Nat → Request → Computation → Prop}
    (himp : ∀ {levels : Nat} {q : Request} {c : Computation},
      (Program.ask q .done).Along P levels c → P' levels q c) {p : Program α}
    (h : p.Along P levels c) : p.Along P' levels c := by
  induction h with
  | done => exact .done
  | ask now _ _ inside ihanswered ihrefused ihinside =>
    exact .ask (himp (.ask now (fun _ _ _ => .done) (fun _ _ _ => .done) inside)) ihanswered
      ihrefused ihinside

/-! ## Likeness -/

/-- A relation on states that the plain changes of the engine preserve. -/
structure Likeness where
  Alike : Computation → Computation → Prop
  /-- The states differ in nothing that a plain look sees. -/
  bare : ∀ {c c' : Computation}, Alike c c' → c.bare = c'.bare
  startable : ∀ {c c' : Computation}, Alike c c' → ∀ id, c.startable id = c'.startable id
  recorded : ∀ {c c' : Computation}, Alike c c' → ∀ {e : Event}, (∀ i w, e ≠ .signalRead i w) →
    Alike (c.recorded e) (c'.recorded e)
  stored : ∀ {c c' : Computation}, Alike c c' → ∀ i v,
    Alike { c with store := c.store.write i v } { c' with store := c'.store.write i v }
  counted : ∀ {c c' : Computation}, Alike c c' → ∀ id n, Alike (c.counted id n) (c'.counted id n)
  enrolled : ∀ {c c' : Computation}, Alike c c' → ∀ {id : Handle} {t : TemplateId}
    {start inputs slots : Nat} {label : String} {parent : Option Handle} {reg reg' : Registry},
    c.registry.create id (.fresh t start inputs slots label parent) = .ok reg →
    c'.registry.create id (.fresh t start inputs slots label parent) = .ok reg' →
    Alike { c with registry := reg } { c' with registry := reg' }
  dropped : ∀ {c c' : Computation}, Alike c c' → ∀ {id : Handle},
    c.registry.stage? id = some .finished → Alike (c.dropped id) (c'.dropped id)
  awaiting : ∀ {c c' : Computation}, Alike c c' → ∀ n,
    Alike { c with pendingInputs := n } { c' with pendingInputs := n }
  noted : ∀ {c c' : Computation}, Alike c c' → ∀ n, Alike (c.noted n) (c'.noted n)
  begun : ∀ {c c' : Computation}, Alike c c' → ∀ {id : Handle},
    c.registry.stage? id = some .created → Alike (c.begun id) (c'.begun id)
  ended : ∀ {c c' : Computation}, Alike c c' → ∀ {id : Handle}, c.Running id → ∀ caller,
    Alike (c.ended id caller) (c'.ended id caller)
  left : ∀ {c c' : Computation}, Alike c c' → ∀ caller, Alike (c.left caller) (c'.left caller)

namespace Likeness

variable {L : Likeness}

/-- A plain look sees the same in both states. -/
theorem look_eq (hc : L.Alike c c') {f : Computation → α} (hf : ∀ c : Computation, f c.bare = f c) :
    f c = f c' := by
  rw [← hf c, ← hf c', L.bare hc]

theorem stage?_eq (hc : L.Alike c c') (id : Handle) :
    c.registry.stage? id = c'.registry.stage? id :=
  L.look_eq hc (f := fun c => c.registry.stage? id) fun _ =>
    Registry.stage?_map (f := Component.bare) (fun _ => rfl) id

theorem defect_eq (hc : L.Alike c c') (id : Handle) (d : GraphDefect) :
    c.defect id d = c'.defect id d :=
  L.look_eq hc (f := fun c => c.defect id d) fun c => c.defect_bare id d

/-- A component is found in both states or in none, at the same stage. -/
theorem get?_eq (hc : L.Alike c c') (id : Handle) :
    (c.registry.get? id).map Component.bare = (c'.registry.get? id).map Component.bare := by
  have hsame := congrArg (fun c => c.registry.get? id) (L.bare hc)
  simpa [Computation.bare] using hsame

/-- A new component is entered in both states or refused in both. -/
theorem enroll (hc : L.Alike c c') (id : Handle) (t : TemplateId) (start inputs slots : Nat)
    (label : String) (parent : Option Handle) :
    Agree L.Alike (enroll id (.fresh t start inputs slots label parent) c)
      (enroll id (.fresh t start inputs slots label parent) c') := by
  have hcapacity : c.registry.capacity = c'.registry.capacity :=
    L.look_eq hc (f := fun c => c.registry.capacity) fun _ => Registry.capacity_map
  have hused : (c.registry.get? id).isSome = (c'.registry.get? id).isSome := by
    simpa using congrArg Option.isSome (L.get?_eq hc id)
  unfold Action.enroll
  cases hr : c.registry.create id (.fresh t start inputs slots label parent) with
  | ok reg =>
    obtain ⟨hfree, hid, -⟩ := Registry.create_ok hr
    have hfree' : c'.registry.get? id = none := by simpa [hfree] using hused.symm
    have hr' := Registry.create_of_free (.fresh t start inputs slots label parent) hfree'
      (hcapacity ▸ hid)
    rw [hr']
    exact .ok (L.enrolled hc hr hr')
  | error d =>
    rw [Registry.create_refused hcapacity hused hr]
    show Agree L.Alike (.error (.refused (c.defect id d)) c) (.error (.refused (c'.defect id d)) c')
    rw [L.defect_eq hc]
    exact .error hc

/-- A component is released in both states or in none. -/
theorem release (hc : L.Alike c c') (child : Option Handle) :
    Agree L.Alike (release child c) (release child c') := by
  cases child with
  | none => exact .ok hc
  | some id =>
    have hstage := L.stage?_eq hc id
    unfold Registry.stage? at hstage
    cases hr : c.registry.get? id with
    | none =>
      have hr' : c'.registry.get? id = none := by simpa [hr] using hstage.symm
      rw [release_unknown hr, release_unknown hr', L.defect_eq hc]
      exact .error hc
    | some r =>
      rw [hr] at hstage
      obtain ⟨r', hr', hs'⟩ := Option.map_eq_some_iff.mp hstage.symm
      cases hs : r.stage with
      | created =>
        rw [release_early hr (.inl hs), release_early hr' (.inl (hs'.trans hs)), hs',
          L.defect_eq hc]
        exact .error hc
      | running =>
        rw [release_early hr (.inr hs), release_early hr' (.inr (hs'.trans hs)), hs',
          L.defect_eq hc]
        exact .error hc
      | finished =>
        rw [release_ok hr hs, release_ok hr' (hs'.trans hs)]
        exact .ok (L.dropped hc (Registry.stage?_eq_some.mpr ⟨r, hr, hs⟩))
      | released =>
        rw [release_again hr hs, release_again hr' (hs'.trans hs)]
        exact .ok hc

end Likeness

/-- **Plain steps preserve likeness**, and they give the same answers. -/
theorem Plain.agree {L : Likeness} {act : Action α} (h : Plain act) (hc : L.Alike c c') :
    Agree L.Alike (act c) (act c') := by
  cases h with
  | look hf => exact .look hc (L.look_eq hc hf)
  | @inRange _ f hf =>
    have hsame := L.look_eq hc hf
    cases hr : f c with
    | some a => rw [inRange_some hr, inRange_some (hsame ▸ hr)]; exact .ok hc
    | none => rw [inRange_none hr, inRange_none (hsame ▸ hr)]; exact .error hc
  | @reads _ f hf =>
    show Agree L.Alike (.ok (f c) c) (.ok (f c') c')
    rw [L.look_eq hc hf]
    exact .ok hc
  | record he => exact .ok (L.recorded hc he.read)
  | store i v => exact .ok (L.stored hc i v)
  | count id n => exact .ok (L.counted hc id n)
  | enroll id t start inputs slots label parent => exact L.enroll hc id t start inputs slots _ _
  | release child => exact L.release hc child
  | await n => exact .ok (L.awaiting hc n)
  | note n => exact .ok (L.noted hc n)

/-! ## What operations make of likeness -/

namespace Meet

/-- An action that enters no body. -/
theorem still {below : Entry → Computation → Prop} {act : Action α}
    (h : Agree R (act c) (act c')) : Meet R below enter (fun _ => act) c c' :=
  ⟨h, fun x hx => absurd hx (not_enters_quiet _ x), fun x hx => absurd hx (not_enters_quiet _ x)⟩

/-- Two actions in a row. -/
theorem bind {below : Entry → Computation → Prop} {x : Enter → Action α}
    {f : α → Enter → Action β} (hdet : Determined x) (hx : Meet R below enter x c c')
    (hf : ∀ a d d', x enter c = .ok a d → x enter c' = .ok a d' → R d d' →
      Meet R below enter (f a) d d') :
    Meet R below enter (fun enter => x enter >>= fun a => f a enter) c c' := by
  refine ⟨hx.agree.bind fun a d d' hr hr' hR => (hf a d d' hr hr' hR).agree, fun y hy => ?_,
    fun y hy => ?_⟩
  · rcases hdet.enters_bind.mp hy with hy | ⟨a, d, hr, hy⟩
    · obtain ⟨e', he', hb⟩ := hx.left y hy
      exact ⟨e', he'.left, hb⟩
    · obtain ⟨d', hr', hR⟩ := hx.agree.of_ok hr
      obtain ⟨e', he', hb⟩ := (hf a d d' hr hr' hR).left y hy
      exact ⟨e', hdet.enters_bind.mpr (.inr ⟨a, d', hr', he'⟩), hb⟩
  · rcases hdet.enters_bind.mp hy with hy | ⟨a, d', hr', hy⟩
    · obtain ⟨e, he, hb⟩ := hx.right y hy
      exact ⟨e, he.left, hb⟩
    · -- The first action succeeded in the second state, so it did in the first one.
      have hagree := hx.agree
      rw [hr'] at hagree
      generalize hr : x enter c = r at hagree
      cases hagree with
      | ok hR =>
        obtain ⟨e, he, hb⟩ := (hf a _ d' hr hr' hR).right y hy
        exact ⟨e, hdet.enters_bind.mpr (.inr ⟨a, _, hr, he⟩), hb⟩

end Meet

namespace Likeness

variable (L : Likeness)

/-- What is to be known of an entered body: it goes alike from states that are alike, and if it
    returns, its component is still running. -/
structure Passes (enter : Enter) (x : Entry) : Prop where
  agree : ∀ d', L.Alike x.state d' →
    Agree L.Alike (enter x.body x.id x.state) (enter x.body x.id d')
  steady : x.state.Running x.id → ∀ u s, enter x.body x.id x.state = .ok u s → s.Running x.id

/-- Reads of signals preserve likeness too. -/
def Reads : Prop :=
  ∀ {c c' : Computation}, L.Alike c c' → ∀ i, Agree L.Alike (Action.signal i c) (Action.signal i c')

variable {L}

/-- Reads do so if the states record them alike and are equally strict. -/
theorem reads_of (hstrict : ∀ {c c' : Computation}, L.Alike c c' →
      c.config.checkReads = c'.config.checkReads)
    (hread : ∀ {c c' : Computation}, L.Alike c c' → ∀ i w,
      L.Alike (c.recorded (.signalRead i w)) (c'.recorded (.signalRead i w))) : L.Reads := by
  intro c c' hc i
  have hwritten : Plain (Action.inRange fun c => c.store.isWritten? i) := .inRange fun _ => rfl
  refine (hwritten.agree hc).bind fun w d d' _ _ hd => ?_
  have hrecorded := hread hd i w
  show Agree L.Alike
    ((if !w && d.config.checkReads then _ else _ : Action Scalar) (d.recorded (.signalRead i w)))
    ((if !w && d'.config.checkReads then _ else _ : Action Scalar)
      (d'.recorded (.signalRead i w)))
  rw [← hstrict hd]
  split
  · have hrefuse : Plain (Action.look fun c =>
        .error (c.defect (c.active.getD .mainComponent) (.unwrittenSignal i)) : Action Scalar) :=
      .look fun c => by
        show Except.error (c.bare.defect (c.active.getD .mainComponent) _) = _
        rw [c.defect_bare]
    exact hrefuse.agree hrecorded
  · have hvalue : Plain (Action.inRange fun c => c.store.read? i) := .inRange fun _ => rfl
    exact hvalue.agree hrecorded

end Likeness

/-- A component is started in both states or in none. -/
theorem Likeness.trigger {L : Likeness} (hc : L.Alike c c') {id : Handle}
    (hbody : ∀ x, Enters enter (fun enter => Action.trigger enter id) c x → L.Passes enter x) :
    Meet L.Alike (fun x d' => L.Alike x.state d') enter (fun enter => Action.trigger enter id)
      c c' := by
  cases hb : c.startable id with
  | error e =>
    have hb' : c'.startable id = .error e := L.startable hc id ▸ hb
    have hrefuse : Agree L.Alike ((refuse e : Action Unit) c) ((refuse e : Action Unit) c') :=
      .error hc
    exact .congr (fun _ => trigger_refused hb) (fun _ => trigger_refused hb') (.still hrefuse)
  | ok body =>
    have hb' : c'.startable id = .ok body := L.startable hc id ▸ hb
    obtain ⟨r, hr, hs, -⟩ := of_startable hb
    have hbegun : L.Alike (c.begun id) (c'.begun id) :=
      L.begun hc (Registry.stage?_eq_some.mpr ⟨r, hr, hs⟩)
    have hactive : c.active = c'.active := L.look_eq hc fun _ => rfl
    obtain ⟨hagree, hsteady⟩ := hbody ⟨body, id, c.begun id⟩ (enters_trigger.mpr ⟨body, hb, rfl⟩)
    refine ⟨?_, fun x hx => ?_, fun x hx => ?_⟩
    · show Agree L.Alike (Action.trigger enter id c) (Action.trigger enter id c')
      rw [trigger_eq hb, trigger_eq hb']
      have hends := hagree _ hbegun
      generalize hin : enter body id (c.begun id) = res, hin' : enter body id (c'.begun id) = res'
        at hends
      cases hends with
      | ok hd =>
        rw [runBody_ok hin, runBody_ok hin', ← hactive]
        have hrun := (Computation.running_begun hr id).mpr (.inr rfl)
        exact .ok (L.ended hd (hsteady hrun _ _ hin) _)
      | error hd =>
        rw [runBody_error hin, runBody_error hin', ← hactive]
        exact .error (L.left hd _)
    · obtain ⟨body', hbody', rfl⟩ := enters_trigger.mp hx
      cases hb.symm.trans hbody'
      exact ⟨c'.begun id, enters_trigger.mpr ⟨body, hb', rfl⟩, hbegun⟩
    · obtain ⟨body', hbody', rfl⟩ := enters_trigger.mp hx
      cases hb'.symm.trans hbody'
      exact ⟨c.begun id, enters_trigger.mpr ⟨body, hb, rfl⟩, hbegun⟩

/-- **Operations preserve likeness** if the bodies that they enter do. -/
theorem Woven.meets {L : Likeness} (hreads : L.Reads) {act : Enter → Action α} (h : Woven act)
    {c c' : Computation} (hc : L.Alike c c')
    (hbody : ∀ x, Enters enter act c x → L.Passes enter x) :
    Meet L.Alike (fun x d' => L.Alike x.state d') enter act c c' := by
  induction h generalizing c c' with
  | plain h => exact .still (h.agree hc)
  | signal i => exact .still (hreads hc i)
  | trigger id => exact L.trigger hc hbody
  | bind hx _ ihx ihf =>
    have hdet := hx.schematic.congr
    refine .bind hdet (ihx hc fun y hy => hbody y hy.left) fun a d d' hr _ hd => ?_
    exact ihf a hd fun y hy => hbody y (hdet.enters_bind.mpr (.inr ⟨a, d, hr, hy⟩))

/-- The component whose slots a request uses. -/
def Request.slotsOf? : Request → Option Handle
  | .child parent _ | .createChild parent _ _ _ _ _ | .releaseChildren parent => some parent
  | _ => none

namespace Likeness

variable (L : Likeness)

/-- What is to be known of a request that looks at more than the bare state: it finds the same
    trace and the same slots, and a handle that it keeps preserves likeness. -/
structure Permits (c c' : Computation) (q : Request) : Prop where
  trace : q = .trace → c.trace = c'.trace
  slots : ∀ id, q.slotsOf? = some id → c.registry.get? id = c'.registry.get? id
  kept : ∀ {parent slot child t start label}, q = .createChild parent slot child t start label →
    L.Alike (c.kept parent slot child) (c'.kept parent slot child)

variable {L}

theorem component_eq (hc : L.Alike c c') {id : Handle}
    (hsame : c.registry.get? id = c'.registry.get? id) : c.component id = c'.component id := by
  cases hr : c.registry.get? id with
  | none => rw [component_none hr, component_none (hsame ▸ hr), L.defect_eq hc]
  | some r => rw [Action.component_eq hr, Action.component_eq (hsame ▸ hr)]

/-- The handle of a child is kept in both states or in none. -/
theorem keepChild (hc : L.Alike c c') {parent child : Handle} {slot : Nat}
    (hsame : c.registry.get? parent = c'.registry.get? parent)
    (hkept : L.Alike (c.kept parent slot child) (c'.kept parent slot child)) :
    Agree L.Alike (keepChild parent slot child c) (keepChild parent slot child c') := by
  cases hr : c.registry.get? parent with
  | none =>
    rw [keepChild_unknown hr, keepChild_unknown (hsame ▸ hr), L.defect_eq hc]
    exact .error hc
  | some r =>
    by_cases hs : slot < r.slots.size
    · rw [keepChild_ok hr hs, keepChild_ok (hsame ▸ hr) hs]
      exact .ok hkept
    · have hs : r.slots.size ≤ slot := Nat.le_of_not_lt hs
      rw [keepChild_outside hr hs, keepChild_outside (hsame ▸ hr) hs, L.defect_eq hc]
      exact .error hc

/-- **Requests preserve likeness** if the bodies that they enter do. -/
theorem request (hreads : L.Reads) {q : Request} (hc : L.Alike c c') (hq : L.Permits c c' q)
    (hbody : ∀ x, Enters enter (fun enter => q.perform enter) c x → L.Passes enter x) :
    Meet L.Alike (fun x d' => L.Alike x.state d') enter (fun enter => q.perform enter) c c' := by
  by_cases hbare : q.Bare
  · exact (Request.woven hbare).meets hreads hc hbody
  cases q with
  | trace =>
    refine .still ?_
    show Agree L.Alike (.ok c.trace c) (.ok c'.trace c')
    rw [hq.trace rfl]
    exact .ok hc
  | child parent slot =>
    have hsame : c.child parent slot = c'.child parent slot := by
      unfold Computation.child
      rw [L.component_eq hc (hq.slots parent rfl)]
      cases c'.component parent with
      | error e => rfl
      | ok r => simp only [L.defect_eq hc]
    exact .still (Agree.look (f := fun c => c.child parent slot) hc hsame)
  | createChild parent slot child t start label =>
    have hdet : Determined fun _ => Action.keepChild parent slot child := fun _ _ _ _ => rfl
    have hkeep := L.keepChild hc (hq.slots parent rfl) (hq.kept rfl)
    refine .bind hdet (.still hkeep) fun a d d' hr _ hd => ?_
    exact (Woven.create child t start label (some parent)).meets hreads hd fun y hy =>
      hbody y (hdet.enters_bind.mpr (.inr ⟨a, d, hr, hy⟩))
  | releaseChildren parent =>
    have hsame := L.component_eq hc (hq.slots parent rfl)
    have hrelease : ∀ {d d' : Computation} {r : Component}, L.Alike d d' →
        Meet L.Alike (fun x d' => L.Alike x.state d') enter (fun _ => releaseAll r.slots.toList)
          d d' := fun hd =>
      (Woven.releaseAll _).meets hreads hd fun x hx => absurd hx (not_enters_quiet _ x)
    have hlook : Agree L.Alike (Action.look (fun c => c.component parent) c)
        (Action.look (fun c => c.component parent) c') := .look hc hsame
    exact .still (hlook.bind fun _ _ _ _ _ hd => (hrelease hd).agree)
  | _ => exact absurd trivial hbare

/-! ## Two runs that start alike -/

/-- When a body returns that a request entered, its component is still running. -/
theorem steady {q : Request} {x : Entry}
    (hx : Enters (enterWithin levels) (fun enter => q.perform enter) c x)
    (hrun : x.state.Running x.id) {u : Unit} {s : Computation}
    (hr : enterWithin levels x.body x.id x.state = .ok u s) : s.Running x.id := by
  obtain ⟨c₀, hbegun⟩ := ((Request.follows_any levels q (Moment.upright_active c)).2 x hx).2.begun
  have hup : Moment.Upright ⟨[x.id], x.state⟩ := by
    show x.state.active = some x.id
    rw [hbegun]
    rfl
  have hsteps := (bodiesStep (π := .any) levels x [] hup fun _ _ _ _ _ => trivial).1
  unfold Entry.Steps at hsteps
  rw [after_ok hr] at hsteps
  have hbusy : Moment.Busy ⟨[x.id], s⟩ :=
    hsteps.keeps (fun _ _ hi hs => hs.busy hi) ⟨by simpa using hrun, List.nodup_singleton _⟩
  exact hbusy.running x.id (List.mem_singleton_self _)

variable {P : Nat → Request → Computation → Prop}

/-- What is to be known of the requests of a run: with so many levels at hand, and if the bodies
    that they enter pass, they preserve likeness. -/
def Preserves (L : Likeness) (P : Nat → Request → Computation → Prop) : Prop :=
  ∀ {levels : Nat} {q : Request} {c c' : Computation}, L.Alike c c' → P levels q c →
    (∀ x, Enters (enterWithin levels) (fun enter => q.perform enter) c x →
      L.Passes (enterWithin levels) x) →
    Meet L.Alike (fun x d' => L.Alike x.state d') (enterWithin levels)
      (fun enter => q.perform enter) c c'

/-- A program goes abreast and ends alike, if the bodies below it do. -/
theorem program_of_bodies (hP : L.Preserves P)
    (hbody : ∀ (x : Entry) (d' : Computation), L.Alike x.state d' →
      (∀ k, levels = k + 1 → (x.body.program x.id).Along P k x.state) →
      Agree L.Alike (enterWithin levels x.body x.id x.state)
        (enterWithin levels x.body x.id d') ∧ x.Abreast L.Alike levels d') (p : Program α) :
    ∀ {c c' : Computation}, L.Alike c c' → p.Along P levels c →
      Agree L.Alike (p.runWith (enterWithin levels) c) (p.runWith (enterWithin levels) c') ∧
        p.Abreast L.Alike levels c c' := by
  induction p with
  | done a => exact fun hc _ => ⟨.ok hc, hc⟩
  | ask q next ih =>
    rintro c c' hc (_ | ⟨hnow, hanswered, hrefused, hinside⟩)
    have hmeet := hP hc hnow fun x hx =>
      ⟨fun d' hd => (hbody x d' hd fun k hk => hinside k x hk hx).1, fun hrun _ _ hr =>
        steady hx hrun hr⟩
    have hbelow : Meet L.Alike (Entry.Abreast L.Alike levels) (enterWithin levels)
        (fun enter => q.perform enter) c c' :=
      hmeet.mono fun x d' hx hd => (hbody x d' hd fun k hk => hinside k x hk hx).2
    have hafter := hmeet.agree
    refine ⟨?_, hc, hbelow, fun a d d' hr hr' => ?_, fun e d d' hr hr' => ?_⟩
    · generalize hr : q.perform (enterWithin levels) c = res,
        hr' : q.perform (enterWithin levels) c' = res' at hafter
      cases hafter with
      | ok hd =>
        rw [runWith_answered hr, runWith_answered hr']
        exact (ih _ hd (hanswered _ _ hr)).1
      | @error f d d' hd =>
        cases f with
        | refused e =>
          rw [runWith_refused hr, runWith_refused hr']
          exact (ih _ hd (hrefused _ _ hr)).1
        | outOfRange | tooDeep =>
          rw [runWith_lost hr fun e => by simp, runWith_lost hr' fun e => by simp]
          exact .error hd
    · obtain ⟨d₁, hr₁, hd⟩ := hafter.of_ok hr
      cases hr'.symm.trans hr₁
      exact (ih (.ok a) hd (hanswered a d hr)).2
    · obtain ⟨d₁, hr₁, hd⟩ := hafter.of_error hr
      cases hr'.symm.trans hr₁
      exact (ih (.error e) hd (hrefused e d hr)).2

/-- A body goes abreast and ends alike. -/
theorem body (hP : L.Preserves P) (levels : Nat) :
    ∀ (x : Entry) (d' : Computation), L.Alike x.state d' →
      (∀ k, levels = k + 1 → (x.body.program x.id).Along P k x.state) →
      Agree L.Alike (enterWithin levels x.body x.id x.state)
        (enterWithin levels x.body x.id d') ∧ x.Abreast L.Alike levels d' := by
  induction levels with
  | zero => exact fun x d' hd _ => ⟨.error hd, hd⟩
  | succ levels ih =>
    intro x d' hd halong
    obtain ⟨hagree, habreast⟩ :=
      program_of_bodies hP ih (x.body.program x.id) hd (halong levels rfl)
    refine ⟨?_, habreast⟩
    show Agree L.Alike
      (((x.body.program x.id).runWith (enterWithin levels) >>= _ : Action Unit) x.state)
      (((x.body.program x.id).runWith (enterWithin levels) >>= _ : Action Unit) d')
    refine hagree.bind fun res s s' _ _ hs => ?_
    cases res with
    | ok u => exact .ok hs
    | error e => exact .error hs

/-- **Two runs that start alike go abreast**, and they end alike. -/
theorem abreast (hP : L.Preserves P) {p : Program α} (hc : L.Alike c c')
    (hp : p.Along P levels c) :
    Agree L.Alike (p.runWith (enterWithin levels) c) (p.runWith (enterWithin levels) c') ∧
      p.Abreast L.Alike levels c c' :=
  program_of_bodies hP (body hP levels) p hc hp

end Likeness

/-! ## Properties of registries -/

/-- A property of registries, under a configuration, that the engine preserves in all that it does
    but keeping the handle of a child: it holds on where a record is new, or changes so. -/
structure Lasting (I : Config → Registry → Prop) : Prop where
  counted : ∀ {config : Config} {reg : Registry}, I config reg → ∀ id n,
    I config (reg.modify id fun r => { r with pending := n })
  enrolled : ∀ {config : Config} {reg reg' : Registry}, I config reg → ∀ {id : Handle}
    {t : TemplateId} {start inputs slots : Nat} {label : String} {parent : Option Handle},
    reg.create id (.fresh t start inputs slots label parent) = .ok reg' → I config reg'
  begun : ∀ {config : Config} {reg : Registry}, I config reg → ∀ {id : Handle},
    reg.stage? id = some .created → I config (reg.modify id fun r => { r with stage := .running })
  ended : ∀ {config : Config} {reg : Registry}, I config reg → ∀ {id : Handle},
    reg.stage? id = some .running → I config (reg.modify id fun r => { r with stage := .finished })
  dropped : ∀ {config : Config} {reg : Registry}, I config reg → ∀ {id : Handle},
    reg.stage? id = some .finished → I config (reg.modify id fun r =>
      { r with slots := if config.reclaim then #[] else r.slots, stage := .released })

namespace Lasting

variable {I : Config → Registry → Prop}

/-- A state that has such a property is like itself. -/
def likeness (h : Lasting I) : Likeness where
  Alike c c' := c' = c ∧ I c.config c.registry
  bare hc := by rw [hc.1]
  startable hc _ := by rw [hc.1]
  recorded hc _ _ := ⟨by rw [hc.1], hc.2⟩
  stored hc _ _ := ⟨by rw [hc.1], hc.2⟩
  counted hc id n := ⟨by rw [hc.1], h.counted hc.2 id n⟩
  enrolled hc _ _ _ _ _ _ _ _ _ hr hr' := by
    rw [hc.1] at hr' ⊢
    cases hr.symm.trans hr'
    exact ⟨rfl, h.enrolled hc.2 hr⟩
  dropped hc _ hs := ⟨by rw [hc.1], h.dropped hc.2 hs⟩
  awaiting hc _ := ⟨by rw [hc.1], hc.2⟩
  noted hc _ := ⟨by rw [hc.1], hc.2⟩
  begun hc _ hs := ⟨by rw [hc.1], h.begun hc.2 hs⟩
  ended hc _ hs _ := ⟨by rw [hc.1], h.ended hc.2 hs⟩
  left hc _ := ⟨by rw [hc.1], hc.2⟩

theorem reads (h : Lasting I) : h.likeness.Reads :=
  Likeness.reads_of (L := h.likeness) (fun hc => by rw [hc.1]) fun hc _ _ => ⟨by rw [hc.1], hc.2⟩

end Lasting
end CircuitWitness
