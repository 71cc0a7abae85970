import CircuitWitness.Proofs.Abreast
import CircuitWitness.Proofs.Procedure
/-
  Strict and lenient reads.

  The two differ in one place: a read of a signal that was not written is refused by strict reads,
  and answered with zero by lenient ones.  Take two runs from one state, one of each kind, with
  bodies that give up at the first refusal.  The runs are the same until a signal is read early.
  There they part: from then on the strict run does nothing but pass on the refusal, while the
  lenient one goes its own way.  Its trace tells which signal that was, since traces only grow: it
  is the first that was read early.

  `Action.Forks` says this of one action, for all ways in which the lenient run may end.  It goes
  through the monad operations, so all that is woven of actions that fork does so too; the induction
  is once more on the levels of bodies.
-/

namespace CircuitWitness

open CircuitWitness.Action

/-! ## Procedures and their requests -/

/-- A procedure that makes none but certain requests, and ends with the first refusal it is told
    of. -/
structure Procedure.Asks {α : Type} (ok : Request → Prop) (p : Procedure α) : Prop where
  strict : Program.Strict (ExceptT.run p)
  only : Program.Only ok (ExceptT.run p)

namespace Procedure.Asks

variable {α β : Type} {ok ok' : Request → Prop} {p : Procedure α} {f : α → Procedure β}

/-- How what a procedure asks is put together, one rule for each way to write one. -/
theorem pure (a : α) : Asks ok (pure a : Procedure α) := ⟨trivial, trivial⟩

theorem request {q : Request} (hq : ok q) : Asks ok (Procedure.request q) :=
  ⟨⟨fun _ => rfl, fun _ => trivial⟩, hq, fun _ => trivial⟩

/-- If more requests are allowed, it asks for nothing else. -/
theorem mono (h : ∀ q, ok q → ok' q) (hp : Asks ok p) : Asks ok' p :=
  ⟨hp.strict, hp.only.mono h⟩

/-- A sequence asks for what its parts ask for. -/
theorem bind (hp : Asks ok p) (hf : ∀ a, Asks ok (f a)) : Asks ok (p >>= f) := by
  obtain ⟨hstrict, honly⟩ := hp
  have hrun : ExceptT.run (p >>= f) = Program.bind (ExceptT.run p) (ExceptT.bindCont f) := rfl
  constructor
  · rw [hrun]
    generalize ExceptT.run p = tree at hstrict
    induction tree with
    | done res =>
      cases res with
      | ok a => exact (hf a).strict
      | error e => exact trivial
    | ask q next ih =>
      refine ⟨fun e => ?_, fun a => ih (.ok a) (hstrict.2 a)⟩
      show (next (.error e)).bind _ = _
      rw [hstrict.1 e]
      rfl
  · rw [hrun]
    generalize ExceptT.run p = tree at honly
    induction tree with
    | done res =>
      cases res with
      | ok a => exact (hf a).only
      | error e => exact trivial
    | ask q next ih => exact ⟨honly.1, fun answer => ih answer (honly.2 answer)⟩

/-- A loop asks for what its rounds ask for. -/
theorem forM {l : List α} {f : α → Procedure Unit} (hf : ∀ a ∈ l, Asks ok (f a)) :
    Asks ok (l.forM f) := by
  induction l with
  | nil => exact pure ()
  | cons a l ih =>
    exact bind (hf a (List.mem_cons_self ..)) fun _ => ih fun b hb =>
      hf b (List.mem_cons_of_mem a hb)

end Procedure.Asks

/-- A procedure whose program is strict makes its first request and goes on after an answer. -/
theorem Procedure.runWith_ask {α : Type} {enter : Enter} {q : Request}
    {next : Except Refusal q.Answer → Program (Except Refusal α)}
    (h : ∀ e, next (.error e) = .done (.error e)) :
    runWith enter (ExceptT.mk (.ask q next))
      = q.perform enter >>= fun a => runWith enter (ExceptT.mk (next (.ok a))) := by
  funext c
  show (Program.runWith enter (.ask q next) >>= _ : Action α) c = _
  cases hq : q.perform enter c with
  | ok a d =>
    rw [bind_ok hq]
    exact bind_congr_left (runWith_answered hq)
  | error f d =>
    rw [bind_error hq]
    cases f with
    | refused e =>
      have hrun : Program.runWith enter (.ask q next) c = .ok (.error e) d := by
        rw [runWith_refused hq, h e]
        rfl
      exact bind_ok hrun
    | outOfRange | tooDeep => exact bind_error (runWith_lost hq fun e => by simp)

/-! ## What strict and lenient runs share -/

/-- The same switches, with strict reads. -/
def Config.strict (config : Config) : Config := { config with checkReads := true }

/-- The same computation, with strict reads. -/
def Computation.strict (c : Computation) : Computation := { c with config := c.config.strict }

/-- Only a read of a signal without a value is an early read. -/
theorem Trace.earlyReads_record (t : Trace) {e : Event} (he : ∀ i, e ≠ .signalRead i false) :
    (t.record e).earlyReads = t.earlyReads := by
  unfold earlyReads
  rw [toList_record]
  split
  · rw [List.filterMap_append]
    cases e with
    | signalRead i w =>
      cases w with
      | false => exact absurd rfl (he i)
      | true => exact List.append_nil _
    | _ => exact List.append_nil _
  · rfl

/-- Where the trace is on, such a read is added to the list. -/
theorem Trace.earlyReads_read {t : Trace} (h : t.enabled = true) (i : Nat) :
    (t.record (.signalRead i false)).earlyReads = t.earlyReads ++ [i] := by
  unfold earlyReads
  rw [toList_record, if_pos h, List.filterMap_append]
  rfl

/-- A computation with lenient reads that keeps a trace, and the signals it has read early. -/
structure Computation.Reading (circuit : Circuit) (early : List Nat) (c : Computation) : Prop where
  circuit : c.circuit = circuit
  lenient : c.config.checkReads = false
  traced : c.trace.enabled = true
  early : c.trace.earlyReads = early

section

variable {circuit : Circuit} {early : List Nat} {c c' : Computation}

/-- Nothing that is looked at here has changed. -/
theorem Computation.Reading.change (h : c.Reading circuit early) (hcircuit : c'.circuit = c.circuit)
    (hconfig : c'.config = c.config) (htrace : c'.trace = c.trace) : c'.Reading circuit early :=
  ⟨hcircuit.trans h.circuit, hconfig ▸ h.lenient, htrace ▸ h.traced, htrace ▸ h.early⟩

/-- The trace tells of something else than an early read. -/
theorem Computation.Reading.tells (h : c.Reading circuit early) {e : Event}
    (he : ∀ i, e ≠ .signalRead i false) (hcircuit : c'.circuit = c.circuit)
    (hconfig : c'.config = c.config) (htrace : c'.trace = c.trace.record e) :
    c'.Reading circuit early := by
  refine ⟨hcircuit.trans h.circuit, hconfig ▸ h.lenient, ?_, ?_⟩
  · rw [htrace, Trace.enabled_record, h.traced]
  · rw [htrace, Trace.earlyReads_record _ he, h.early]

/-- A signal is read early. -/
theorem Computation.Reading.read (h : c.Reading circuit early) (i : Nat) :
    (c.recorded (.signalRead i false)).Reading circuit (early ++ [i]) :=
  ⟨h.circuit, h.lenient, (c.trace.enabled_record _).trans h.traced,
    (Trace.earlyReads_read h.traced i).trans (by rw [h.early])⟩

/-- To differ in strictness alone is preserved by all that the engine does without reading. -/
def lockstep (circuit : Circuit) (early : List Nat) : Likeness where
  Alike c c' := c' = c.strict ∧ c.Reading circuit early
  bare h := by rw [h.1]; rfl
  startable h _ := by rw [h.1]; rfl
  recorded h _ he := ⟨by rw [h.1]; rfl, h.2.tells (fun i => he i false) rfl rfl rfl⟩
  stored h _ _ := ⟨by rw [h.1]; rfl, h.2.change rfl rfl rfl⟩
  counted h _ _ := ⟨by rw [h.1]; rfl, h.2.change rfl rfl rfl⟩
  enrolled {c _} h _ _ _ _ _ _ _ reg reg' hr hr' := by
    obtain ⟨rfl, h⟩ := h
    have hr' : c.registry.create _ _ = .ok reg' := hr'
    cases hr.symm.trans hr'
    exact ⟨rfl, h.change rfl rfl rfl⟩
  dropped h _ _ := ⟨by rw [h.1]; rfl, h.2.tells (fun _ => by simp) rfl rfl rfl⟩
  awaiting h _ := ⟨by rw [h.1]; rfl, h.2.change rfl rfl rfl⟩
  noted h _ := ⟨by rw [h.1]; rfl, h.2.change rfl rfl rfl⟩
  begun h _ _ := ⟨by rw [h.1]; rfl, h.2.tells (fun _ => by simp) rfl rfl rfl⟩
  ended h _ _ _ := ⟨by rw [h.1]; rfl, h.2.tells (fun _ => by simp) rfl rfl rfl⟩
  left h _ := ⟨by rw [h.1]; rfl, h.2.change rfl rfl rfl⟩

end

/-! ## Actions that fork at the first early read -/

/-- The action is refused because a signal was not written. -/
def Action.Catches {α : Type} (act : Action α) (c : Computation) (i : Nat) : Prop :=
  ∃ id label d, act c = .error (.refused (.graphDefect id label (.unwrittenSignal i))) d

/-- With lenient reads and with strict ones, the action does the same and reads no signal early; or
    it reads one early, and with strict reads it is refused the first of those. -/
def Action.Forks {α : Type} (circuit : Circuit) (act : Action α) : Prop :=
  ∀ early c, c.Reading circuit early →
    Agree (lockstep circuit early).Alike (act c) (act c.strict) ∨
    ∃ i more, (act.after c).Reading circuit (early ++ i :: more) ∧ act.Catches c.strict i

/-- The bodies of the circuit fork when they are entered. -/
def Enter.Forks (circuit : Circuit) (enter : Enter) : Prop :=
  ∀ body, circuit.Runs body → ∀ id, Action.Forks circuit (enter body id)

namespace Action.Forks

variable {α β : Type} {circuit : Circuit} {early : List Nat} {c : Computation} {act : Action α}
  {k : α → Action β}

/-- However a lenient run ends, its early reads are those from before and some more. -/
theorem reading (h : Forks circuit act) (hc : c.Reading circuit early) :
    ∃ more, (act.after c).Reading circuit (early ++ more) := by
  rcases h early c hc with hagree | ⟨i, more, hafter, -⟩
  · exact ⟨[], by rw [List.append_nil]; exact hagree.after.2⟩
  · exact ⟨i :: more, hafter⟩

/-- The rule for sequences: the two runs fork in the first part, or they agree on what the second
    one begins with. -/
theorem bind (hact : Forks circuit act) (hk : ∀ a, Forks circuit (k a)) :
    Forks circuit (act >>= k) := by
  intro early c hc
  rcases hact early c hc with hagree | ⟨i, more, hafter, id, label, d', hcaught⟩
  · generalize hr : act c = r, hr' : act c.strict = r' at hagree
    cases hagree with
    | error hd =>
      refine .inl ?_
      rw [bind_error hr, bind_error hr']
      exact .error hd
    | @ok a d d' hd =>
      obtain ⟨rfl, hd⟩ := hd
      rcases hk a early d hd with hagree | ⟨i, more, hafter, id, label, d', hcaught⟩
      · refine .inl ?_
        rw [bind_ok hr, bind_ok hr']
        exact hagree
      · refine .inr ⟨i, more, ?_, id, label, d', (bind_ok hr').trans hcaught⟩
        rw [after_bind hr]
        exact hafter
  · -- The strict run is refused, and the lenient one may go on.
    have hcaught : (act >>= k).Catches c.strict i := ⟨id, label, d', bind_error hcaught⟩
    cases hr : act c with
    | error f d =>
      rw [after_error hr] at hafter
      exact .inr ⟨i, more, by rw [after_error (bind_error hr)]; exact hafter, hcaught⟩
    | ok a d =>
      rw [after_ok hr] at hafter
      obtain ⟨more', hafter⟩ := (hk a).reading hafter
      refine .inr ⟨i, more ++ more', ?_, hcaught⟩
      rw [after_bind hr]
      rwa [List.append_assoc, List.cons_append] at hafter

/-- An action that does the same with strict reads. -/
theorem of_agree (h : ∀ {early c}, c.Reading circuit early →
    Agree (lockstep circuit early).Alike (act c) (act c.strict)) : Forks circuit act :=
  fun _ _ hc => .inl (h hc)

/-- A look that does not depend on the switch does not tell the two runs apart. -/
theorem look {f : Computation → Except Refusal α} (hf : ∀ c : Computation, f c.strict = f c) :
    Forks circuit (look f) :=
  of_agree fun {_ c} hc => .look ⟨rfl, hc⟩ (hf c).symm

/-- A look that finds the same with strict reads, and what follows for a circuit. -/
theorem look_bind {f : Computation → Except Refusal α} (hf : ∀ c : Computation, f c.strict = f c)
    (hk : ∀ c a, c.circuit = circuit → f c = .ok a → Forks circuit (k a)) :
    Forks circuit (Action.look f >>= k) := by
  intro early c hc
  cases hr : f c with
  | error e =>
    refine .inl ?_
    rw [bind_error (look_error hr), bind_error (look_error ((hf c).trans hr))]
    exact .error ⟨rfl, hc⟩
  | ok a =>
    have hforks := hk c a hc.circuit hr early c hc
    unfold Catches at hforks ⊢
    rwa [after_bind (look_ok hr), bind_ok (look_ok hr), bind_ok (look_ok ((hf c).trans hr))]

/-- What follows does not depend on how reads are. -/
theorem get_bind {k : Computation → Action β} (hsame : ∀ c : Computation, k c.strict = k c)
    (hk : ∀ c, Forks circuit (k c)) : Forks circuit (get >>= k) := by
  intro early c hc
  have hforks := hk c early c hc
  have hstrict : (get >>= k) c.strict = k c c.strict := congrFun (hsame c) c.strict
  unfold Catches at hforks ⊢
  rw [hstrict]
  exact hforks

/-- A change that does not depend on how reads are, and tells of no early read. -/
theorem modify {g : Computation → Computation}
    (hsame : ∀ c : Computation, g c.strict = (g c).strict)
    (hreading : ∀ {early c}, c.Reading circuit early → (g c).Reading circuit early) :
    Forks circuit (modify g) :=
  of_agree fun hc => .ok ⟨hsame _, hreading hc⟩

/-- An event that is no early read leaves them as near as they were. -/
theorem record {e : Event} (he : ∀ i, e ≠ .signalRead i false) : Forks circuit (record e) :=
  modify (fun _ => rfl) fun hc => hc.tells he rfl rfl rfl

theorem modifyComponent (id : Handle) (f : Component → Component) :
    Forks circuit (modifyComponent id f) :=
  modify (fun _ => rfl) fun hc => hc.change rfl rfl rfl

/-- Whoever runs in the place of another gives it back in both runs. -/
theorem whileActive (id : Handle) (h : Forks circuit act) :
    Forks circuit (whileActive id act) := by
  intro early c hc
  have hleft : ∀ {d : Computation} {early}, d.Reading circuit early →
      (d.left c.active).Reading circuit early := fun hd => hd.change rfl rfl rfl
  have hinside : (c.left (some id)).Reading circuit early := hc.change rfl rfl rfl
  rcases h early _ hinside with hagree | ⟨i, more, hread, k, label, d', hcaught⟩
  · refine .inl ?_
    generalize hr : act (c.left (some id)) = r, hr' : act (c.left (some id)).strict = r' at hagree
    cases hagree with
    | ok hd =>
      obtain ⟨rfl, hd⟩ := hd
      rw [whileActive_ok hr, whileActive_ok (c := c.strict) hr']
      exact .ok ⟨rfl, hleft hd⟩
    | error hd =>
      obtain ⟨rfl, hd⟩ := hd
      rw [whileActive_error hr, whileActive_error (c := c.strict) hr']
      exact .error ⟨rfl, hleft hd⟩
  · refine .inr ⟨i, more, ?_, k, label, _, whileActive_error (c := c.strict) hcaught⟩
    cases hr : act (c.left (some id)) with
    | ok a d =>
      rw [after_ok hr] at hread
      rw [after_ok (whileActive_ok hr)]
      exact hleft hread
    | error f d =>
      rw [after_error hr] at hread
      rw [after_error (whileActive_error hr)]
      exact hleft hread

theorem keepChild (parent : Handle) (slot : Nat) (child : Handle) :
    Forks circuit (keepChild parent slot child) := by
  refine bind (look fun _ => rfl) fun r => ?_
  show Forks circuit (if r.slots.size ≤ slot then _ else _)
  split
  · exact look fun _ => rfl
  · exact modifyComponent _ _

/-- Plain steps are looks and changes of these kinds. -/
theorem plain (h : Plain act) : Forks circuit act :=
  of_agree fun hc => h.agree (L := lockstep circuit _) ⟨rfl, hc⟩

/-- The one place where strictness matters. -/
theorem signal (i : Nat) : Forks circuit (Action.signal i) := by
  intro early c hc
  cases hw : c.store.isWritten? i with
  | none =>
    refine .inl ?_
    rw [signal_outside hw, signal_outside (c := c.strict) hw]
    exact .error ⟨rfl, hc⟩
  | some w =>
    cases w with
    | false =>
      refine .inr ⟨i, [], ?_, _, _, _, signal_unwritten (c := c.strict) hw rfl⟩
      rw [after_signal hw]
      exact hc.read i
    | true =>
      have hread : Plain (Action.inRange fun c => c.store.read? i) := .inRange fun _ => rfl
      refine .inl ?_
      rw [signal_written hw, signal_written (c := c.strict) hw]
      exact hread.agree (L := lockstep circuit early)
        ⟨rfl, hc.tells (fun _ => by simp) rfl rfl rfl⟩

section

variable {enter : Enter} (henter : enter.Forks circuit)

include henter

/-- A start is a look, a change, a body and a change, and of the body it is known by induction. -/
theorem trigger (id : Handle) : Forks circuit (trigger enter id) := by
  refine look_bind (fun _ => rfl) fun c body hc hbody => ?_
  obtain ⟨r, -, -, -, hb⟩ := of_startable hbody
  have hruns : circuit.Runs body := ⟨_, _, hc ▸ hb⟩
  exact bind (modifyComponent _ _) fun _ => bind (record fun _ => by simp) fun _ =>
    bind (whileActive id (henter body hruns id)) fun _ => bind (modifyComponent _ _) fun _ =>
      record fun _ => by simp

/-- So everything that is woven forks at the first early read or not at all. -/
theorem woven {act : Enter → Action α} (h : Woven act) : Forks circuit (act enter) := by
  induction h with
  | plain h => exact plain h
  | signal i => exact signal i
  | trigger id => exact trigger henter id
  | bind _ _ ihx ihf => exact bind ihx ihf

/-- **Every request forks**, if the bodies do. -/
theorem request (q : Request) : Forks circuit (q.perform enter) := by
  by_cases h : q.Bare
  · exact woven henter (Request.woven h)
  cases q with
  | trace =>
    exact get_bind (fun _ => rfl) fun c => plain (.reads (f := fun _ => c.trace) fun _ => rfl)
  | child parent slot => exact look fun _ => rfl
  | createChild parent slot child t start label =>
    exact bind (keepChild parent slot child) fun _ =>
      woven henter (.create child t start label (some parent))
  | releaseChildren parent =>
    exact bind (look fun _ => rfl) fun r => woven henter (.releaseAll r.slots.toList)
  | _ => exact absurd trivial h

end

/-- **Strict programs fork**, if the bodies do. -/
theorem program {enter : Enter} (henter : enter.Forks circuit)
    {p : Program (Except Refusal α)} (hp : p.Strict) :
    Forks circuit (Procedure.runWith enter (ExceptT.mk p)) := by
  induction p with
  | done res =>
    cases res with
    | ok a => exact plain (.reads (f := fun _ => a) fun _ => rfl)
    | error e => exact look (f := fun _ => .error e) fun _ => rfl
  | ask q next ih =>
    rw [Procedure.runWith_ask hp.1]
    exact bind (request henter q) fun a => ih (.ok a) (hp.2 a)

/-! ### What one run says about the other -/

section

variable {a : α} {d : Computation}

/-- Where a lenient run returns that has read nothing more early, the strict run returns. -/
theorem returns (h : Forks circuit act) (hc : c.Reading circuit early) (hr : act c = .ok a d)
    (hread : d.trace.earlyReads = early) : act c.strict = .ok a d.strict := by
  rcases h early c hc with hagree | ⟨i, more, hafter, -⟩
  · obtain ⟨_, hr', rfl, -⟩ := hagree.of_ok hr
    exact hr'
  · rw [after_ok hr] at hafter
    have hmore := hafter.early.symm.trans hread
    simp at hmore

/-- Where a lenient run returns that has read more early, the strict run is refused the first. -/
theorem catches (h : Forks circuit act) (hc : c.Reading circuit early) (hr : act c = .ok a d)
    {i : Nat} {rest : List Nat} (hread : d.trace.earlyReads = early ++ i :: rest) :
    act.Catches c.strict i := by
  rcases h early c hc with hagree | ⟨j, more, hafter, hcaught⟩
  · obtain ⟨_, -, -, hd⟩ := hagree.of_ok hr
    have hnone := hd.early.symm.trans hread
    simp at hnone
  · rw [after_ok hr] at hafter
    cases List.append_cancel_left (hafter.early.symm.trans hread)
    exact hcaught

/-- Where a strict run returns, the lenient run does too, and it reads nothing early. -/
theorem of_strict (h : Forks circuit act) (hc : c.Reading circuit early)
    (hr : act c.strict = .ok a d) :
    ∃ d', act c = .ok a d' ∧ d = d'.strict ∧ d'.trace.earlyReads = early := by
  rcases h early c hc with hagree | ⟨i, -, -, id, label, d', hcaught⟩
  · rw [hr] at hagree
    generalize hr' : act c = r at hagree
    cases hagree with
    | ok hd => exact ⟨_, rfl, hd.1, hd.2.early⟩
  · cases hr.symm.trans hcaught

end

end Action.Forks

/-- **Strict bodies fork at the first early read.** -/
theorem Circuit.Strict.forks {circuit : Circuit} (h : circuit.Strict) (levels : Nat) :
    (enterWithin levels).Forks circuit := by
  induction levels with
  | zero => exact fun body _ id => .of_agree fun hc => .error ⟨rfl, hc⟩
  | succ levels ih => exact fun body hbody id => .program ih (h body hbody id)

/-! ## Calculations -/

/-- An action that returns ends where it returns. -/
theorem Action.final_eq_ok {act : Action Unit} {c c' : Computation} :
    act.final c = .ok c' ↔ act c = .ok () c' := by
  unfold final
  cases act c <;> simp

theorem Action.final_eq_error {act : Action Unit} {c c' : Computation} {f : Fault}
    (h : act c = .error f c') : act.final c = .error f := by
  unfold final
  rw [h]

/-- At the start no signal was read. -/
theorem Computation.earlyReads_start (circuit : Circuit) (config : Config) :
    (start circuit config).trace.earlyReads = [] := by
  show (if _ then Trace.empty config.recordTrace
    else (Trace.empty config.recordTrace).record (.signalWritten 0)).earlyReads = []
  split
  · rfl
  · exact Trace.earlyReads_record _ fun i => by simp

/-- At the start nothing was read. -/
theorem Computation.reading_start {circuit : Circuit} {config : Config}
    (hon : config.recordTrace = true) (hlenient : config.checkReads = false) :
    (start circuit config).Reading circuit [] := by
  refine ⟨rfl, hlenient, ?_, earlyReads_start circuit config⟩
  show (if _ then Trace.empty config.recordTrace
    else (Trace.empty config.recordTrace).record (.signalWritten 0)).enabled = true
  split
  · exact hon
  · rw [Trace.enabled_record]
    exact hon

namespace Circuit.Strict

variable {circuit : Circuit} {config : Config}

/-- This is so for each request, -/
theorem run_forks (h : circuit.Strict) (q : Request) : Forks circuit (Request.run q) :=
  fun early c hc => Forks.request (h.forks c.nesting) q early c hc

/-- and for the assignments of a calculation. -/
theorem feed_forks (h : circuit.Strict) (inputs : InputValues) : Forks circuit (feed inputs) := by
  refine .bind (h.run_forks (.assignAll inputs)) fun _ => .get_bind (fun _ => rfl) fun c => ?_
  show Forks circuit (if _ then _ else if _ then _ else _)
  split
  · exact .plain (.reads (f := fun _ => ()) fun _ => rfl)
  · split
    · exact .look (f := fun _ => .error _) fun _ => rfl
    · exact h.run_forks .runMain

/-- **Strict reads are a conservative extension of lenient ones.**  The bodies of a circuit give up
    at the first refusal, and a trace is kept.  Take one assignment of the main inputs.

    * If the calculation with lenient reads returns and has read no signal early, the one with
      strict reads returns with the same computation.
    * If it returns and has read some early, the one with strict reads is refused the first of
      them.
    * If the calculation with strict reads returns, so does the one with lenient reads, with the
      same computation, and it has read no signal early. -/
theorem reads_conservative (h : circuit.Strict) (hon : config.recordTrace = true)
    (hlenient : config.checkReads = false) (inputs : InputValues) :
    (∀ c, circuit.calculation config inputs = .ok c → c.trace.earlyReads = [] →
      circuit.calculation config.strict inputs = .ok c.strict) ∧
    (∀ c i rest, circuit.calculation config inputs = .ok c → c.trace.earlyReads = i :: rest →
      ∃ id label, circuit.calculation config.strict inputs
        = .error (.refused (.graphDefect id label (.unwrittenSignal i)))) ∧
    ∀ c', circuit.calculation config.strict inputs = .ok c' →
      ∃ c, circuit.calculation config inputs = .ok c ∧ c.trace.earlyReads = [] ∧ c' = c.strict := by
  have hstart : (Computation.start circuit config).Reading circuit [] :=
    Computation.reading_start hon hlenient
  have hfeed := h.feed_forks inputs
  refine ⟨fun c hc hread => ?_, fun c i rest hc hread => ?_, fun c' hc => ?_⟩
  · exact final_eq_ok.mpr (hfeed.returns hstart (final_eq_ok.mp hc) hread)
  · obtain ⟨id, label, d, hcaught⟩ := hfeed.catches hstart (final_eq_ok.mp hc) hread
    exact ⟨id, label, final_eq_error hcaught⟩
  · obtain ⟨c, hr, hsame, hread⟩ := hfeed.of_strict hstart (final_eq_ok.mp hc)
    exact ⟨c, final_eq_ok.mpr hr, hread, hsame⟩

end Circuit.Strict

/-! ## A hasty circuit -/

/-- Read both signals, the second one first, and write back what was read. -/
def hastyBody : Body := fun _ => [2, 1].forM fun i => do
  Procedure.setSignal i (← Procedure.signal i)

/-- The only component has two outputs and takes no input. -/
def hastyDescription : CircuitDescription where
  name := "hasty"
  totalSignals := 3
  templates := ⟨#[some ⟨⟨"Hasty", 2, 0, 2, 0⟩, hastyBody, none⟩]⟩

def hasty : Circuit := ⟨hastyDescription, ⟨"Hasty", 2, 0, 2, 0⟩⟩

/-- The body of the hasty circuit is a procedure, so it ends with the first refusal that it is told
    of. -/
theorem hasty_strict : hasty.Strict := by
  rintro body ⟨⟨i⟩, prefer, h⟩ id
  have hbody : (hastyBody id).Asks fun _ => True :=
    .forM fun i _ => .bind (.request trivial) fun v => .request trivial
  match i, h with
  | 0, h => cases prefer <;> cases h <;> exact hbody.strict
  | i + 1, h => cases h

/-- The end of its calculation with lenient reads. -/
def hastyDone : Computation := (feed ⟨[]⟩).after (.start hasty { recordTrace := true })

/-- The same for the hasty circuit: with lenient reads its calculation returns and has read both
    signals early, and with strict reads it is refused the second one, which is read first. -/
theorem Circuit.Strict.reads_conservative_hasty :
    hastyDescription.accept = .ok hasty ∧
    hasty.calculation { recordTrace := true } ⟨[]⟩ = .ok hastyDone ∧
    hastyDone.trace.earlyReads = [2, 1] ∧
    ∃ id label, hasty.calculation { recordTrace := true, checkReads := true } ⟨[]⟩
      = .error (.refused (.graphDefect id label (.unwrittenSignal 2))) := by
  have hrun : hasty.calculation { recordTrace := true } ⟨[]⟩ = .ok hastyDone :=
    Action.final_eq_ok.mpr (Action.eq_ok_after (by decide +kernel))
  have hread : hastyDone.trace.earlyReads = [2, 1] := by decide +kernel
  have hon : Config.recordTrace { recordTrace := true } = true := rfl
  obtain ⟨-, hrefused, -⟩ := reads_conservative hasty_strict hon rfl ⟨[]⟩
  exact ⟨rfl, hrun, hread, hrefused hastyDone 2 [1] hrun hread⟩

end CircuitWitness
