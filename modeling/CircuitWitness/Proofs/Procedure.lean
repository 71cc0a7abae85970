import CircuitWitness.Proofs.Run
/-
  What procedures do, in terms of actions.

  A procedure is a tree of requests that ends at the first refusal.  To follow it is to perform its
  requests one after another, so following goes through the monad operations: through `pure`,
  through `bind` and through a loop over a list.  A proof about a body therefore never has to look
  at the tree; it reads the body as the action that its `do` block spells out.
-/

namespace CircuitWitness

open CircuitWitness.Action

variable {α β : Type} {enter : Enter} {c c' : Computation}

/-- What follows an action depends on how the action ended, and on nothing else. -/
theorem Action.bind_congr_left {x y : Action α} {f : α → Action β} (h : x c = y c') :
    (x >>= f) c = (y >>= f) c' := by
  simp only [bind, EStateM.bind, h]

theorem Program.runWith_bind (p : Program α) (f : α → Program β) :
    (p >>= f).runWith enter = p.runWith enter >>= fun a => (f a).runWith enter := by
  funext c
  induction p generalizing c with
  | done a => rfl
  | ask q next ih =>
    show (Program.ask q fun answer => next answer >>= f).runWith enter c = _
    cases hq : q.perform enter c with
    | ok a c' =>
      rw [runWith_answered hq, ih]
      exact (bind_congr_left (runWith_answered hq)).symm
    | error e c' =>
      by_cases he : ∃ r, e = .refused r
      · obtain ⟨r, rfl⟩ := he
        rw [runWith_refused hq, ih]
        exact (bind_congr_left (runWith_refused hq)).symm
      · have hlost : ∀ r, e ≠ .refused r := fun r hr => he ⟨r, hr⟩
        rw [runWith_lost hq hlost]
        exact (bind_error (runWith_lost hq hlost)).symm

namespace Procedure

theorem runWith_pure (a : α) : runWith enter (pure a) = pure a := rfl

theorem runWith_request (q : Request) : runWith enter (request q) = q.perform enter := by
  funext c
  show (Program.runWith enter (.ask q .done) >>= _) c = _
  cases hq : q.perform enter c with
  | ok a c' =>
    have hrun : Program.runWith enter (.ask q .done) c = .ok (.ok a) c' := runWith_answered hq
    exact bind_ok hrun
  | error f c' =>
    cases f with
    | refused e =>
      have hrun : Program.runWith enter (.ask q .done) c = .ok (.error e) c' := runWith_refused hq
      exact bind_ok hrun
    | outOfRange | tooDeep => exact bind_error (runWith_lost hq (by simp))

theorem runWith_bind (p : Procedure α) (f : α → Procedure β) :
    runWith enter (p >>= f) = runWith enter p >>= fun a => runWith enter (f a) := by
  funext c
  show (Program.runWith enter (ExceptT.run p >>= ExceptT.bindCont f) >>= _) c
    = ((Program.runWith enter (ExceptT.run p) >>= _) >>= _) c
  rw [Program.runWith_bind, bind_assoc, bind_assoc]
  cases hp : Program.runWith enter (ExceptT.run p) c with
  | error e c' => rw [bind_error hp, bind_error hp]
  | ok r c' =>
    rw [bind_ok hp, bind_ok hp]
    cases r with
    | ok a => rfl
    | error e => rfl

/-- What follows a procedure that returns. -/
theorem runWith_bind_ok {p : Procedure α} {f : α → Procedure β} {a : α}
    (h : runWith enter p c = .ok a c') :
    runWith enter (p >>= f) c = runWith enter (f a) c' :=
  (congrFun (runWith_bind p f) c).trans (bind_ok h)

/-- A procedure returns exactly if its program ends without a refusal. -/
theorem runWith_ok_iff {p : Procedure α} {a : α} :
    runWith enter p c = .ok a c' ↔ Program.runWith enter (ExceptT.run p) c = .ok (.ok a) c' := by
  show (Program.runWith enter (ExceptT.run p) >>= _ : Action α) c = _ ↔ _
  cases hr : Program.runWith enter (ExceptT.run p) c with
  | error f d => rw [bind_error hr]; simp
  | ok res d =>
    rw [bind_ok hr]
    cases res with
    | ok b => exact ⟨fun h => (by cases h; rfl), fun h => (by cases h; rfl)⟩
    | error e => exact ⟨fun h => (by cases h), fun h => (by cases h)⟩

/-- A loop over a list performs the rounds one after another. -/
theorem runWith_forM (l : List α) (f : α → Procedure Unit) :
    runWith enter (l.forM f) = l.forM fun a => runWith enter (f a) := by
  induction l with
  | nil => rfl
  | cons a l ih =>
    show runWith enter (f a >>= fun _ => l.forM f) = _
    rw [runWith_bind, ih]
    rfl

/-- What is said of a procedure at a state, and of the states in which it returns, is said of a loop
    over the first numbers as well, if it goes through `pure` and `bind`: the rounds keep an
    invariant. -/
theorem forM_range_rule {σ : Type} {T : Procedure Unit → σ → (σ → Prop) → Prop}
    (hpure : ∀ s Q, Q s → T (pure ()) s Q)
    (hbind : ∀ p f s I Q, T p s I → (∀ s', I s' → T (f ()) s' Q) → T (p >>= f) s Q)
    {n : Nat} {f : Nat → Procedure Unit} {s : σ} {Q : σ → Prop} (I : Nat → σ → Prop)
    (hstart : I 0 s) (hround : ∀ j < n, ∀ s', I j s' → T (f j) s' (I (j + 1)))
    (hQ : ∀ s', I n s' → Q s') : T ((List.range n).forM f) s Q := by
  -- From round `j` on, with `m` rounds to come.
  suffices h : ∀ m j s', j + m = n → I j s' → T ((List.range' j m).forM f) s' Q by
    rw [List.range_eq_range']
    exact h n 0 s (Nat.zero_add n) hstart
  intro m
  induction m with
  | zero =>
    rintro j s' rfl hj
    exact hpure s' Q (hQ s' hj)
  | succ m ih =>
    intro j s' hn hj
    rw [List.range'_succ]
    exact hbind _ _ _ _ _ (hround j (by omega) s' hj) fun s'' hnext =>
      ih (j + 1) s'' (by omega) hnext

end Procedure
end CircuitWitness
