import CircuitWitness.Proofs.Procedure
/-
  What actions leave if they return.

  `Action.Yields` says nothing of failures, so what may be refused needs no care: whoever follows an
  action splits on how each part ends, and the cases in which it fails are closed at once.  As for
  `Meets`, there is a rule for sequences and one for loops; but it is a whole computation that is
  followed here, with its trace, and not a view.
-/

namespace CircuitWitness

open CircuitWitness.Action

/-- If the action returns, then so that `Q` holds. -/
def Action.Yields {α : Type} (act : Action α) (c : Computation) (Q : α → Computation → Prop) :
    Prop :=
  ∀ a c', act c = .ok a c' → Q a c'

/-- The same of a procedure, given what it means to enter a body. -/
abbrev Procedure.Yields {α : Type} (enter : Enter) (p : Procedure α) (c : Computation)
    (Q : α → Computation → Prop) : Prop :=
  (Procedure.runWith enter p).Yields c Q

namespace Action.Yields

variable {α β : Type} {act : Action α} {c : Computation} {Q Q' : α → Computation → Prop}

/-- What is known of what an action leaves may be weakened. -/
theorem mono (h : act.Yields c Q) (hQ : ∀ a c', Q a c' → Q' a c') : act.Yields c Q' :=
  fun a c' hact => hQ a c' (h a c' hact)

/-- An action that returns leaves one state, which has to be as claimed. -/
theorem of_ok {a : α} {c' : Computation} (h : act c = .ok a c') (hQ : Q a c') :
    act.Yields c Q := by
  intro b d hact
  rw [h] at hact
  cases hact
  exact hQ

/-- Nothing is claimed of an action that fails. -/
theorem of_error {f : Fault} {c' : Computation} (h : act c = .error f c') : act.Yields c Q := by
  intro a d hact
  rw [h] at hact
  cases hact

/-- An action that ends as another one does, from whatever state, leaves what that one leaves. -/
theorem of_eq {act' : Action α} {c' : Computation} (h : act c = act' c') (h' : act'.Yields c' Q) :
    act.Yields c Q := fun a d hact => h' a d (h.symm.trans hact)

/-- What the first action leaves is what the second one is followed from. -/
theorem bind {k : α → Action β} {Q : β → Computation → Prop}
    (h : act.Yields c fun a c' => (k a).Yields c' Q) : (act >>= k).Yields c Q := by
  intro b d hbind
  obtain ⟨a, c', ha, hb⟩ := of_bind_ok hbind
  exact h a c' ha b d hb

/-- A look leaves the state as it is. -/
theorem look {f : Computation → Except Refusal α} (h : ∀ a, f c = .ok a → Q a c) :
    (look f).Yields c Q := by
  cases ha : f c with
  | error e => exact of_error (look_error ha)
  | ok a => exact of_ok (look_ok ha) (h a ha)

/-- To run the main component is to create it and to count its inputs. -/
theorem runMain {enter : Enter} {Q : Unit → Computation → Prop}
    (h : (create enter .mainComponent c.circuit.mainTemplate c.circuit.mainSignalStart "main"
        none).Yields c fun _ c' =>
      (arriveAll enter (List.range' c.circuit.mainInputStart c.circuit.mainInputCount)).Yields
        c' Q) : (Action.runMain enter).Yields c Q := by
  have hrun := bind h
  exact of_eq rfl hrun

section

variable {enter : Enter} {I : Computation → Prop}
  (hassigned : ∀ c i v, I c → I (c.assigned i v))
  (hmain : ∀ c, I c → (Action.runMain enter).Yields c fun _ => I)

include hassigned hmain

/-- What elements that are accepted keep, and runs of the main component keep, an element keeps. -/
theorem assignByHash (h : I c) (hash : UInt64) (index : Nat) (v : Scalar) :
    (Action.assignByHash enter hash index v).Yields c fun _ => I := by
  cases hi : c.inputSlot hash index with
  | error e => exact of_error (assignByHash_refused hi)
  | ok i =>
    cases hw : c.store.isWritten? i with
    | none => exact of_error (assignByHash_outOfRange hi hw)
    | some w =>
      cases w with
      | true => exact of_error (assignByHash_twice hi hw)
      | false =>
        have hnext := hassigned c i v h
        by_cases hlast : c.pendingInputs - 1 = 0
        · exact of_eq ((assignByHash_ok hi hw).trans (if_pos hlast)) (hmain _ hnext)
        · exact of_ok ((assignByHash_ok hi hw).trans (if_neg hlast)) hnext

/-- An invariant that an assignment by hash keeps is kept by one by name, which refuses or makes
    it. -/
theorem assignByName (h : I c) (name : String) (index : Nat) (v : Scalar) :
    (Action.assignByName enter name index v).Yields c fun _ => I := by
  cases hs : c.circuit.inputs.findName? name with
  | none => exact of_error (assignByName_unknown hs)
  | some s => exact of_eq (assignByName_known hs) (assignByHash hassigned hmain h _ index v)

/-- And by the assignments of one input's elements, one after another. -/
theorem assignElements (h : I c) (name : String) (index : Nat) (vs : List Scalar) :
    (Action.assignElements enter name index vs).Yields c fun _ => I := by
  induction vs generalizing c index with
  | nil => exact of_ok rfl h
  | cons v rest ih =>
    exact .bind ((assignByName hassigned hmain h name index v).mono fun _ _ h => ih h (index + 1))

/-- And by those of all inputs. -/
theorem assignEntries (h : I c) (entries : List (String × List Scalar)) :
    (Action.assignEntries enter entries).Yields c fun _ => I := by
  induction entries generalizing c with
  | nil => exact of_ok rfl h
  | cons entry rest ih =>
    exact .bind ((assignElements hassigned hmain h entry.1 0 entry.2).mono fun _ _ h => ih h)

end

end Action.Yields

namespace Procedure.Yields

variable {α β : Type} {enter : Enter} {c : Computation}

/-- Procedures have the same rules as actions; one that is over has left what it left. -/
theorem pure {a : α} {Q : α → Computation → Prop} (hQ : Q a c) : Yields enter (pure a) c Q :=
  Action.Yields.of_ok rfl hQ

/-- The rule for sequences. -/
theorem bind {p : Procedure α} {f : α → Procedure β} {Q : β → Computation → Prop}
    (h : Yields enter p c fun a c' => Yields enter (f a) c' Q) : Yields enter (p >>= f) c Q := by
  unfold Yields
  rw [runWith_bind]
  exact Action.Yields.bind h

/-- A request leaves what answering it leaves. -/
theorem request {q : Request} {Q : q.Answer → Computation → Prop}
    (h : (q.perform enter).Yields c Q) : Yields enter (request q) c Q := by
  unfold Yields
  rw [runWith_request]
  exact h

/-- A loop over the first numbers keeps an invariant, from round to round. -/
theorem forM_range {n : Nat} {f : Nat → Procedure Unit} {Q : Unit → Computation → Prop}
    (I : Nat → Computation → Prop) (hstart : I 0 c)
    (hround : ∀ j c', I j c' → Yields enter (f j) c' fun _ => I (j + 1))
    (hQ : ∀ c', I n c' → Q () c') : Yields enter ((List.range n).forM f) c Q :=
  forM_range_rule (T := fun p c Q => Yields enter p c fun _ => Q) (fun _ _ hQ => pure hQ)
    (fun _ _ _ _ _ h hf => bind (h.mono fun _ => hf)) I hstart (fun j _ => hround j) hQ

end Procedure.Yields

end CircuitWitness
