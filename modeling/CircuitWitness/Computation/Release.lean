import CircuitWitness.Computation.Basic
/-
  Release: a parent gives back its children just before it returns.

  Only the handles that a component owned are dropped.  Signals are never touched, so the outputs
  of a released component stay readable.  Releasing again does nothing, and releasing a component
  that has not finished is refused.
-/

namespace CircuitWitness.Action

/-- Release a component; a slot without a child needs no release. -/
def release : Option Handle → Action Unit
  | none => return ()
  | some id => do
    match (← look fun c => c.component id).stage with
    | .released => return ()
    | .finished =>
      let reclaim := (← get).config.reclaim
      modifyComponent id fun r =>
        { r with slots := if reclaim then #[] else r.slots, stage := .released }
      record (.released id)
    | stage => defect id (.releasedEarly stage)

/-- Release some components one after another, up to the first that is refused. -/
def releaseAll : List (Option Handle) → Action Unit
  | [] => return ()
  | child :: rest => do
    release child
    releaseAll rest

/-- Release the children that a component has now, slot by slot. -/
def releaseChildren (parent : Handle) : Action Unit := do
  releaseAll (← look fun c => c.component parent).slots.toList

end CircuitWitness.Action
