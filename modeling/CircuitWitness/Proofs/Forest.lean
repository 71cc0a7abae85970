import Mathlib.Order.WellFounded
import CircuitWitness.Proofs.Abreast
import CircuitWitness.Proofs.Release
/-
  Ownership is a forest.

  A component keeps the handles of its children in slots, and a child names its parent.  The slot
  is filled before the child exists, it may be filled again with a later child, and it may be
  emptied by a release.  As long as every request is answered, the two always agree: what a slot
  holds exists, its parent is the holder, and no other slot holds it; and whoever follows the slots
  downwards comes to an end (`Registry.Forest`).

  All changes but one leave the parents alone and hold no more than before, and such changes
  preserve forests (`Forest.fewer`).  The exception is a new child.  Its handle was not in use, so
  nothing holds it but the slot that was just filled, and it holds nothing itself; a new leaf keeps
  a forest a forest (`Forest.adopt`).

  A refused creation leaves a slot that holds a component of somebody else or none at all, so the
  requests of the run have to be answered (`Program.Succeeds`), also those of the bodies.  Where the
  bodies give up at the first refusal, they are if the run as a whole succeeds
  (`Program.Strict.succeeds`).
-/

namespace CircuitWitness

open CircuitWitness.Action

variable {c c' : Computation} {levels : Nat} {α : Type} {reg reg' : Registry}

/-! ## Forests -/

namespace Registry

/-- A slot of a component holds a child. -/
def Holds (reg : Registry) (owner : Handle) (slot : Nat) (child : Handle) : Prop :=
  ∃ r, reg.get? owner = some r ∧ r.slots[slot]? = some (some child)

/-- A component exists and names a parent, or none. -/
def Names (reg : Registry) (child : Handle) (parent : Option Handle) : Prop :=
  ∃ r, reg.get? child = some r ∧ r.parent = parent

/-- Some slot of a component holds a child. -/
def Owns (reg : Registry) (owner child : Handle) : Prop := ∃ slot, reg.Holds owner slot child

/-- What slots hold exists and names its holder, no two slots hold the same, and whoever follows
    the slots downwards comes to an end. -/
structure Forest (reg : Registry) : Prop where
  parent : ∀ {owner : Handle} {slot : Nat} {child : Handle}, reg.Holds owner slot child →
    reg.Names child (some owner)
  once : ∀ {owner owner' : Handle} {slot slot' : Nat} {child : Handle},
    reg.Holds owner slot child → reg.Holds owner' slot' child → owner' = owner ∧ slot' = slot
  founded : WellFounded fun child owner => reg.Owns owner child

/-! ### What changes of one record do -/

section

variable {id owner child other : Handle} {slot : Nat} {parent : Option Handle}

theorem Names.modify (h : reg.Names child parent) (id : Handle) {f : Component → Component}
    (hf : ∀ r, (f r).parent = r.parent) : (reg.modify id f).Names child parent := by
  obtain ⟨r, hr, hp⟩ := h
  unfold Names
  rw [get?_modify]
  by_cases he : id = child
  · subst he
    exact ⟨f r, by rw [if_pos rfl, hr]; rfl, (hf r).trans hp⟩
  · exact ⟨r, by rw [if_neg he, hr], hp⟩

theorem Names.create (h : reg.Names child parent) {r : Component}
    (hr : reg.create id r = .ok reg') : reg'.Names child parent := by
  obtain ⟨hfree, -, -, hget⟩ := create_ok hr
  obtain ⟨r', hr', hp⟩ := h
  have hne : id ≠ child := fun he => by
    rw [he, hr'] at hfree
    cases hfree
  exact ⟨r', by rw [hget, if_neg hne, hr'], hp⟩

/-- Where a change of a record fills no slot, nothing is held that was not held before. -/
theorem Holds.of_modify {f : Component → Component}
    (hf : ∀ (r : Component) (j : Nat) (d : Handle), (f r).slots[j]? = some (some d) →
      r.slots[j]? = some (some d))
    (h : (reg.modify id f).Holds owner slot child) : reg.Holds owner slot child := by
  obtain ⟨r, hr, hslot⟩ := h
  rw [get?_modify] at hr
  by_cases he : id = owner
  · rw [if_pos he] at hr
    obtain ⟨r₀, hr₀, rfl⟩ := Option.map_eq_some_iff.mp hr
    exact ⟨r₀, he ▸ hr₀, hf r₀ slot child hslot⟩
  · rw [if_neg he] at hr
    exact ⟨r, hr, hslot⟩

/-- When a handle is kept, its slot holds it, and the others hold what they held before. -/
theorem Holds.of_keep {keeper new : Handle} {j : Nat}
    (h : (reg.modify keeper fun r => { r with
      slots := r.slots.setIfInBounds j (some new) }).Holds owner slot child) :
    (owner = keeper ∧ slot = j ∧ child = new) ∨ reg.Holds owner slot child := by
  obtain ⟨r, hr, hslot⟩ := h
  rw [get?_modify] at hr
  by_cases he : keeper = owner
  · rw [if_pos he] at hr
    obtain ⟨r₀, hr₀, rfl⟩ := Option.map_eq_some_iff.mp hr
    by_cases hj : j = slot
    · subst hj
      obtain ⟨hin, hval⟩ := Array.getElem?_eq_some_iff.mp hslot
      rw [Array.getElem_setIfInBounds_self] at hval
      exact .inl ⟨he.symm, rfl, (Option.some.inj hval).symm⟩
    · rw [Array.getElem?_setIfInBounds_ne hj] at hslot
      exact .inr ⟨r₀, he ▸ hr₀, hslot⟩
  · rw [if_neg he] at hr
    exact .inr ⟨r, hr, hslot⟩

variable {t : TemplateId} {start inputs slots : Nat} {label : String}

/-- A component that is created holds nothing. -/
theorem fresh_holds_nothing :
    (Component.fresh t start inputs slots label parent).slots[slot]? ≠ some (some child) := by
  unfold Component.fresh
  simp [Array.getElem?_replicate]

theorem Holds.of_create (hr : reg.create id (.fresh t start inputs slots label parent) = .ok reg')
    (h : reg'.Holds owner slot child) : id ≠ owner ∧ reg.Holds owner slot child := by
  obtain ⟨-, -, -, hget⟩ := create_ok hr
  obtain ⟨r, hr, hslot⟩ := h
  rw [hget] at hr
  by_cases he : id = owner
  · rw [if_pos he] at hr
    cases hr
    exact absurd hslot fresh_holds_nothing
  · rw [if_neg he] at hr
    exact ⟨he, r, hr, hslot⟩

namespace Forest

theorem empty (n : Nat) : (Registry.empty n).Forest := by
  have hno : ∀ {owner slot child}, ¬ (Registry.empty n).Holds owner slot child := by
    rintro owner slot child ⟨r, hr, -⟩
    rw [get?_empty] at hr
    cases hr
  exact ⟨fun h => absurd h hno, fun h => absurd h hno,
    ⟨fun owner => .intro owner fun child ⟨_, h⟩ => absurd h hno⟩⟩

/-- Nothing is held that was not held before, and parents stay. -/
theorem fewer (h : reg.Forest)
    (hholds : ∀ {owner slot child}, reg'.Holds owner slot child → reg.Holds owner slot child)
    (hnames : ∀ {child parent}, reg.Names child parent → reg'.Names child parent) : reg'.Forest :=
  ⟨fun hold => hnames (h.parent (hholds hold)),
    fun hold hold' => h.once (hholds hold) (hholds hold'),
    Subrelation.wf (fun ⟨slot, hold⟩ => ⟨slot, hholds hold⟩) h.founded⟩

theorem modify (h : reg.Forest) (id : Handle) {f : Component → Component}
    (hparent : ∀ r : Component, (f r).parent = r.parent)
    (hslots : ∀ (r : Component) (j : Nat) (d : Handle), (f r).slots[j]? = some (some d) →
      r.slots[j]? = some (some d)) : (reg.modify id f).Forest :=
  h.fewer (fun hold => hold.of_modify hslots) fun hnames => hnames.modify id hparent

theorem create (h : reg.Forest)
    (hr : reg.create id (.fresh t start inputs slots label parent) = .ok reg') : reg'.Forest :=
  h.fewer (fun hold => (hold.of_create hr).2) fun hnames => hnames.create hr

/-- **A new leaf.**  The handle of a new child is put into a slot of its parent, and the child is
    created. -/
theorem adopt (h : reg.Forest)
    (hr : (reg.modify owner fun r => { r with
      slots := r.slots.setIfInBounds slot (some child) }).create child
        (.fresh t start inputs slots label (some owner)) = .ok reg') : reg'.Forest := by
  obtain ⟨hfree, -, -, hget⟩ := create_ok hr
  have hkept : ∀ {d parent}, reg.Names d parent → (reg.modify owner fun r => { r with
      slots := r.slots.setIfInBounds slot (some child) }).Names d parent := fun hd =>
    hd.modify owner fun _ => rfl
  -- What is held now is the new child in its slot, or it was held before.
  have hold : ∀ {o j d}, reg'.Holds o j d →
      (o = owner ∧ j = slot ∧ d = child) ∨ reg.Holds o j d := fun hheld =>
    (hheld.of_create hr).2.of_keep
  have hnew : ∀ {o j}, ¬ reg.Holds o j child := fun hheld => by
    obtain ⟨r, hr, -⟩ := hkept (h.parent hheld)
    rw [hfree] at hr
    cases hr
  refine ⟨fun hheld => ?_, fun hheld hheld' => ?_, ⟨fun o => ?_⟩⟩
  · rcases hold hheld with ⟨rfl, rfl, rfl⟩ | hheld
    · exact ⟨_, by rw [hget, if_pos rfl], rfl⟩
    · exact (hkept (h.parent hheld)).create hr
  · rcases hold hheld with ⟨rfl, rfl, rfl⟩ | hheld
    · rcases hold hheld' with ⟨rfl, rfl, -⟩ | hheld'
      · exact ⟨rfl, rfl⟩
      · exact absurd hheld' hnew
    · rcases hold hheld' with ⟨-, -, rfl⟩ | hheld'
      · exact absurd hheld hnew
      · exact h.once hheld hheld'
  · -- Below an old component there are old components and the new leaf.
    induction o using h.founded.induction with
    | _ o ih =>
      refine .intro o fun d hd => ?_
      obtain ⟨j, hheld⟩ := hd
      rcases hold hheld with ⟨-, -, rfl⟩ | hheld
      · exact .intro _ fun e ⟨_, he⟩ => absurd rfl (he.of_create hr).1
      · exact ih d ⟨j, hheld⟩

/-- Following the slots downwards never leads back. -/
theorem acyclic (h : reg.Forest) (id : Handle) : ¬ Relation.TransGen reg.Owns id id := by
  intro hcycle
  have hswap : Relation.TransGen (fun child owner => reg.Owns owner child) id id :=
    Relation.transGen_swap.mp hcycle
  exact h.founded.transGen.irrefl.irrefl id hswap

end Forest

end

end Registry

/-! ## Every request keeps ownership a forest -/

/-- Ownership stays a forest in all that the engine does without keeping handles. -/
theorem Registry.Forest.lasting : Lasting fun _ reg => reg.Forest where
  counted h id _ := h.modify id (fun _ => rfl) fun _ _ _ hslot => hslot
  enrolled h _ _ _ _ _ _ _ hr := h.create hr
  begun h id _ := h.modify id (fun _ => rfl) fun _ _ _ hslot => hslot
  ended h id _ := h.modify id (fun _ => rfl) fun _ _ _ hslot => hslot
  dropped {config _} h id _ := by
    refine h.modify id (fun _ => rfl) fun r j d hslot => ?_
    have hslot : (if config.reclaim then #[] else r.slots)[j]? = some (some d) := hslot
    split at hslot
    · simp at hslot
    · exact hslot

/-- The request is answered. -/
def Request.Answered (levels : Nat) (q : Request) (c : Computation) : Prop :=
  ∃ a d, q.perform (enterWithin levels) c = .ok a d

section

variable {enter : Enter} {parent child : Handle} {slot start : Nat} {t : TemplateId}
  {label : String} {u : Unit}

theorem of_keepChild (h : keepChild parent slot child c = .ok u c') :
    c' = c.kept parent slot child := by
  cases hr : c.registry.get? parent with
  | none => cases (keepChild_unknown hr).symm.trans h
  | some r =>
    by_cases hs : slot < r.slots.size
    · cases (keepChild_ok hr hs).symm.trans h
      rfl
    · cases (keepChild_outside hr (Nat.le_of_not_lt hs)).symm.trans h

/-- A creation that returns has entered the component; then the component runs, or it waits for its
    inputs. -/
theorem of_create {owner : Option Handle}
    (h : create enter child t start label owner c = .ok u c') :
    ∃ (shape : TemplateShape) (reg : Registry),
      c.registry.create child
        (.fresh t start shape.inputCounter shape.slots label owner) = .ok reg ∧
      ∀ enter, create enter child t start label owner c
        = (if shape.inputs = 0 then trigger enter child else pure () : Action Unit)
          (c.enrolled reg child t) := by
  cases hshape : c.circuit.templates.shape? t with
  | none => cases (create_unknown hshape).symm.trans h
  | some shape =>
    cases hreg : c.registry.create child
        (.fresh t start shape.inputCounter shape.slots label owner) with
    | error e => cases (create_refused hshape hreg).symm.trans h
    | ok reg =>
      refine ⟨shape, reg, hreg, fun enter => ?_⟩
      rw [create_ok hshape hreg]
      split <;> rfl

/-- An answered creation of a child puts the handle into a slot and enters the child. -/
theorem Request.Answered.createChild
    (h : (Request.createChild parent slot child t start label).Answered levels c) :
    ∃ (shape : TemplateShape) (reg : Registry),
      (c.kept parent slot child).registry.create child
        (.fresh t start shape.inputCounter shape.slots label (some parent)) = .ok reg ∧
      ∀ enter, (Request.createChild parent slot child t start label).perform enter c
        = (if shape.inputs = 0 then Action.trigger enter child else pure () : Action Unit)
          ((c.kept parent slot child).enrolled reg child t) := by
  obtain ⟨a, d, h⟩ := h
  obtain ⟨u, c₁, hkeep, hcreate⟩ := of_bind_ok h
  obtain rfl := of_keepChild hkeep
  obtain ⟨shape, reg, hreg, hrun⟩ := of_create hcreate
  exact ⟨shape, reg, hreg, fun enter => (bind_ok hkeep).trans (hrun enter)⟩

end

/-- **Answered requests keep ownership a forest.** -/
theorem Registry.Forest.preserves :
    Registry.Forest.lasting.likeness.Preserves Request.Answered := by
  rintro levels q c c' ⟨rfl, h⟩ hq hbody
  by_cases hkeeps : ∃ parent slot child t start label,
      q = .createChild parent slot child t start label
  · obtain ⟨parent, slot, child, t, start, label, rfl⟩ := hkeeps
    obtain ⟨shape, reg, hreg, hrun⟩ := hq.createChild
    have hafter : Woven fun enter =>
        (if shape.inputs = 0 then trigger enter child else pure () : Action Unit) :=
      .ite (.trigger child) (.pure ())
    have hforest : reg.Forest := h.adopt hreg
    refine .congr hrun hrun (hafter.meets lasting.reads ⟨rfl, hforest⟩ fun x hx => ?_)
    exact hbody x ((Enters.congr hrun).mpr hx)
  · refine Likeness.request lasting.reads ⟨rfl, h⟩ ⟨fun _ => rfl, fun _ _ => rfl, ?_⟩ hbody
    exact fun he => absurd ⟨_, _, _, _, _, _, he⟩ hkeeps

/-! ## Runs without refusals -/

/-- All requests of a run are answered, those of the bodies included. -/
def Program.Succeeds (levels : Nat) (p : Program α) (c : Computation) : Prop :=
  p.Along Request.Answered levels c

/-- **Where bodies give up at the first refusal**, all requests of a program that does so are
    answered if the program ends without one. -/
theorem Program.Strict.succeeds (levels : Nat) :
    ∀ {α : Type} {p : Program (Except Refusal α)} {c : Computation}, p.Strict → c.circuit.Strict →
      ∀ {a : α} {d : Computation}, p.runWith (enterWithin levels) c = .ok (.ok a) d →
        p.Succeeds levels c := by
  induction levels using Nat.strong_induction_on with
  | _ levels ihlevels =>
    intro α p
    induction p with
    | done => exact fun _ _ _ _ _ => .done
    | ask q next ih =>
      rintro c ⟨hrefused, hnext⟩ hc a d hr
      obtain ⟨hcircuit, hbodies⟩ := q.circuit_eq levels c
      cases hq : q.perform (enterWithin levels) c with
      | error f c' =>
        cases f with
        | refused e =>
          rw [runWith_refused hq, hrefused e] at hr
          cases hr
        | outOfRange | tooDeep =>
          rw [runWith_lost hq fun e => by simp] at hr
          cases hr
      | ok b c' =>
        rw [runWith_answered hq] at hr
        rw [after_ok hq] at hcircuit
        refine .ask ⟨b, c', hq⟩ (fun b' c'' hq' => ?_) (fun e c'' hq' => ?_) fun k x hk hx => ?_
        · cases hq.symm.trans hq'
          exact ih (.ok b) (hnext b) (hcircuit ▸ hc) hr
        · cases hq.symm.trans hq'
        · -- The request was answered, so the body returned.
          subst hk
          obtain ⟨s, hs⟩ := (q.schematic.outcome _ c).1 b c' hq x hx
          obtain ⟨hx, hruns⟩ := hbodies x hx
          exact ihlevels k (Nat.lt_succ_self k) (hc _ hruns x.id) (hx ▸ hc)
            (Entry.returns_iff.mp hs)

/-! ## The theorem -/

/-- The children of a component that are released are those that its slots hold. -/
theorem Request.releaseChildren_leaves {enter : Enter} {parent child : Handle}
    (hno : ¬ c.registry.Owns parent child) :
    (((Request.releaseChildren parent).perform enter).after c).registry.get? child
      = c.registry.get? child := by
  obtain ⟨ids, hids, hfrees⟩ := releaseChildren_frees parent c
  refine hfrees.others child fun hchild => hno ?_
  obtain ⟨r, hr, hslots⟩ := hids child hchild
  obtain ⟨slot, hslot⟩ := Array.mem_iff_getElem?.mp hslots
  exact ⟨slot, r, hr, hslot⟩

/-- **Ownership is a forest.**  All requests of a run are answered, those of the bodies included.
    Then at every moment of the run:

    * what a slot holds exists, its parent is the component that has the slot, and no other slot of
      any component holds it;
    * no walk along slots leads back to where it began, and every walk comes to an end;
    * whatever another component owns is left alone when the children of a component are
      released. -/
theorem Program.Visits.ownership_forest {p : Program α} {circuit : Circuit} {config : Config}
    {m : Moment} {next : Option Request} (hok : p.Succeeds levels (.start circuit config))
    (hv : p.Visits levels (.start circuit config) next m) :
    (∀ owner slot child, m.state.registry.Holds owner slot child →
      (∃ r, m.state.registry.get? child = some r ∧ r.parent = some owner) ∧
      ∀ owner' slot', m.state.registry.Holds owner' slot' child → owner' = owner ∧ slot' = slot) ∧
    (∀ id, ¬ Relation.TransGen m.state.registry.Owns id id) ∧
    (WellFounded fun child owner => m.state.registry.Owns owner child) ∧
    ∀ enter parent owner child, m.state.registry.Owns owner child → owner ≠ parent →
      (((Request.releaseChildren parent).perform enter).after m.state).registry.get? child
        = m.state.registry.get? child := by
  have hstart : Registry.Forest.lasting.likeness.Alike (.start circuit config)
      (.start circuit config) := ⟨rfl, .empty circuit.totalComponents⟩
  obtain ⟨-, habreast⟩ := Likeness.abreast Registry.Forest.preserves hstart hok
  obtain ⟨d', ⟨-, hforest⟩, -⟩ := habreast.visits hv
  refine ⟨fun owner slot child hold => ⟨hforest.parent hold, fun _ _ hold' =>
    hforest.once hold hold'⟩, hforest.acyclic, hforest.founded, ?_⟩
  rintro enter parent owner child ⟨slot, hold⟩ hne
  exact Request.releaseChildren_leaves fun ⟨slot', hold'⟩ => hne (hforest.once hold' hold).1

/-! ## The small circuit -/

/-- The main component of the small circuit runs, and its child is released. -/
def relayOwning : Procedure Unit := do
  Procedure.create ⟨0⟩ ⟨0⟩ 1 "main" none
  Procedure.writeInput ⟨0⟩ 1 5
  Procedure.writeInput ⟨0⟩ 2 7
  Procedure.releaseChildren ⟨0⟩

/-- The child is released. -/
def relayFreed : Computation :=
  ((Request.releaseChildren ⟨0⟩).perform (enterWithin 2)).after relayOwned

/-- The same for the small circuit, before the child is released: the only slot holds the child, and
    no walk along slots leads back to the main component. -/
theorem Program.Visits.ownership_forest_relay :
    relayOwned.registry.Holds ⟨0⟩ 0 ⟨1⟩ ∧
    (∃ r, relayOwned.registry.get? ⟨1⟩ = some r ∧ r.parent = some ⟨0⟩) ∧
    (∀ owner slot, relayOwned.registry.Holds owner slot ⟨1⟩ → owner = ⟨0⟩ ∧ slot = 0) ∧
    ¬ Relation.TransGen relayOwned.registry.Owns ⟨0⟩ ⟨0⟩ := by
  have hcreate : (Request.create ⟨0⟩ ⟨0⟩ 1 "main" none).perform (enterWithin 2)
      (.start relay .diagnostic) = .ok () relayCreated := rfl
  have hfirst : (Request.writeInput ⟨0⟩ 1 5).perform (enterWithin 2) relayCreated
      = .ok () relayWaiting := rfl
  have hsecond : (Request.writeInput ⟨0⟩ 2 7).perform (enterWithin 2) relayWaiting
      = .ok () relayOwned := Action.eq_ok_after (by decide +kernel)
  have hrelease : (Request.releaseChildren ⟨0⟩).perform (enterWithin 2) relayOwned
      = .ok () relayFreed := Action.eq_ok_after (by decide +kernel)
  have hstrict : Program.Strict (ExceptT.run relayOwning) :=
    ⟨fun _ => rfl, fun _ => ⟨fun _ => rfl, fun _ => ⟨fun _ => rfl, fun _ => ⟨fun _ => rfl,
      fun _ => trivial⟩⟩⟩⟩
  have hrun : (ExceptT.run relayOwning).runWith (enterWithin 2) (.start relay .diagnostic)
      = .ok (.ok ()) relayFreed :=
    (runWith_answered hcreate).trans ((runWith_answered hfirst).trans
      ((runWith_answered hsecond).trans (runWith_answered hrelease)))
  have hv : (ExceptT.run relayOwning).Visits 2 (.start relay .diagnostic)
      (some (.releaseChildren ⟨0⟩)) ⟨[], relayOwned⟩ :=
    .answered hcreate (.answered hfirst (.answered hsecond .asks))
  have hholds : relayOwned.registry.Holds ⟨0⟩ 0 ⟨1⟩ :=
    ⟨⟨⟨0⟩, 1, 0, #[some ⟨1⟩], none, "main", .finished⟩, by decide +kernel, rfl⟩
  obtain ⟨hforest, hacyclic, -⟩ := hv.ownership_forest (hstrict.succeeds 2 relay_strict hrun)
  obtain ⟨hparent, honce⟩ := hforest _ _ _ hholds
  exact ⟨hholds, hparent, honce, hacyclic ⟨0⟩⟩

end CircuitWitness
