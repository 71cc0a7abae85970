import CircuitWitness.Proofs.Decided
import CircuitWitness.Proofs.Sample.Bodies
import CircuitWitness.Proofs.Sample.Main
/-
  The sample circuits pass the audit, whatever their inputs are.

  Their bodies are compiled ones, so a run that returns is in order as soon as it returns with
  strict reads as well.  For the circuits of multipliers that is so because they always return.  The
  large circuit returns if its gate does, and that is decided by two of the main inputs.

  An array may also be created by hand, and its inputs written in any order.  Then its body begins
  in the same view, as far as the body can tell.

  An array may be so wide that its inputs cannot be counted.  It is accepted, but no run of it
  returns.
-/

namespace CircuitWitness.Sample

open Circuit

variable {k : Nat} {config : Config} {inputs : InputValues} {c : Computation}
  {E : Fault → View → Prop}

/-! ## Where the bodies of the main components return -/

/-- The name of each input leads back to its signals. -/
theorem addressed_multiplier : multiplierCircuit.Addressed :=
  .of_accept multiplierInputs_eq accept_multiplier rfl (by decide) (by decide)

theorem gives_multiplier {a b : Scalar} (hinputs : inputs.entries.Perm [("a", [a]), ("b", [b])]) :
    multiplierCircuit.Gives [a, b] inputs := hinputs

/-- The multiplier returns for all inputs. -/
theorem multiplierCircuit_returns (a b : Scalar) : multiplierCircuit.ReturnsIff [a, b] True := by
  intro config body hbody
  have hruns : Runs multiplierCircuit arrayWidth := ⟨rfl, rfl⟩
  cases (hruns.body? multiplierId rfl config.useAlternate).symm.trans hbody
  obtain ⟨-, hin⟩ := addressed_multiplier.holds_begunView config [a, b]
  show Procedure.Meets (enterWithin 0) (multiplierBody .mainComponent) _ _ _
  refine multiplierBody_meets (records_begunView ..) hin (by rw [size_begunView]; decide) ?_
  rw [View.records_write]
  exact ⟨⟨_, records_begunView ..⟩, trivial⟩

/-- So assigning its inputs by name or in order comes to the same. -/
theorem multiplierCircuit_decides : multiplierCircuit.Decides := by
  intro values hlen
  obtain ⟨a, b, rfl⟩ : ∃ a b, values = [a, b] := List.length_eq_two.mp hlen
  exact ⟨True, multiplierCircuit_returns a b⟩

/-- The array returns for all inputs, if its counter holds their number. -/
theorem arrayCircuit_returns (hk : 2 * k < 2 ^ 32) (a b : Fin k → Scalar) :
    (arrayCircuit k).ReturnsIff (List.ofFn a ++ List.ofFn b) True := by
  intro config body hbody
  have hruns : Runs (arrayCircuit k) k := ⟨rfl, rfl⟩
  cases (hruns.body? multiplierArrayId rfl config.useAlternate).symm.trans hbody
  exact (arrayCircuit_meets hk (Nat.le_refl k)).mono (fun _ _ hr => ⟨hr.1, trivial⟩)
    fun _ _ hfalse => hfalse

theorem arrayCircuit_decides (hk : 2 * k < 2 ^ 32) : (arrayCircuit k).Decides := by
  intro values hlen
  -- The row is two vectors, one after the other.
  obtain ⟨a, b, rfl⟩ : ∃ a b : Fin k → Scalar, values = List.ofFn a ++ List.ofFn b := by
    have htwo : values.length = 2 * k := hlen
    refine ⟨fun i => values[i], fun i => values[k + i], List.ext_getElem ?_ fun i hi _ => ?_⟩
    · simp
      omega
    · simp only [List.getElem_append, List.length_ofFn, List.getElem_ofFn, Fin.getElem_fin]
      split
      · rfl
      · simp [show k + (i - k) = i by omega]
  exact ⟨True, arrayCircuit_returns hk a b⟩

/-- The large circuit returns if its gate is off or the number to be decomposed has so few bits. -/
theorem sampleCircuit_returns (a b : Fin 3 → Scalar) (x flag : Scalar) :
    sampleCircuit.ReturnsIff (mainInputValues a b x flag) (flag = 0 ∨ x.val < 2 ^ bits) := by
  intro config body hbody
  have hruns : Runs sampleCircuit arrayWidth := ⟨rfl, rfl⟩
  cases (hruns.body? mainId rfl config.useAlternate).symm.trans hbody
  exact (sampleCircuit_meets 4 fun hx _ => hx).mono (fun _ _ ⟨hr, hx, _⟩ => ⟨hr, hx⟩)
    fun _ _ hx => hx

theorem sampleCircuit_decides : sampleCircuit.Decides := by
  intro values hlen
  match values, hlen with
  | [a₀, a₁, a₂, b₀, b₁, b₂, x, flag], _ =>
    exact ⟨_, sampleCircuit_returns ![a₀, a₁, a₂] ![b₀, b₁, b₂] x flag⟩

/-! ## Arrays that are fed by hand -/

/-- Whatever the order of its inputs is, an array that is fed by hand comes to its end. -/
theorem byHand_meets (hk : 2 * k < 2 ^ 32) (config : Config) (label : String) {order : List Nat}
    (horder : order.Perm (List.range' k (2 * k))) (values : Nat → Scalar) :
    Procedure.Meets (enterWithin (k + 1))
      (Procedure.byHand .mainComponent multiplierArrayId 1 label none order values)
      (Computation.start (arrayCircuit k) config).view
      (fun _ w => ∃ r, w.records .mainComponent = some r ∧ r.stage = .finished) E := by
  have hruns : Runs (arrayCircuit k) k := ⟨rfl, rfl⟩
  refine .byHand (Computation.records_view_start ..) ?_ (hruns.shape? multiplierArrayId rfl) hk ?_
    (hruns.body? multiplierArrayId rfl _) horder fun w hw hwritten hr => ?_
  · rw [Computation.capacity_view_start]
    exact Nat.succ_pos k
  · rw [Computation.size_view_start, totalSignals_array]
    show 1 + (k + 2 * k) ≤ _
    omega
  · -- The inputs that were written are two vectors, one after the other.
    have hvector : ∀ offset, k ≤ offset → offset + k ≤ 3 * k →
        w.Holds (1 + offset) (List.ofFn fun i : Fin k => values (offset + i)) := by
      refine fun offset hlow hhigh => View.holds_ofFn.mpr fun i => ?_
      rw [Nat.add_assoc]
      exact hwritten _ (horder.mem_iff.mpr (List.mem_range'_1.mpr (by omega)))
    have hfree : ∀ j, w.records (multiplierAt .mainComponent j) = none := by
      intro j
      rw [hw.records _ (.inr ?_), Computation.records_view_start]
      show 0 + 1 ≤ 0 + (1 + j)
      omega
    show Procedure.Meets (enterWithin k) (multiplierArrayBody k .mainComponent) w _ _
    exact multiplierArrayBody_meets (room_array hk hw.circuit
        (hw.size.trans (Computation.size_view_start ..))
        (hw.capacity.trans (Computation.capacity_view_start ..)))
      (Nat.le_refl k) hr (Array.size_replicate ..) (fun j _ => hfree j)
      (hvector k (Nat.le_refl k) (by omega)) (hvector (2 * k) (by omega) (by omega))
      fun w' _ ⟨r, hr⟩ _ => ⟨r, hr, _, View.records_put_self .., rfl⟩

/-- The array made by hand returns, in whatever order its inputs are written. -/
theorem byHand_returns (hk : 2 * k < 2 ^ 32) (config : Config) (label : String) {order : List Nat}
    (horder : order.Perm (List.range' k (2 * k))) (values : Nat → Scalar) : ∃ c,
    (Procedure.byHand .mainComponent multiplierArrayId 1 label none order values).run
      (.start (arrayCircuit k) config) = .ok () c ∧
    c.registry.stage? .mainComponent = some .finished := by
  obtain ⟨_, c, hrun, r, hr, hs⟩ := (byHand_meets hk config label horder values).returns rfl
  refine ⟨c, ?_, ?_⟩
  · unfold Procedure.run
    rw [Computation.nesting_start]
    exact hrun
  · exact Registry.stage?_eq_some.mpr ⟨r, hr, hs⟩

/-! ## Order -/

/-- A calculation with an array that returns is in order. -/
theorem arrayCircuit_inOrder (hon : config.recordTrace = true)
    (h : (arrayCircuit k).calculation config inputs = .ok c) : c.InOrder := by
  have hruns : Runs (arrayCircuit k) k := ⟨rfl, rfl⟩
  have hk : 2 * k < 2 ^ 32 := Action.feed_countable (hruns.shape? multiplierArrayId rfl)
    (Registry.get?_empty (k + 1) .mainComponent) _ _ (feed_of_calculation h)
  exact calculation_inOrder (addressed_array hk).feedable (hruns.countersFit hk) hruns.compiled
    (arrayCircuit_decides hk) hon h

/-- An array that is fed by hand and returns is in order. -/
theorem byHand_inOrder (hon : config.recordTrace = true) {label : String} {order : List Nat}
    {values : Nat → Scalar} (horder : order.Perm (List.range' k (2 * k)))
    (h : (Procedure.byHand .mainComponent multiplierArrayId 1 label none order values).run
      (.start (arrayCircuit k) config) = .ok () c) : c.InOrder := by
  have hruns : Runs (arrayCircuit k) k := ⟨rfl, rfl⟩
  have hk : 2 * k < 2 ^ 32 := Procedure.byHand_countable (hruns.shape? multiplierArrayId rfl)
    (horder.length_eq.trans (List.length_range' ..)) _ _ h
  obtain ⟨c₁, hrun, hfinished⟩ := byHand_returns hk config label horder values
  cases h.symm.trans hrun
  obtain ⟨_, hstrict, -⟩ := byHand_returns hk config.strict label horder values
  refine Procedure.inOrder (hruns.countersFit hk) hruns.compiled hon
    (Procedure.byHand_asks _ _ _ _ _ _) h hstrict ?_
  rw [hfinished]
  simp

/-- **Every run of the sample circuits that returns passes the audit, in order.**  Runs with the
    large circuit return unless its gate fails, those with the circuits of multipliers always, as
    long as the inputs can be counted.  An array may be created by hand as well, and its inputs
    written in any order. -/
theorem runs_inOrder (config : Config) (hon : config.recordTrace = true) :
    (∃ circuit, sample = .ok circuit ∧
      (∀ inputs c, circuit.calculation config inputs = .ok c → c.InOrder) ∧
      ∀ (a b : Fin 3 → Scalar) (x flag : Scalar) (inputs : InputValues), inputs.entries.Perm
          [("a", List.ofFn a), ("b", List.ofFn b), ("x", [x]), ("flag", [flag])] →
        flag = 0 ∨ x.val < 16 → ∃ c, circuit.calculation config inputs = .ok c) ∧
    (∃ circuit, multiplier = .ok circuit ∧
      (∀ inputs c, circuit.calculation config inputs = .ok c → c.InOrder) ∧
      ∀ (a b : Scalar) (inputs : InputValues), inputs.entries.Perm [("a", [a]), ("b", [b])] →
        ∃ c, circuit.calculation config inputs = .ok c) ∧
    ∀ k, ∃ circuit, multiplierArray k = .ok circuit ∧
      (∀ inputs c, circuit.calculation config inputs = .ok c → c.InOrder) ∧
      (2 * k < 2 ^ 32 → ∀ (a b : Fin k → Scalar) (inputs : InputValues),
        inputs.entries.Perm [("a", List.ofFn a), ("b", List.ofFn b)] →
        ∃ c, circuit.calculation config inputs = .ok c) ∧
      ∀ (order : List Nat) (label : String) (values : Nat → Scalar),
        order.Perm (List.range' k (2 * k)) →
        (∀ c, (Procedure.byHand .mainComponent multiplierArrayId 1 label none order values).run
          (.start circuit config) = .ok () c → c.InOrder) ∧
        (2 * k < 2 ^ 32 → ∃ c,
          (Procedure.byHand .mainComponent multiplierArrayId 1 label none order values).run
            (.start circuit config) = .ok () c) := by
  have hsmall : 2 * arrayWidth < 2 ^ 32 := by decide
  have hsample : Runs sampleCircuit arrayWidth := ⟨rfl, rfl⟩
  have hmultiplier : Runs multiplierCircuit arrayWidth := ⟨rfl, rfl⟩
  refine ⟨⟨sampleCircuit, sample_eq, fun inputs c h => ?_, fun a b x flag inputs hinputs hx => ?_⟩,
    ⟨multiplierCircuit, multiplier_eq, fun inputs c h => ?_, fun a b inputs hinputs => ?_⟩,
    fun k => ⟨arrayCircuit k, multiplierArray_eq k, fun inputs c h => ?_,
      fun hk a b inputs hinputs => ?_, fun order label values horder => ⟨fun c h => ?_,
        fun hk => ?_⟩⟩⟩
  · exact calculation_inOrder addressed_sample.feedable (hsample.countersFit hsmall)
      hsample.compiled sampleCircuit_decides hon h
  · exact (sampleCircuit_returns a b x flag).calculation_ok hx addressed_sample
      length_mainInputValues (gives_sample hinputs) config
  · exact calculation_inOrder addressed_multiplier.feedable (hmultiplier.countersFit hsmall)
      hmultiplier.compiled multiplierCircuit_decides hon h
  · exact (multiplierCircuit_returns a b).calculation_ok trivial addressed_multiplier rfl
      (gives_multiplier hinputs) config
  · exact arrayCircuit_inOrder hon h
  · exact (arrayCircuit_returns hk a b).calculation_ok trivial (addressed_array hk)
      (length_array a b) (gives_array hinputs) config
  · exact byHand_inOrder hon horder h
  · obtain ⟨c, hc, -⟩ := byHand_returns hk config label horder values
    exact ⟨c, hc⟩

/-- Calculations with the large circuit and with one multiplier, and an array of two that gets its
    inputs by hand, the last ones first. -/
theorem runs_inOrder_diagnostic :
    (∃ circuit c, sample = .ok circuit ∧ circuit.calculation .diagnostic
        ⟨[("flag", [1]), ("x", [6]), ("a", [1, 2, 3]), ("b", [4, 5, 6])]⟩ = .ok c ∧ c.InOrder) ∧
    (∃ circuit c, multiplier = .ok circuit ∧ circuit.calculation .diagnostic
        ⟨[("b", [3]), ("a", [2])]⟩ = .ok c ∧ c.InOrder) ∧
    ∃ circuit c, multiplierArray 2 = .ok circuit ∧ (Procedure.byHand .mainComponent
        multiplierArrayId 1 "main" none [5, 4, 3, 2] Scalar.ofNat).run
          (.start circuit .diagnostic) = .ok () c ∧ c.InOrder := by
  obtain ⟨⟨large, hlarge, horder, hruns⟩, ⟨small, hsmall, horder', hruns'⟩, harray⟩ :=
    runs_inOrder .diagnostic rfl
  refine ⟨?_, ?_, ?_⟩
  · obtain ⟨c, hc⟩ := hruns ![1, 2, 3] ![4, 5, 6] 6 1
      ⟨[("flag", [1]), ("x", [6]), ("a", [1, 2, 3]), ("b", [4, 5, 6])]⟩ (by decide)
      (.inr (by decide))
    exact ⟨large, c, hlarge, hc, horder _ c hc⟩
  · obtain ⟨c, hc⟩ := hruns' 2 3 ⟨[("b", [3]), ("a", [2])]⟩ (.swap _ _ _)
    exact ⟨small, c, hsmall, hc, horder' _ c hc⟩
  · obtain ⟨circuit, hcircuit, -, -, hhand⟩ := harray 2
    obtain ⟨hinOrder, hreturns⟩ := hhand [5, 4, 3, 2] "main" Scalar.ofNat (by decide)
    obtain ⟨c, hc⟩ := hreturns (by decide)
    exact ⟨circuit, c, hcircuit, hc, hinOrder c hc⟩

end CircuitWitness.Sample
