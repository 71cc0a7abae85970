import CircuitWitness.Circuit
import CircuitWitness.Sample.Template
/-
  Sample circuits over the sample templates, with the layouts a compiler would give them.

  The large one has `Main` as its main component.  The two small ones have a single multiplier and
  an array of multipliers of any width.
-/

namespace CircuitWitness.Sample

/-- The constant one and the seed. -/
def constants : ConstantPool := .ofList [1, Scalar.ofNat seed]

/-- The table of the sample templates. -/
def table (k : Nat) : Except Refusal TemplateTable := TemplateTable.ofList (templates k)

/-! ## Layout of the large circuit

Each block of signals follows the one before it; handles likewise. -/

def mainStart : Nat := 1
def resultSignal : Nat := mainStart
def seedSignal : Nat := mainStart + 1
def mainInputs : Nat := mainStart + 2
def dotSignal : Nat := mainStart + 10
def leafStart : Nat := mainStart + mainShape.signals
def arrayStart : Nat := leafStart + constantLeafShape.signals
def multipliersStart : Nat := arrayStart + 3 * arrayWidth
def gateStart : Nat := arrayStart + multiplierArraySignals arrayWidth
def isZeroStart : Nat := gateStart + gateShape.signals
def num2BitsStart : Nat := isZeroStart + isZeroShape.signals
def totalSignals : Nat := gateStart + gateSignals
def totalComponents : Nat := 2 + multiplierArrayComponents arrayWidth + gateComponents

def mainHandle : Handle := .mainComponent
def leafHandle : Handle := ⟨1⟩
def arrayHandle : Handle := ⟨2⟩
def multiplierHandles : List Handle := [⟨3⟩, ⟨4⟩, ⟨5⟩]
def gateHandle : Handle := ⟨6⟩
def isZeroHandle : Handle := ⟨7⟩
def num2BitsHandle : Handle := ⟨8⟩

example : [leafStart, arrayStart, multipliersStart, gateStart, isZeroStart, num2BitsStart,
    totalSignals, totalComponents] = [12, 14, 23, 32, 35, 38, 43, 9] := by decide

/-! ## Circuits -/

/-- `result = dot(a, b) + seed² + gate(x, flag)`.  The witness is the constant one, the main block
    and the output of the gate. -/
def sample : Except Refusal Circuit := do
  let inputs ← InputMap.ofList
    [⟨"a", 0, arrayWidth⟩, ⟨"b", arrayWidth, arrayWidth⟩, ⟨"x", 2 * arrayWidth, 1⟩,
     ⟨"flag", 2 * arrayWidth + 1, 1⟩]
  let templates ← table arrayWidth
  CircuitDescription.accept
    { name := "sample"
      totalSignals := totalSignals
      totalComponents := totalComponents
      mainTemplate := mainId
      constants := constants
      templates := templates
      inputs := inputs
      witness := List.range leafStart ++ [gateStart] }

/-- One multiplier: inputs `a` and `b`, and the product at signal 1. -/
def multiplier : Except Refusal Circuit := do
  let inputs ← InputMap.ofList [⟨"a", 0, 1⟩, ⟨"b", 1, 1⟩]
  let templates ← table arrayWidth
  CircuitDescription.accept
    { name := "multiplier"
      totalSignals := 1 + multiplierShape.signals
      totalComponents := 1
      mainTemplate := multiplierId
      constants := constants
      templates := templates
      inputs := inputs }

/-- An array of `k` multipliers: inputs `a` and `b` of `k` elements each, and the products from
    signal 1 on. -/
def multiplierArray (k : Nat) : Except Refusal Circuit := do
  let inputs ← InputMap.ofList [⟨"a", 0, k⟩, ⟨"b", k, k⟩]
  let templates ← table k
  CircuitDescription.accept
    { name := "multiplier_array"
      totalSignals := 1 + multiplierArraySignals k
      totalComponents := multiplierArrayComponents k
      mainTemplate := multiplierArrayId
      constants := constants
      templates := templates
      inputs := inputs }

/-- Inputs of the large circuit. -/
def sampleInputs (a b : List Nat) (x : Nat) (flag : Bool) : InputValues :=
  .ofList
    [("a", a.map Scalar.ofNat), ("b", b.map Scalar.ofNat), ("x", [Scalar.ofNat x]),
     ("flag", [Scalar.ofBool flag])]

end CircuitWitness.Sample
