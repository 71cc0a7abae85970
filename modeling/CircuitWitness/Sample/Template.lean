import CircuitWitness.Template.Table
import CircuitWitness.Scalar.Shift
/-
  Sample templates, written the way a circuit compiler writes bodies: fixed local offsets,
  handles of children counted from the component's own, release of the children before returning.

      Multiplier       c = a · b
      ConstantLeaf     seed and its square, from the constant pool
      Num2Bits         the four lowest bits of the input, which must be all there are
      IsZero           1 for zero and 0 for anything else
      MultiplierArray  k products of k pairs, by k multipliers
      Gate             isZero(x), plus the number of one bits of x if the flag is set
      Main             a dot product, the square of the seed, and a gate
-/

namespace CircuitWitness.Sample

open Procedure

/-! ## Identities -/

def multiplierId : TemplateId := ⟨0⟩
def constantLeafId : TemplateId := ⟨1⟩
def num2BitsId : TemplateId := ⟨2⟩
def isZeroId : TemplateId := ⟨3⟩
def multiplierArrayId : TemplateId := ⟨4⟩
def gateId : TemplateId := ⟨5⟩
def mainId : TemplateId := ⟨6⟩

/-- Pool index of the constant one. -/
def oneConstant : Nat := 0

/-- Pool index of the seed. -/
def seedConstant : Nat := 1

/-- The seed itself. -/
def seed : Nat := 7

/-! ## Multiplier: out `c`, in `a` `b` -/

def multiplierShape : TemplateShape := ⟨"Multiplier", 1, 2, 3, 0⟩

def multiplierBody : Body := fun self => do
  let start ← signalStart self
  let a ← signal (start + 1)
  let b ← signal (start + 2)
  setSignal start (a * b)

/-! ## ConstantLeaf: out `seed` `square` -/

def constantLeafShape : TemplateShape := ⟨"ConstantLeaf", 2, 0, 2, 0⟩

def constantLeafBody : Body := fun self => do
  let start ← signalStart self
  let s ← constant seedConstant
  setSignal start s
  setSignal (start + 1) (s * s)

/-! ## Num2Bits: out `bits`, in `in` -/

/-- Bits of the decomposition. -/
def bits : Nat := 4

def num2BitsShape : TemplateShape := ⟨"Num2Bits", bits, 1, bits + 1, 0⟩

/-- The line of the assertion that a bit is 0 or 1. -/
def bitAssertLine : Nat := 9

/-- The line of the assertion that the bits add up to the input. -/
def sumAssertLine : Nat := 12

/-- Take the bits from number `i` on, `count` of them, and answer their weighted sum on top of
    what was summed before. -/
def num2BitsLoop (self : Handle) (start : Nat) (one input : Scalar) :
    Nat → Nat → Scalar → Scalar → Procedure Scalar
  | 0, _, sum, _ => return sum
  | count + 1, i, sum, weight => do
    setSignal (start + i) ((input.shr (Scalar.ofNat i)).band one)
    let bit ← signal (start + i)
    assert self (Scalar.eqFlag (bit * (bit - one)) 0) bitAssertLine
    num2BitsLoop self start one input count (i + 1) (sum + bit * weight) (weight + weight)

def num2BitsBody : Body := fun self => do
  let start ← signalStart self
  let one ← constant oneConstant
  let input ← signal (start + bits)
  let sum ← num2BitsLoop self start one input bits 0 0 one
  assert self (Scalar.eqFlag sum input) sumAssertLine

/-! ## IsZero: out `out`, in `in`, intermediate `inv` -/

def isZeroShape : TemplateShape := ⟨"IsZero", 1, 1, 3, 0⟩

def isZeroBody : Body := fun self => do
  let start ← signalStart self
  let input ← signal (start + 1)
  setSignal (start + 2) input.inv
  let inv ← signal (start + 2)
  let one ← constant oneConstant
  let out := -(input * inv) + one
  setSignal start out
  assert self (Scalar.eqFlag (input * out) 0) 8

/-! ## MultiplierArray: out `c`, in `a`, in `b`, each of width `k`

The blocks of the multipliers follow the array's own, and so do their handles. -/

def multiplierArrayShape (k : Nat) : TemplateShape := ⟨"MultiplierArray", k, 2 * k, 3 * k, k⟩

/-- Signals of an array and its multipliers. -/
def multiplierArraySignals (k : Nat) : Nat := 3 * k + k * multiplierShape.signals

/-- The array and its multipliers. -/
def multiplierArrayComponents (k : Nat) : Nat := k + 1

/-- Create the multiplier of one position.  A machine takes the offset `1 + i` as a 32-bit word;
    this could be told from the number only at position `2 ^ 32 - 1`, far beyond the widths in
    reach. -/
def createMultiplier (k : Nat) (self : Handle) (start : Nat) (name : String) (i : Nat) :
    Procedure Unit := do
  let child ← handleAfter self (1 + i)
  createChild self i child multiplierId (start + 3 * k + multiplierShape.signals * i)
    s!"{name}.mult[{i}]"

/-- Feed the multiplier of one position and take its product.  Odd positions get `b` first. -/
def feedMultiplier (k : Nat) (self : Handle) (start : Nat) (i : Nat) : Procedure Unit := do
  let child ← child self i
  let a ← signal (start + k + i)
  let b ← signal (start + 2 * k + i)
  if i % 2 = 0 then
    writeInput child 1 a
    writeInput child 2 b
  else
    writeInput child 2 b
    writeInput child 1 a
  let childStart ← signalStart child
  let c ← signal childStart
  setSignal (start + i) c

def multiplierArrayBody (k : Nat) : Body := fun self => do
  let start ← signalStart self
  let name ← label self
  (List.range k).forM fun i => createMultiplier k self start name i
  (List.range k).forM fun i => feedMultiplier k self start i
  releaseChildren self

/-! ## Gate: out `y`, in `x` `flag`

The decomposition is only created when the flag is set, so its slot may stay empty. -/

def gateShape : TemplateShape := ⟨"Gate", 1, 2, 3, 2⟩

/-- Signals of a gate and its children. -/
def gateSignals : Nat := gateShape.signals + isZeroShape.signals + num2BitsShape.signals

/-- A gate and its children. -/
def gateComponents : Nat := 3

/-- The sum of `count` signals from `start` on, on top of what was summed before. -/
def sumSignals (start : Nat) : Nat → Scalar → Procedure Scalar
  | 0, sum => return sum
  | count + 1, sum => do
    let a ← signal start
    sumSignals (start + 1) count (sum + a)

def gateBody : Body := fun self => do
  let start ← signalStart self
  let name ← label self
  let x ← signal (start + 1)
  let flag ← signal (start + 2)
  let zeroStart := start + gateShape.signals
  let zeroHandle ← handleAfter self 1
  createChild self 0 zeroHandle isZeroId zeroStart s!"{name}.iszero"
  let zero ← child self 0
  writeInput zero 1 x
  let isZero ← signal zeroStart
  let y ←
    if flag.isTrue then do
      let bitsStart := zeroStart + isZeroShape.signals
      let bitsHandle ← handleAfter self 2
      createChild self 1 bitsHandle num2BitsId bitsStart s!"{name}.n2b"
      let n2b ← child self 1
      writeInput n2b bits x
      sumSignals bitsStart bits isZero
    else
      pure isZero
  setSignal start y
  releaseChildren self

/-! ## Main

Local signals: 0 `result`, 1 `seed`, then the inputs `a` and `b` of three each, `x` and `flag`,
and last the intermediate `dot`. -/

/-- Width of the vectors of the main template. -/
def arrayWidth : Nat := 3

def mainShape : TemplateShape := ⟨"Main", 2, 2 * arrayWidth + 2, 2 * arrayWidth + 5, 3⟩

def mainA : Nat := 2
def mainB : Nat := mainA + arrayWidth
def mainX : Nat := mainB + arrayWidth
def mainFlag : Nat := mainX + 1
def mainDot : Nat := mainFlag + 1

/-- Hand signals on to inputs of a child: `count` of them, from a signal and a local input on. -/
def copyInputs (child : Handle) : Nat → Nat → Nat → Procedure Unit
  | 0, _, _ => return ()
  | count + 1, source, localSignal => do
    let a ← signal source
    writeInput child localSignal a
    copyInputs child count (source + 1) (localSignal + 1)

def mainBody : Body := fun self => do
  let start ← signalStart self
  let name ← label self
  let leafStart := start + mainShape.signals
  let leaf ← handleAfter self 1
  createChild self 0 leaf constantLeafId leafStart s!"{name}.leaf"
  let arrayStart := leafStart + constantLeafShape.signals
  let arrayShape := multiplierArrayShape arrayWidth
  let arrayHandle ← handleAfter self 2
  createChild self 1 arrayHandle multiplierArrayId arrayStart s!"{name}.arr"
  let array ← child self 1
  copyInputs array arrayWidth (start + mainA) arrayShape.inputStart
  copyInputs array arrayWidth (start + mainB) (arrayShape.inputStart + arrayWidth)
  let total ← sumSignals arrayStart arrayWidth 0
  setSignal (start + mainDot) total
  let gateStart := arrayStart + multiplierArraySignals arrayWidth
  let gateHandle ← handleAfter self (2 + multiplierArrayComponents arrayWidth)
  createChild self 2 gateHandle gateId gateStart s!"{name}.gate"
  let gate ← child self 2
  let x ← signal (start + mainX)
  let flag ← signal (start + mainFlag)
  writeInput gate 1 x
  writeInput gate 2 flag
  let dot ← signal (start + mainDot)
  let square ← signal (leafStart + 1)
  let y ← signal gateStart
  setSignal start (dot + square + y)
  let seedValue ← signal leafStart
  setSignal (start + 1) seedValue
  releaseChildren self

/-! ## All of them -/

/-- Every sample template, with the multiplier array of a given width. -/
def templates (k : Nat) : List (TemplateId × Template) :=
  [(multiplierId, ⟨multiplierShape, multiplierBody, none⟩),
   (constantLeafId, ⟨constantLeafShape, constantLeafBody, none⟩),
   (num2BitsId, ⟨num2BitsShape, num2BitsBody, none⟩),
   (isZeroId, ⟨isZeroShape, isZeroBody, none⟩),
   (multiplierArrayId, ⟨multiplierArrayShape k, multiplierArrayBody k, none⟩),
   (gateId, ⟨gateShape, gateBody, none⟩),
   (mainId, ⟨mainShape, mainBody, none⟩)]

end CircuitWitness.Sample
