import CircuitWitness.Component.Basic
import CircuitWitness.Scalar.Basic
import CircuitWitness.Template.Shape
import CircuitWitness.Text.Quoted
/-
  Everything that can go wrong, by cause, and the words for it.

  * `GraphDefect`: the component graph is used in a way that no compiled circuit should use it.
  * `CircuitDefect`: the description of a circuit contradicts itself.
  * `Refusal`: what an operation of the engine answers when it refuses.

  The wording is in the three functions `message` and nowhere else.
-/

namespace CircuitWitness

/-! ## Defects of the component graph -/

/-- A use of the component graph that compiled circuits never make. -/
inductive GraphDefect where
  /-- An input was counted when none was outstanding. -/
  | counterUnderflow
  /-- The body was to be started a second time. -/
  | alreadyTriggered (stage : Stage)
  /-- The body was to be started while inputs were missing. -/
  | pendingInputs (count : Nat)
  /-- An input arrived after the body had started. -/
  | inputAfterStart (stage : Stage)
  /-- The local signal lies outside the input block. -/
  | notAnInput (signal start stop : Nat)
  /-- The slot holds no child. -/
  | unallocatedSubcomponent (slot : Nat)
  /-- The component has no such slot. -/
  | slotOutOfRange (slot slots : Nat)
  /-- There is no such template. -/
  | unknownTemplate (id : TemplateId)
  /-- The handle is in use. -/
  | duplicateComponent
  /-- The handle is beyond those the circuit declared. -/
  | componentOutOfRange (limit : Nat)
  /-- No component has this handle. -/
  | unknownComponent
  /-- The component was to be released before it had finished. -/
  | releasedEarly (stage : Stage)
  /-- A signal was read, under strict reading, before anything was written to it. -/
  | unwrittenSignal (signal : Nat)
deriving DecidableEq

/-- The words for a defect of the graph. -/
def GraphDefect.message : GraphDefect → String
  | .counterUnderflow => "pending-input counter decremented past zero"
  | .alreadyTriggered stage => "triggered while " ++ stage.display
  | .pendingInputs count => s!"triggered with {count} inputs still pending"
  | .inputAfterStart stage => "input written after the component started (" ++ stage.display ++ ")"
  | .notAnInput signal start stop =>
    s!"local signal {signal} is not in the input block {start}..{stop}"
  | .unallocatedSubcomponent slot => s!"subcomponent slot {slot} is not allocated"
  | .slotOutOfRange slot slots =>
    s!"subcomponent slot {slot} out of range (template declares {slots})"
  | .unknownTemplate id => "no dispatch entry for template " ++ id.display
  | .duplicateComponent => "component handle already created"
  | .componentOutOfRange limit => s!"component handle beyond the declared {limit} components"
  | .unknownComponent => "component handle was never created"
  | .releasedEarly stage => "released while " ++ stage.display
  | .unwrittenSignal signal => s!"signal {signal} read before it was written"

/-! ## Defects of a circuit description -/

/-- A contradiction in the description of a circuit. -/
inductive CircuitDefect where
  /-- A constant is given by a text that is no literal. -/
  | badConstant (literal : String)
  /-- Two templates, here by their names, share an identity. -/
  | templateTwice (id : TemplateId) (first second : String)
  /-- An identity below the highest one in use has no template. -/
  | missingTemplate (id : TemplateId)
  /-- The identity of the main template has no template. -/
  | missingMainTemplate (id : TemplateId)
  /-- There is no handle for the main component. -/
  | noComponents
  /-- The main block starts at signal 0, which holds the constant one. -/
  | reservedSignal
  /-- The main block reaches beyond the last signal. -/
  | mainBlockOutside (start stop total : Nat)
  /-- Two inputs share an address. -/
  | inputTwice (name : String)
  /-- An input reaches beyond the main input block. -/
  | inputOutside (name : String) (start stop inputs : Nat)
  /-- An input holds an element that an input declared before it holds too. -/
  | inputOverlap (name : String) (position : Nat)
  /-- An element of the main input block belongs to no input. -/
  | inputGap (position : Nat)
  /-- A witness entry stands for a signal that does not exist. -/
  | missingWitnessSignal (signal : Nat)
deriving DecidableEq

/-- The words for a defect of a description. -/
def CircuitDefect.message : CircuitDefect → String
  | .badConstant literal => "bad constant literal " ++ Text.quoted literal
  | .templateTwice id first second =>
    "template " ++ id.display ++ s!" registered twice ({first} and {second})"
  | .missingTemplate id => "template " ++ id.display ++ " has no dispatch entry"
  | .missingMainTemplate id => "main template " ++ id.display ++ " has no dispatch entry"
  | .noComponents => "a circuit needs at least the main component"
  | .reservedSignal => "signal 0 is reserved for the constant one"
  | .mainBlockOutside start stop total =>
    s!"main signals {start}..{stop} exceed the {total} signals of the store"
  | .inputTwice name => "input " ++ Text.quoted name ++ " declared twice"
  | .inputOutside name start stop inputs =>
    "input " ++ Text.quoted name ++ s!" ({start}..{stop}) lies outside the {inputs} main inputs"
  | .inputOverlap name position =>
    "input " ++ Text.quoted name ++ s!" overlaps another input at main input {position}"
  | .inputGap position => s!"main input {position} is not covered by any named input"
  | .missingWitnessSignal signal => s!"witness entry refers to missing signal {signal}"

/-! ## Refusals of the engine -/

/-- What an operation answers when it refuses. -/
inductive Refusal where
  /-- The component graph is used wrongly, at the component that is named. -/
  | graphDefect (component : Handle) (label : String) (defect : GraphDefect)
  /-- A body asserted a value that is not true. -/
  | assertionFailed (template label : String) (line : Nat)
  /-- A main input was assigned when none was outstanding. -/
  | allInputsAssigned
  /-- No input has this address. -/
  | unknownInput (hash : UInt64)
  /-- No input has this name. -/
  | unknownInputName (name : String)
  /-- The input has fewer elements. -/
  | inputIndexOutOfRange (hash : UInt64) (index size : Nat)
  /-- The element has a value already. -/
  | inputAssignedTwice (hash : UInt64) (index : Nat)
  /-- The values given leave main inputs without one. -/
  | inputsIncomplete (missing expected : Nat)
  /-- A value, here in words, is none that an input can take. -/
  | invalidInputValue (name value : String)
  /-- A scalar was used as an index and is too large for one. -/
  | indexOverflow (value : Scalar)
  /-- The description of the circuit contradicts itself. -/
  | invalidCircuit (defect : CircuitDefect)
  /-- A text is no document. -/
  | malformedDocument
deriving DecidableEq

/-- How messages show the hash of an input. -/
def displayHash (hash : UInt64) : String := "0x" ++ Text.hexPadded 16 hash.toNat

/-- The words for a refusal. -/
def Refusal.message : Refusal → String
  | .graphDefect component label defect =>
    "graph defect in component " ++ component.display ++ s!" ({label}): " ++ defect.message
  | .assertionFailed template label line =>
    s!"assert failed in template {template} ({label}), line {line}"
  | .allInputsAssigned => "all inputs already assigned"
  | .unknownInput hash => "no input signal with hash " ++ displayHash hash
  | .unknownInputName name => "no input signal named " ++ Text.quoted name
  | .inputIndexOutOfRange hash index size =>
    s!"input index {index} exceeds size {size} of signal " ++ displayHash hash
  | .inputAssignedTwice hash index =>
    s!"input {index} of signal " ++ displayHash hash ++ " assigned twice"
  | .inputsIncomplete missing expected =>
    s!"not all inputs have been set: {missing} of {expected} missing"
  | .invalidInputValue name value =>
    "invalid value for input " ++ Text.quoted name ++ s!": {value}"
  | .indexOverflow value => "value " ++ value.toDecimal ++ " does not fit a machine index"
  | .invalidCircuit defect => "invalid circuit: " ++ defect.message
  | .malformedDocument => "invalid input document"

end CircuitWitness
