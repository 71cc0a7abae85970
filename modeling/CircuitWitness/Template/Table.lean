import CircuitWitness.Body
/-
  Templates, and the table a circuit finds them in.

  Every template has a body, and it may have an alternate one that does the same job in another
  way; which of them runs is decided when a component starts.  Templates may be entered in any
  order.  A template can be entered once, and a table is complete when no identity below the
  highest one is missing.
-/

namespace CircuitWitness

/-- The shape of a template and its bodies. -/
structure Template where
  shape : TemplateShape
  body : Body
  alternate : Option Body

/-- The template in words: its shape, and whether there is an alternate body. -/
def Template.display (e : Template) : String :=
  let s := e.shape
  "DispatchEntry \x7b info: TemplateInfo \x7b name: " ++ Text.quoted s.name
    ++ ", outputs: " ++ Nat.repr s.outputs ++ ", inputs: " ++ Nat.repr s.inputs
    ++ ", signals: " ++ Nat.repr s.signals ++ ", subcomponents: " ++ Nat.repr s.slots
    ++ " \x7d, alternate: " ++ (if e.alternate.isSome then "true" else "false") ++ " \x7d"

/-- Whether the alternate body runs: it has to be preferred, and there has to be one. -/
def Template.runsAlternate (e : Template) (preferAlternate : Bool) : Bool :=
  preferAlternate && e.alternate.isSome

/-- The body that runs, given whether alternates are preferred. -/
def Template.chosen (e : Template) (preferAlternate : Bool) : Body :=
  if e.runsAlternate preferAlternate then e.alternate.getD e.body else e.body

/-- The templates of a circuit, by identity. -/
structure TemplateTable where
  entries : Array (Option Template)

namespace TemplateTable

def empty : TemplateTable := ⟨#[]⟩

/-- One more than the highest identity entered. -/
def size (t : TemplateTable) : Nat := t.entries.size

/-- The entry of a template. -/
def get? (t : TemplateTable) (id : TemplateId) : Option Template :=
  t.entries[id.index]?.join

/-- The shape of a template. -/
def shape? (t : TemplateTable) (id : TemplateId) : Option TemplateShape :=
  (t.get? id).map Template.shape

/-- The body that a component of a template runs. -/
def body? (t : TemplateTable) (id : TemplateId) (preferAlternate : Bool) : Option Body :=
  (t.get? id).map fun e => e.chosen preferAlternate

/-- Make room for an identity: it gets a slot, and so does every identity below it that had none. -/
def reserve (t : TemplateTable) (id : TemplateId) : TemplateTable :=
  ⟨t.entries ++ Array.replicate (id.index + 1 - t.entries.size) none⟩

/-- Put a template into the slot of an identity, if there is one. -/
def fill (t : TemplateTable) (id : TemplateId) (e : Template) : TemplateTable :=
  ⟨t.entries.setIfInBounds id.index (some e)⟩

/-- Enter a template.  Room is made first, and only then is the slot looked at; identities between
    the new one and the highest one so far stay free. -/
def install (id : TemplateId) (e : Template) : EStateM Refusal TemplateTable Unit := fun t =>
  let roomy := t.reserve id
  match roomy.get? id with
  | some existing =>
    .error (.invalidCircuit (.templateTwice id existing.shape.name e.shape.name)) roomy
  | none => .ok () (roomy.fill id e)

/-- The table with one template more. -/
def insert (t : TemplateTable) (id : TemplateId) (e : Template) :
    Except Refusal TemplateTable :=
  match install id e t with
  | .ok _ t' => .ok t'
  | .error r _ => .error r

/-- Enter some templates, in order. -/
def ofList (entries : List (TemplateId × Template)) : Except Refusal TemplateTable :=
  entries.foldlM (fun t e => t.insert e.1 e.2) empty

/-- The lowest identity without an entry, below the highest one entered. -/
def gap? (t : TemplateTable) : Option TemplateId :=
  (t.entries.toList.findIdx? Option.isNone).map TemplateId.mk

/-- Refuse a table in which a template is missing. -/
def validate (t : TemplateTable) : Except Refusal Unit :=
  match t.gap? with
  | some id => .error (.invalidCircuit (.missingTemplate id))
  | none => .ok ()

/-- How many templates have an alternate body. -/
def alternateCount (t : TemplateTable) : Nat :=
  t.entries.toList.countP fun slot => slot.any fun e => e.alternate.isSome

end TemplateTable
end CircuitWitness
