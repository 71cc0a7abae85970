import CircuitWitness.Config
import CircuitWitness.Toml.Reader
/-
  The switches of the engine, read from a TOML document and written as one.

  Every switch is a truth value under its own key at the top of the document.  A key that is
  missing leaves its switch at the default, and keys that name no switch are ignored; a switch with
  a value of any other kind is refused.
-/

namespace CircuitWitness.Config

/-- The truth value of a key; the default if the key is missing. -/
def switch? (document : Toml.Node) (key : String) (default : Bool) : Option Bool :=
  match Toml.find? key document.entries with
  | none => some default
  | some (.value (.truth b)) => some b
  | some _ => none

/-- The switches that a document sets. -/
def ofToml? (text : String) : Option Config := do
  let document ← Toml.read? text
  let base : Config := {}
  return {
    logComponents := ← switch? document "log_components" base.logComponents
    recordTrace := ← switch? document "record_trace" base.recordTrace
    checkReads := ← switch? document "check_reads" base.checkReads
    useAlternate := ← switch? document "use_alternate" base.useAlternate
    reclaim := ← switch? document "reclaim" base.reclaim }

/-- The line of one switch. -/
def switchLine (key : String) (value : Bool) : String :=
  key ++ " = " ++ (if value then "true" else "false") ++ "\n"

/-- A document that sets every switch. -/
def toToml (c : Config) : String :=
  switchLine "log_components" c.logComponents ++ switchLine "record_trace" c.recordTrace
    ++ switchLine "check_reads" c.checkReads ++ switchLine "use_alternate" c.useAlternate
    ++ switchLine "reclaim" c.reclaim

end CircuitWitness.Config
