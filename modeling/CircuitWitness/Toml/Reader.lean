import CircuitWitness.Toml.Document
import CircuitWitness.Toml.Number
import CircuitWitness.Toml.Text
/-
  Reading TOML documents.

  A document is a sequence of lines.  A line holds a key with its value, the header of a table, or
  nothing but a comment; only arrays and the long strings go on over several lines.
-/

namespace CircuitWitness.Toml

mutual

/-- A value at the start of a text.  `depth` counts the arrays and inline tables around it. -/
def value? : Nat → Nat → List Char → Option (Value × List Char)
  | 0, _, _ => none
  | fuel + 1, depth, cs =>
    match cs with
    | 't' :: 'r' :: 'u' :: 'e' :: rest => some (.truth true, rest)
    | 'f' :: 'a' :: 'l' :: 's' :: 'e' :: rest => some (.truth false, rest)
    | '[' :: rest =>
      if depthLimit ≤ depth + 1 then none
      else
        (match skipLines? (rest.length + 1) rest with
          | some (']' :: rest) => some rest
          | some rest => items? fuel (depth + 1) rest
          | none => none).map fun rest => (.other, rest)
    | '\x7b' :: rest =>
      if depthLimit ≤ depth + 1 then none
      else
        (match skipBlanks rest with
          | '\x7d' :: rest => some rest
          | rest => inlineEntries? fuel (depth + 1) (.emptyTable) rest).map
            fun rest => (.other, rest)
    | c :: _ =>
      (if c = '"' ∨ c = '\'' then string? cs else number? cs).map fun rest => (.other, rest)
    | [] => none

/-- The items of an array, from the start of one on.  A comma may stand after the last. -/
def items? : Nat → Nat → List Char → Option (List Char)
  | 0, _, _ => none
  | fuel + 1, depth, cs =>
    match value? fuel depth cs with
    | none => none
    | some (_, rest) =>
      match skipLines? (rest.length + 1) rest with
      | some (']' :: rest) => some rest
      | some (',' :: rest) =>
        match skipLines? (rest.length + 1) rest with
        | some (']' :: rest) => some rest
        | some rest => items? fuel depth rest
        | none => none
      | _ => none

/-- The entries of an inline table from here on, all on one line, after those already entered. -/
def inlineEntries? : Nat → Nat → Node → List Char → Option (List Char)
  | 0, _, _, _ => none
  | fuel + 1, depth, table, cs =>
    match key? cs with
    | some (path, key, '=' :: rest) =>
      match value? fuel depth (skipBlanks rest) with
      | none => none
      | some (v, rest) =>
        match table.enter path key v, skipBlanks rest with
        | some _, '\x7d' :: rest => some rest
        | some table, ',' :: rest => inlineEntries? fuel depth table rest
        | _, _ => none
    | _ => none

end

/-- A header between brackets that were opened before, with the rest of its line. -/
def header? (close : List Char) (cs : List Char) :
    Option ((List String × String) × List Char) :=
  match key? cs with
  | none => none
  | some (path, key, rest) =>
    if rest.take close.length = close then
      (trailing? (rest.drop close.length)).map fun rest => ((path, key), rest)
    else none

/-- A line with a key and its value. -/
def keyValue? (d : Draft) (cs : List Char) : Option (Draft × List Char) :=
  match key? cs with
  | some (path, key, '=' :: rest) =>
    match value? (2 * rest.length + 4) 0 (skipBlanks rest) with
    | none => none
    | some (v, rest) =>
      (trailing? rest).bind fun rest => (d.enter path key v).map fun d => (d, rest)
  | _ => none

/-- The lines of a document from here on; `fuel` bounds their number. -/
def lines? : Nat → Draft → List Char → Option Draft
  | 0, _, _ => none
  | fuel + 1, d, cs =>
    match skipBlanks cs with
    | [] => some d
    | '#' :: rest => (lineEnd? (skipComment rest)).bind (lines? fuel d)
    | '\n' :: rest => lines? fuel d rest
    | '\r' :: rest => (newline? ('\r' :: rest)).bind (lines? fuel d)
    | '[' :: '[' :: rest =>
      match header? [']', ']'] rest with
      | some ((path, key), rest) =>
        (d.beginArrayTable path key).bind fun d => lines? fuel d rest
      | none => none
    | '[' :: rest =>
      match header? [']'] rest with
      | some ((path, key), rest) => (d.beginTable path key).bind fun d => lines? fuel d rest
      | none => none
    | rest =>
      match keyValue? d rest with
      | some (d, rest) => lines? fuel d rest
      | none => none

/-- The mark that may stand before a document. -/
def byteOrderMark : Char := '\uFEFF'

/-- The top table of the document that a text denotes, or nothing if it is no TOML document.  Every
    line takes at least one character. -/
def read? (text : String) : Option Node :=
  let cs := text.toList
  let body := if cs.head? = some byteOrderMark then cs.drop 1 else cs
  (lines? (cs.length + 1) .empty body).bind Draft.finish

end CircuitWitness.Toml
