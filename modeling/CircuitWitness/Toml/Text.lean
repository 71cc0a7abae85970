import CircuitWitness.Text.Digit
/-
  The text level of TOML documents: blanks, comments, line ends, strings and keys.

  A line ends with a line feed, with or without a carriage return before it; a carriage return
  alone is not allowed anywhere.  Comments and strings hold any printable character, a tab, and
  anything beyond ASCII.  Each recogniser takes the text from its own start and answers what
  follows it, or nothing if the text is not of its form.
-/

namespace CircuitWitness.Toml

/-- A space or a tab. -/
def isBlank (c : Char) : Bool := c == ' ' || c == '\t'

def skipBlanks (cs : List Char) : List Char := cs.dropWhile isBlank

/-- Characters of comments and strings. -/
def isText (c : Char) : Bool := c == '\t' || (0x20 ≤ c.toNat && c.toNat != 0x7F)

/-- The end of a line. -/
def newline? : List Char → Option (List Char)
  | '\n' :: rest => some rest
  | '\r' :: '\n' :: rest => some rest
  | _ => none

/-- The rest of a comment. -/
def skipComment (cs : List Char) : List Char := cs.dropWhile isText

/-- The end of a line or of the document. -/
def lineEnd? (cs : List Char) : Option (List Char) :=
  if cs.isEmpty then some [] else newline? cs

/-- Blanks, a comment if there is one, and the end of the line or of the document. -/
def trailing? (cs : List Char) : Option (List Char) :=
  match skipBlanks cs with
  | '#' :: rest => lineEnd? (skipComment rest)
  | rest => lineEnd? rest

/-- Blanks, comments and line ends, as they may stand between the items of an array; `fuel`
    bounds their number. -/
def skipLines? : Nat → List Char → Option (List Char)
  | 0, _ => none
  | fuel + 1, cs =>
    match skipBlanks cs with
    | '#' :: rest => (newline? (skipComment rest)).bind (skipLines? fuel)
    | '\n' :: rest => skipLines? fuel rest
    | '\r' :: rest => (newline? ('\r' :: rest)).bind (skipLines? fuel)
    | rest => some rest

/-! ## Strings -/

/-- What an escape stands for, after its backslash. -/
def escape? : List Char → Option (Char × List Char)
  | '"' :: rest => some ('"', rest)
  | '\\' :: rest => some ('\\', rest)
  | 'b' :: rest => some ('\x08', rest)
  | 'f' :: rest => some ('\x0c', rest)
  | 'n' :: rest => some ('\n', rest)
  | 'r' :: rest => some ('\r', rest)
  | 't' :: rest => some ('\t', rest)
  | 'u' :: rest => (Text.fixedDigits? 16 4 rest).bind fun (n, rest) =>
    (Text.scalarValue? n).map fun c => (c, rest)
  | 'U' :: rest => (Text.fixedDigits? 16 8 rest).bind fun (n, rest) =>
    (Text.scalarValue? n).map fun c => (c, rest)
  | _ => none

/-- The rest of a basic string, after its opening quote; `fuel` bounds the characters read. -/
def basicString? : Nat → List Char → List Char → Option (String × List Char)
  | 0, _, _ => none
  | _ + 1, _, [] => none
  | fuel + 1, acc, c :: rest =>
    if c = '"' then some (String.ofList acc.reverse, rest)
    else if c = '\\' then
      match escape? rest with
      | some (d, rest) => basicString? fuel (d :: acc) rest
      | none => none
    else if isText c then basicString? fuel (c :: acc) rest
    else none

/-- The rest of a literal string, after its opening quote. -/
def literalString? : List Char → List Char → Option (String × List Char)
  | _, [] => none
  | acc, c :: rest =>
    if c = '\'' then some (String.ofList acc.reverse, rest)
    else if isText c then literalString? (c :: acc) rest
    else none

/-- The end of a string over several lines: three quotes, and up to two more that belong to the
    string itself. -/
def closingQuotes? (quote : Char) (cs : List Char) : Option (List Char) :=
  if cs.take 3 = [quote, quote, quote] then
    let rest := cs.drop 3
    if rest.take 2 = [quote, quote] then some (rest.drop 2)
    else if rest.take 1 = [quote] then some (rest.drop 1)
    else some rest
  else none

/-- Blanks and line ends. -/
def skipBlankLines : List Char → List Char
  | '\n' :: rest => skipBlankLines rest
  | '\r' :: '\n' :: rest => skipBlankLines rest
  | c :: rest => if isBlank c then skipBlankLines rest else c :: rest
  | [] => []

/-- A backslash at the end of a line also takes the blanks and line ends after it. -/
def skipFold? (cs : List Char) : Option (List Char) :=
  (newline? (skipBlanks cs)).map skipBlankLines

/-- The rest of a basic string over several lines; only its form is checked. -/
def multilineBasic? : Nat → List Char → Option (List Char)
  | 0, _ => none
  | _ + 1, [] => none
  | fuel + 1, c :: rest =>
    match closingQuotes? '"' (c :: rest) with
    | some rest => some rest
    | none =>
      if c = '\\' then
        match skipFold? rest, escape? rest with
        | some rest, _ => multilineBasic? fuel rest
        | none, some (_, rest) => multilineBasic? fuel rest
        | none, none => none
      else if isText c then multilineBasic? fuel rest
      else (newline? (c :: rest)).bind (multilineBasic? fuel)

/-- The rest of a literal string over several lines; only its form is checked. -/
def multilineLiteral? : Nat → List Char → Option (List Char)
  | 0, _ => none
  | _ + 1, [] => none
  | fuel + 1, c :: rest =>
    match closingQuotes? '\'' (c :: rest) with
    | some rest => some rest
    | none =>
      if isText c then multilineLiteral? fuel rest
      else (newline? (c :: rest)).bind (multilineLiteral? fuel)

/-- A string of any of the four kinds; only its form is checked. -/
def string? (cs : List Char) : Option (List Char) :=
  let fuel := cs.length + 1
  match cs with
  | '"' :: '"' :: '"' :: rest => multilineBasic? fuel rest
  | '"' :: rest => (basicString? fuel [] rest).map Prod.snd
  | '\'' :: '\'' :: '\'' :: rest => multilineLiteral? fuel rest
  | '\'' :: rest => (literalString? [] rest).map Prod.snd
  | _ => none

/-! ## Keys -/

/-- Characters of a key without quotes. -/
def isBare (c : Char) : Bool :=
  ('A' ≤ c && c ≤ 'Z') || ('a' ≤ c && c ≤ 'z') || ('0' ≤ c && c ≤ '9') || c == '-' || c == '_'

/-- One part of a key. -/
def simpleKey? (cs : List Char) : Option (String × List Char) :=
  match cs with
  | '"' :: rest => basicString? (cs.length + 1) [] rest
  | '\'' :: rest => literalString? [] rest
  | _ =>
    if (cs.takeWhile isBare).isEmpty then none
    else some (String.ofList (cs.takeWhile isBare), cs.dropWhile isBare)

/-- The parts of a key from here on, with blanks around each; `fuel` bounds their number. -/
def keyParts? : Nat → List Char → Option (List String × List Char)
  | 0, _ => none
  | fuel + 1, cs =>
    match simpleKey? (skipBlanks cs) with
    | none => none
    | some (part, rest) =>
      match skipBlanks rest with
      | '.' :: rest => (keyParts? fuel rest).map fun (parts, rest) => (part :: parts, rest)
      | rest => some ([part], rest)

/-- Keys and nested values may not be as deep as this. -/
def depthLimit : Nat := 80

/-- A key: its parts except the last, the last part, and what follows. -/
def key? (cs : List Char) : Option (List String × String × List Char) :=
  match keyParts? (cs.length + 1) cs with
  | none => none
  | some (parts, rest) =>
    if depthLimit ≤ parts.length then none
    else parts.getLast?.map fun last => (parts.dropLast, last, rest)

end CircuitWitness.Toml
