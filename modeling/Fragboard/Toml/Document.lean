import Fragboard.Toml.Scalar

/-!
# TOML documents

A document is a list of statements, each on a line of its own: assignments and
headers.  `Document.ofStatements` carries them out on an empty table, and
`Document.parse` does both.
-/

namespace Fragboard.Toml

/-- A key, split at its dots: the parts before the last one, and the last. -/
structure Key where
  path : List String
  name : String

inductive Statement where
  | assignment (key : Key) (value : Value)
  | header (key : Key)
  | seriesHeader (key : Key)

/-- The number of arrays and tables that may stand inside one another. -/
def deepestNesting : Nat := 79

/-- The number of parts that a key may have. -/
def longestKey : Nat := 79

namespace Key

open Scan

def isBare (character : Char) : Bool :=
  character.isAlphanum || character == '_' || character == '-'

def part : Scan String := do
  blanks
  let name ← Quoted.basic <|> Quoted.literal <|> String.ofList <$> someRun isBare
  blanks
  pure name

def scan : Scan Key := do
  let first ← part
  let others ← many (exactly "." *> part)
  let parts := first :: others
  if longestKey < parts.length then fail
  else pure { path := parts.dropLast, name := parts.getLastD "" }

end Key

namespace Value

open Scan

/-- The items of an array up to its closing bracket. -/
def items (item : Scan Value) : Nat → Scan (List Value)
  | 0 => fail
  | bound + 1 => do
    gap
    if ← accepts "]" then pure []
    else
      let first ← item
      gap
      if ← accepts "," then
        let others ← items item bound
        pure (first :: others)
      else
        exactly "]"
        pure [first]

/-- The assignments between braces up to the closing one. -/
def pairs (item : Scan Value) : Nat → Scan (List (Key × Value))
  | 0 => fail
  | bound + 1 => do
    let key ← Key.scan
    exactly "="
    blanks
    let value ← item
    blanks
    if ← accepts "," then
      let others ← pairs item bound
      pure ((key, value) :: others)
    else
      exactly "\x7d"
      pure [(key, value)]

/-- The table that assignments make. -/
def ofPairs (assignments : List (Key × Value)) : Except Fault Value := do
  let fields ← assignments.foldlM
    (fun fields assignment =>
      Fields.assign fields assignment.1.path assignment.1.name assignment.2) []
  .ok (.table .braces fields)

/-- A table between braces, after the opening one. -/
def bracedTable (item : Scan Value) : Scan Value := do
  blanks
  if ← accepts "\x7d" then pure (.table .braces [])
  else
    let assignments ← fun text => pairs item text.length text
    match ofPairs assignments with
    | .ok made => pure made
    | .error _ => fail

/-- A value in which arrays and tables nest at most a number of times. -/
def scan : Nat → Scan Value
  | 0 => Scalar.value
  | depth + 1 => fun text =>
    match text with
    | '[' :: rest =>
      (Value.array <$> items (scan depth) (rest.length + 1)) rest
    | '\x7b' :: rest => bracedTable (scan depth) rest
    | _ => Scalar.value text

end Value

namespace Statement

open Scan

def header? : Scan Statement := do
  exactly "["
  if ← accepts "[" then
    let key ← Key.scan
    exactly "]]"
    pure (.seriesHeader key)
  else
    let key ← Key.scan
    exactly "]"
    pure (.header key)

def assignment? : Scan Statement := do
  let key ← Key.scan
  exactly "="
  blanks
  let value ← Value.scan deepestNesting
  pure (.assignment key value)

/-- A line: at most one statement and the line end. -/
def line : Scan (Option Statement) := do
  blanks
  let statement ←
    match ← peek? with
    | none | some '#' | some '\n' | some '\r' => pure none
    | some '[' => some <$> header?
    | some _ => some <$> assignment?
  lineEnd
  pure statement

def lines : Nat → Scan (List Statement)
  | 0 => fail
  | bound + 1 => do
    match ← peek? with
    | none => pure []
    | some _ =>
      let first ← line
      let others ← lines bound
      pure (first.toList ++ others)

end Statement

namespace Document

def statements? (text : String) : Option (List Statement) :=
  let characters :=
    match text.toList with
    | '\uFEFF' :: rest => rest
    | characters => characters
  (Statement.lines (characters.length + 1) characters).map (·.1)

/-- The table under construction and the header that is open. -/
structure Draft where
  fields : Fields := []
  current : List String := []

def Draft.carryOut (draft : Draft) : Statement → Except Fault Draft
  | .assignment key value => do
    let fields ← draft.fields.within draft.current fun fields =>
      Fields.assign fields key.path key.name value
    .ok { draft with fields := fields }
  | .header key => do
    let fields ← draft.fields.open? key.path key.name
    .ok { fields := fields, current := key.path ++ [key.name] }
  | .seriesHeader key => do
    let fields ← draft.fields.extend key.path key.name
    .ok { fields := fields, current := key.path ++ [key.name] }

def ofStatements (statements : List Statement) : Except Fault Fields := do
  let draft ← statements.foldlM Draft.carryOut {}
  .ok draft.fields

def parse (text : String) : Except Fault Value :=
  match statements? text with
  | none => .error .malformed
  | some statements => do
    let fields ← ofStatements statements
    .ok (.table .header fields)

end Document

end Fragboard.Toml
