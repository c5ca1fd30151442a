import Fragboard.Toml.Fault

/-!
# TOML values

A table remembers how it came about, because that decides who may still add to
it: a key with dots may extend tables that were made by such keys or that a
header merely passed through, and a header may take over a table that earlier
headers only passed through.
-/

namespace Fragboard.Toml

inductive Origin where
  /-- Written between braces: complete. -/
  | braces
  /-- Defined by its own header. -/
  | header
  /-- Passed through by the header of a table below it. -/
  | passage
  /-- Made by a key with dots. -/
  | dots
deriving DecidableEq

inductive Value where
  | string (text : String)
  | integer (value : Int)
  | float (value : Float)
  | boolean (value : Bool)
  | moment
  | array (items : List Value)
  | table (origin : Origin) (fields : List (String × Value))
  /-- Tables under one header in double brackets, latest last. -/
  | series (tables : List (List (String × Value)))

/-- The fields of a table in the order of their definition. -/
abbrev Fields := List (String × Value)

namespace Fields

def replace (fields : Fields) (key : String) (value : Value) : Fields :=
  fields.map fun field => if field.1 = key then (key, value) else field

/-- What to do with the table at the end of a path. -/
abbrev Change := Origin → Fields → Except Fault Fields

/-- Follows a path of keys and changes the table at its end.  Tables that are
missing on the way are made; a path of dots may not enter a table that has its
own header, and no path may enter a value or a table between braces.  In a
series the path goes on in the latest table. -/
def changeAt (made : Origin) (change : Change) :
    Origin → Fields → List String → Except Fault Fields
  | origin, fields, [] => change origin fields
  | _, fields, key :: path =>
    match fields.lookup key with
    | none => do
      let inner ← changeAt made change made [] path
      .ok (fields ++ [(key, .table made inner)])
    | some (.table origin inner) =>
      if origin = .braces ∨ (made = .dots ∧ origin = .header) then
        .error (.redefined key)
      else do
        let changed ← changeAt made change origin inner path
        .ok (fields.replace key (.table origin changed))
    | some (.series tables) =>
      match tables.getLast? with
      | none => .error (.redefined key)
      | some latest => do
        let changed ← changeAt made change .header latest path
        .ok (fields.replace key (.series (tables.dropLast ++ [changed])))
    | some _ => .error (.redefined key)

def define (fields : Fields) (key : String) (value : Value) :
    Except Fault Fields :=
  if (fields.lookup key).isSome then .error (.redefined key)
  else .ok (fields ++ [(key, value)])

/-- Carries out an assignment to a key, which may have dots: only tables made
by such keys take its last part. -/
def assign (fields : Fields) (path : List String) (key : String)
    (value : Value) : Except Fault Fields :=
  let change : Change := fun origin fields =>
    if path.isEmpty ∨ origin = .dots then fields.define key value
    else .error (.redefined key)
  changeAt .dots change .header fields path

/-- Opens the table of a header: a new one, or one that earlier headers only
passed through. -/
def open? (fields : Fields) (path : List String) (key : String) :
    Except Fault Fields :=
  let change : Change := fun _ fields =>
    match fields.lookup key with
    | none => .ok (fields ++ [(key, .table .header [])])
    | some (.table .passage inner) =>
      .ok (fields.replace key (.table .header inner))
    | some _ => .error (.redefined key)
  changeAt .passage change .header fields path

/-- Appends an empty table to the series of a header in double brackets. -/
def extend (fields : Fields) (path : List String) (key : String) :
    Except Fault Fields :=
  let change : Change := fun _ fields =>
    match fields.lookup key with
    | none => .ok (fields ++ [(key, .series [[]])])
    | some (.series tables) =>
      .ok (fields.replace key (.series (tables ++ [[]])))
    | some _ => .error (.redefined key)
  changeAt .passage change .header fields path

/-- Changes the table that the latest header opened. -/
def within (fields : Fields) (path : List String)
    (change : Fields → Except Fault Fields) : Except Fault Fields :=
  changeAt .passage (fun _ inner => change inner) .header fields path

end Fields

end Fragboard.Toml
