/-!
# Paths

A path is text with pieces between slashes.  It is read in two ways.  Its
`route` is what a file system follows: empty pieces drop out and every "." stays
where it is.  Its `components` are what the path names: a "." counts only at the
front.  Two paths are equivalent when their components agree.

Operations that derive one path from another cut the text and keep the rest of
it as it was written, since a file system limits the length of the text.
-/

namespace Fragboard.Storage

inductive Component where
  | root
  | here
  | up
  | name (text : String)
deriving DecidableEq

namespace Component

def name? : Component → Option String
  | name text => some text
  | _ => none

/-- The step that a piece between slashes stands for, if any. -/
def ofPiece? : List Char → Option Component
  | [] => none
  | ['.'] => some here
  | ['.', '.'] => some up
  | characters => some (name (String.ofList characters))

end Component

/-- A text cut at its slashes. -/
structure Pieces where
  /-- What stands before the first slash. -/
  front : List Char
  /-- What stands behind each slash, up to the next one. -/
  behind : List (List Char)
deriving DecidableEq

namespace Pieces

def ofText : List Char → Pieces
  | [] => { front := [], behind := [] }
  | character :: rest =>
    let cut := ofText rest
    if character = '/' then { front := [], behind := cut.front :: cut.behind }
    else { cut with front := character :: cut.front }

def text (pieces : Pieces) : List Char :=
  pieces.front ++ pieces.behind.flatMap ('/' :: ·)

@[simp] theorem text_ofText (characters : List Char) :
    (ofText characters).text = characters := by
  induction characters with
  | nil => rfl
  | cons character rest restored =>
    by_cases slash : character = '/'
    · simpa [ofText, text, slash] using restored
    · simpa [ofText, text, slash] using restored

/-- A piece that leads to where the path already is. -/
def isIdle (piece : List Char) : Bool :=
  piece = [] || piece = ['.']

/-- Drops the pieces at the end that lead nowhere. -/
def trim (behind : List (List Char)) : List (List Char) :=
  (behind.reverse.dropWhile isIdle).reverse

end Pieces

/-- A path as it was written. -/
structure FilePath where
  text : String
deriving DecidableEq

namespace FilePath

def pieces (path : FilePath) : Pieces :=
  Pieces.ofText path.text.toList

/-- The path made of pieces.  An empty piece with nothing behind it is what is
left of the root. -/
def ofPieces (pieces : Pieces) : FilePath :=
  if pieces.text.isEmpty then { text := "/" }
  else { text := String.ofList pieces.text }

/-- The steps that a file system takes, from the front. -/
def route (path : FilePath) : List Component :=
  let cut := path.pieces
  if cut.front.isEmpty && !cut.behind.isEmpty then
    .root :: cut.behind.filterMap Component.ofPiece?
  else
    (cut.front :: cut.behind).filterMap Component.ofPiece?

def components (path : FilePath) : List Component :=
  match path.route with
  | [] => []
  | first :: others => first :: others.filter (· != .here)

/-- The path ends in a slash: only a directory can be meant. -/
def endsInSlash (path : FilePath) : Bool :=
  path.text.toList.getLast? == some '/'

def endsInName (path : FilePath) : Bool :=
  (path.route.getLast?.bind Component.name?).isSome

/-- The path without its last component; the root and the empty path have no
parent. -/
def parent? (path : FilePath) : Option FilePath :=
  let cut := path.pieces
  match Pieces.trim cut.behind with
  | [] => if cut.front.isEmpty then none else some { text := "" }
  | named =>
    some (ofPieces { cut with behind := Pieces.trim named.dropLast })

/-- A file name without its last extension.  A dot at the front begins no
extension. -/
def stem (name : List Char) : List Char :=
  match name.reverse.dropWhile (· != '.') with
  | _ :: front@(_ :: _) => front.reverse
  | _ => name

/-- A file name with its extension replaced, given whether the path goes on
behind it.  The old extension is taken off the end of the path first.  Where
that leaves two dots no file is named any more, and they stay as they are. -/
def renamed (name extension : List Char) (goesOn : Bool) : List Char :=
  if stem name = ['.'] ∧ goesOn = false then ['.', '.']
  else stem name ++ '.' :: extension

/-- The path with the extension of its file name replaced; what stands behind
the name is dropped.  A path that ends in no name stays as it is. -/
def withExtension (path : FilePath) (extension : String) : FilePath :=
  let cut := path.pieces
  let named := Pieces.trim cut.behind
  let change (name : List Char) : List Char :=
    renamed name extension.toList (named.length < cut.behind.length)
  match named.getLast? with
  | some ['.', '.'] => path
  | some name =>
    ofPieces { cut with behind := named.dropLast ++ [change name] }
  | none =>
    if Pieces.isIdle cut.front || cut.front = ['.', '.'] then path
    else ofPieces { front := change cut.front, behind := [] }

def equivalent (left right : FilePath) : Bool :=
  left.components == right.components

end FilePath

end Fragboard.Storage
