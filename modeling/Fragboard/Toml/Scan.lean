/-!
# Scanning text

A scanner takes characters off the front of a text or fails.  The text that is
left only gets shorter, so its length bounds every repetition.
-/

namespace Fragboard.Toml

/-- A scanner: what it read and the text it left, or a failure. -/
abbrev Scan (α : Type) := StateT (List Char) Option α

namespace Scan

variable {α β : Type}

def fail : Scan α :=
  fun _ => none

/-- The next character, left in place. -/
def peek? : Scan (Option Char) :=
  fun text => some (text.head?, text)

def oneOf (belongs : Char → Bool) : Scan Char
  | character :: rest => if belongs character then some (character, rest) else none
  | [] => none

def exactly (expected : String) : Scan Unit :=
  fun text =>
    let characters := expected.toList
    if characters.isPrefixOf text then some ((), text.drop characters.length)
    else none

def span (belongs : Char → Bool) : Scan (List Char) :=
  fun text => some (text.span belongs)

/-- The longest run of characters of a class, at least one. -/
def someRun (belongs : Char → Bool) : Scan (List Char) := do
  let found ← span belongs
  if found.isEmpty then fail else pure found

def count (belongs : Char → Bool) : Nat → Scan (List Char)
  | 0 => pure []
  | number + 1 => do
    let first ← oneOf belongs
    let others ← count belongs number
    pure (first :: others)

/-- Whether a given text comes next; if so, it is taken. -/
def accepts (expected : String) : Scan Bool :=
  (exactly expected *> pure true) <|> pure false

/-- Repeats a scanner until it fails, at most a number of times. -/
def repeatUpTo (scan : Scan α) : Nat → Scan (List α)
  | 0 => pure []
  | bound + 1 => do
    match ← optional scan with
    | none => pure []
    | some first => do
      let others ← repeatUpTo scan bound
      pure (first :: others)

/-- Repeats a scanner that takes at least one character each time. -/
def many (scan : Scan α) : Scan (List α) :=
  fun text => repeatUpTo scan text.length text

def atEnd : Scan Unit
  | [] => some ((), [])
  | _ :: _ => none

end Scan

def isBlank (character : Char) : Bool :=
  character == ' ' || character == '\t'

def isWide (character : Char) : Bool :=
  '\x80' ≤ character

/-- A character that may stand in a comment: no control character but the
tab. -/
def isPlain (character : Char) : Bool :=
  character == '\t' || (' ' ≤ character && character ≤ '~') || isWide character

namespace Scan

def blanks : Scan Unit :=
  discard (span isBlank)

/-- A line feed, alone or after a carriage return. -/
def newline : Scan Unit :=
  exactly "\n" <|> exactly "\r\n"

def comment : Scan Unit :=
  exactly "#" *> discard (span isPlain)

/-- Blanks, comments and line ends between the items of an array. -/
def gap : Scan Unit :=
  discard (many (discard (someRun isBlank) <|> newline <|> comment))

/-- The rest of a line: blanks, a comment, and the line end or the end of the
text. -/
def lineEnd : Scan Unit := do
  blanks
  discard (optional comment)
  newline <|> atEnd

end Scan

end Fragboard.Toml
