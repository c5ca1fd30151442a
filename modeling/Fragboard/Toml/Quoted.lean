import Fragboard.Decimal
import Fragboard.Toml.Scan

/-!
# Quoted text

Basic text stands between quotation marks and knows escapes; literal text stands
between apostrophes and knows none.  Both have a form with tripled marks that
may span lines.
-/

namespace Fragboard.Toml.Quoted

open Scan

/-- The character with a hexadecimal number. -/
def codePoint (digits : Nat) : Scan Char := do
  let found ← count (fun character => (Decimal.digit? character).isSome) digits
  let number := Decimal.ofDigits 16 (found.filterMap Decimal.digit?)
  if number.isValidChar then pure (Char.ofNat number) else fail

def escaped : Scan Char := do
  match ← oneOf fun _ => true with
  | 'b' => pure '\x08'
  | 't' => pure '\t'
  | 'n' => pure '\n'
  | 'f' => pure '\x0C'
  | 'r' => pure '\r'
  | '"' => pure '"'
  | '\\' => pure '\\'
  | 'u' => codePoint 4
  | 'U' => codePoint 8
  | _ => fail

def isBasic (character : Char) : Bool :=
  isPlain character && character != '"' && character != '\\'

def isLiteral (character : Char) : Bool :=
  isPlain character && character != '\''

/-- Text between quotation marks on one line. -/
def basic : Scan String := do
  exactly "\""
  let pieces ← many (someRun isBasic <|>
    (exactly "\\" *> (fun character => [character]) <$> escaped))
  exactly "\""
  pure (String.ofList pieces.flatten)

/-- Text between apostrophes on one line. -/
def literal : Scan String := do
  exactly "'"
  let characters ← span isLiteral
  exactly "'"
  pure (String.ofList characters)

/-- A backslash at the end of a line takes away the line end and all blanks and
line ends after it. -/
def joinedLines : Scan (List Char) := do
  exactly "\\"
  blanks
  newline
  discard (many (discard (someRun isBlank) <|> newline))
  pure []

/-- One or two marks that do not close the text. -/
def looseMarks (mark : Char) : Scan (List Char) := do
  let marks ← someRun (· == mark)
  if marks.length ≤ 2 then pure marks else fail

/-- The marks that close a text of several lines: three, and up to two before
them that belong to the text. -/
def closingMarks (mark : Char) : Scan (List Char) := do
  let marks ← span (· == mark)
  if 3 ≤ marks.length ∧ marks.length ≤ 5 then pure (marks.drop 3) else fail

private def lineBreak : Scan (List Char) :=
  newline *> pure ['\n']

/-- A text of several lines, given its mark and its other pieces.  A line end
right after the opening marks is dropped, and every other one reads as a line
feed. -/
def spanning (mark : Char) (piece : Scan (List Char)) : Scan String := do
  exactly (String.ofList [mark, mark, mark])
  discard (optional newline)
  let pieces ← many (piece <|> lineBreak <|> looseMarks mark)
  let last ← closingMarks mark
  pure (String.ofList (pieces.flatten ++ last))

def spanningBasic : Scan String :=
  spanning '"' (someRun isBasic <|> joinedLines <|>
    (exactly "\\" *> (fun character => [character]) <$> escaped))

def spanningLiteral : Scan String :=
  spanning '\'' (someRun isLiteral)

def text : Scan String :=
  spanningBasic <|> basic <|> spanningLiteral <|> literal

end Fragboard.Toml.Quoted
