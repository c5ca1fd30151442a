/-!
# Reading text out of arbitrary bytes

Names come back from disk as raw bytes.  `decode` reads them as UTF-8 and puts
one replacement character in the place of each ill-formed stretch, where a
stretch is as long as it can be while still being the beginning of some
well-formed character.
-/

namespace Fragboard.Text

/-- The character that stands for an ill-formed stretch of bytes. -/
def replacementChar : Char := '\uFFFD'

def encode (characters : List Char) : List UInt8 :=
  characters.flatMap String.utf8EncodeChar

/-- The well-formed character at the front of some bytes. -/
def frontChar? (bytes : List UInt8) : Option Char :=
  (bytes.take 4).toByteArray.utf8DecodeChar? 0

/-- What a lead byte asks of the bytes after it. -/
structure LeadByte where
  /-- The range of the second byte. -/
  low : UInt8
  high : UInt8
  /-- How many bytes follow the second one. -/
  following : Nat

/-- The demands of a lead byte, none for a byte that leads no longer
character. -/
def leadByte? (byte : UInt8) : Option LeadByte :=
  if byte < 0xC2 then none
  else if byte < 0xE0 then some ⟨0x80, 0xBF, 0⟩
  else if byte == 0xE0 then some ⟨0xA0, 0xBF, 1⟩
  else if byte == 0xED then some ⟨0x80, 0x9F, 1⟩
  else if byte < 0xF0 then some ⟨0x80, 0xBF, 1⟩
  else if byte == 0xF0 then some ⟨0x90, 0xBF, 2⟩
  else if byte < 0xF4 then some ⟨0x80, 0xBF, 2⟩
  else if byte == 0xF4 then some ⟨0x80, 0x8F, 2⟩
  else none

def isContinuation (byte : UInt8) : Bool :=
  0x80 ≤ byte && byte ≤ 0xBF

/-- How many bytes after an ill-formed first byte belong to the same stretch. -/
def strayLength (first : UInt8) (rest : List UInt8) : Nat :=
  match leadByte? first, rest with
  | some lead, second :: others =>
    if lead.low ≤ second && second ≤ lead.high then
      1 + ((others.take lead.following).takeWhile isContinuation).length
    else
      0
  | _, _ => 0

/-- Reads bytes as UTF-8, with one replacement character for each ill-formed
stretch. -/
def decode : List UInt8 → List Char
  | [] => []
  | first :: rest =>
    match frontChar? (first :: rest) with
    | some character =>
      character :: decode (rest.drop (character.utf8Size - 1))
    | none => replacementChar :: decode (rest.drop (strayLength first rest))
termination_by bytes => bytes.length
decreasing_by
  all_goals
    rw [List.length_drop, List.length_cons]
    omega

end Fragboard.Text
