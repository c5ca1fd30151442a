import Fragboard.Checksum
import Fragboard.Rank.Error
import Fragboard.Rank.NameField
import Fragboard.Stats
import Fragboard.Storage.Layout

/-!
# Rank file images

A rank file is a header of four words (magic, version, number of records,
checksum of the records) followed by records of 132 bytes.  All words are
stored lowest byte first.  `decode` accepts a byte string only if its length and
its checksum agree with its header.  Both directions are written for any checksum
(`encodeWith`, `decodeWith`); files use `Checksum.ofBytes`.
-/

namespace Fragboard.Rank

open Storage (Bytes Layout)

structure RankRecord where
  name : NameField
  unique : NameField
  stats : StatBlock
  /-- The position of the row, counted from one, when it was saved. -/
  position : UInt32
deriving DecidableEq

namespace RankRecord

private def nameField : Layout NameField :=
  (Layout.cells nameBytes Layout.byte).convert NameField.mk NameField.bytes

private def statBlock : Layout StatBlock :=
  (Layout.cells 16 (Layout.word.convert UInt32.toInt32 Int32.toUInt32)).convert
    StatBlock.mk StatBlock.words

/-- Two names, sixteen counters and the position. -/
def layout : Layout RankRecord :=
  (nameField.pair (nameField.pair (statBlock.pair Layout.word))).convert
    (fun parts =>
      { name := parts.1
        unique := parts.2.1
        stats := parts.2.2.1
        position := parts.2.2.2 })
    (fun record =>
      (record.name, record.unique, record.stats, record.position))

end RankRecord

namespace Image

structure Header where
  magic : Cells 4 UInt8
  version : UInt32
  count : UInt32
  checksum : UInt32
deriving DecidableEq

namespace Header

def layout : Layout Header :=
  ((Layout.cells 4 Layout.byte).pair
    (Layout.word.pair (Layout.word.pair Layout.word))).convert
    (fun parts =>
      { magic := parts.1
        version := parts.2.1
        count := parts.2.2.1
        checksum := parts.2.2.2 })
    (fun header =>
      (header.magic, header.version, header.count, header.checksum))

end Header

/-- The first four bytes of every rank file. -/
def magic : Cells 4 UInt8 :=
  { rows := #v[0x53, 0x4B, 0x52, 0x4B] }

def version : UInt32 := 1

def headerSize : Nat := 16

def recordSize : Nat := 132

/-- The image of some records under a checksum. -/
def encodeWith (checksum : Bytes → UInt32) (records : List RankRecord) :
    Bytes :=
  let body := RankRecord.layout.writeMany records
  let header : Header :=
    { magic := magic
      version := version
      count := UInt32.ofNat records.length
      checksum := checksum body }
  Header.layout.write header ++ body

/-- Reads an image.  The header is judged from left to right, then the length
of the file, then the checksum. -/
def decodeWith (checksum : Bytes → UInt32) (bytes : Bytes) :
    Except RankError (List RankRecord) :=
  match Header.layout.read bytes with
  | none => .error (.truncated headerSize bytes.length)
  | some (header, body) =>
    let expected := header.count.toNat * recordSize + headerSize
    if header.magic ≠ magic then
      .error .badMagic
    else if header.version ≠ version then
      .error (.versionMismatch header.version version)
    else if bytes.length ≠ expected then
      .error (.truncated expected bytes.length)
    else if header.checksum ≠ checksum body then
      .error (.checksumMismatch header.checksum (checksum body))
    else
      match RankRecord.layout.readMany header.count.toNat body with
      | some (records, _) => .ok records
      | none => .error (.truncated expected bytes.length)

def encode (records : List RankRecord) : Bytes :=
  encodeWith Checksum.ofBytes records

def decode (bytes : Bytes) : Except RankError (List RankRecord) :=
  decodeWith Checksum.ofBytes bytes

end Image

end Fragboard.Rank
