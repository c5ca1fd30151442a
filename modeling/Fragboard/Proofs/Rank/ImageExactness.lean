import Fragboard.Proofs.Storage.FaithfulLayout
import Fragboard.Rank.Image

/-!
# Exactness of rank file images

`Image.decode` accepts a byte string exactly when it is the image of some
records, and then returns these records, whatever the checksum is.  The only bound
is the width of the record count in the header: an image holds fewer than
`UInt32.size` records.
-/

namespace Fragboard.Rank

open Storage (Bytes Layout)

namespace RankRecord

theorem layout_faithful : RankRecord.layout.Faithful := by
  have nameField : (((Layout.cells nameBytes Layout.byte).convert
      NameField.mk NameField.bytes)).Faithful :=
    (Layout.byte_faithful.cells nameBytes).convert
      (fun _ => rfl) (fun _ => rfl)
  have counter : (Layout.word.convert UInt32.toInt32 Int32.toUInt32).Faithful :=
    Layout.word_faithful.convert (fun _ => rfl) (fun _ => rfl)
  have statBlock : ((Layout.cells 16
      (Layout.word.convert UInt32.toInt32 Int32.toUInt32)).convert
        StatBlock.mk StatBlock.words).Faithful :=
    (counter.cells 16).convert (fun _ => rfl) (fun _ => rfl)
  exact (nameField.pair (nameField.pair
    (statBlock.pair Layout.word_faithful))).convert
      (fun _ => rfl) (fun _ => rfl)

theorem layout_hasWidth : RankRecord.layout.HasWidth Image.recordSize := by
  have nameField : ((Layout.cells nameBytes Layout.byte).convert
      NameField.mk NameField.bytes).HasWidth 32 :=
    (Layout.byte_hasWidth.cells nameBytes).convert _ _
  have statBlock : ((Layout.cells 16
      (Layout.word.convert UInt32.toInt32 Int32.toUInt32)).convert
        StatBlock.mk StatBlock.words).HasWidth 64 :=
    ((Layout.word_hasWidth.convert _ _).cells 16).convert _ _
  exact (nameField.pair (nameField.pair
    (statBlock.pair Layout.word_hasWidth))).convert _ _

end RankRecord

namespace Image

namespace Header

theorem layout_faithful : Header.layout.Faithful :=
  ((Layout.byte_faithful.cells 4).pair (Layout.word_faithful.pair
    (Layout.word_faithful.pair Layout.word_faithful))).convert
      (fun _ => rfl) (fun _ => rfl)

theorem layout_hasWidth : Header.layout.HasWidth headerSize :=
  ((Layout.byte_hasWidth.cells 4).pair (Layout.word_hasWidth.pair
    (Layout.word_hasWidth.pair Layout.word_hasWidth))).convert _ _

end Header

section Checksum

variable (checksum : Bytes → UInt32)

/-- The header of the image of some records. -/
def headerOf (records : List RankRecord) : Header :=
  { magic := magic
    version := version
    count := UInt32.ofNat records.length
    checksum := checksum (RankRecord.layout.writeMany records) }

theorem encodeWith_eq (records : List RankRecord) :
    encodeWith checksum records =
      Header.layout.write (headerOf checksum records) ++
        RankRecord.layout.writeMany records :=
  rfl

theorem length_encodeWith (records : List RankRecord) :
    (encodeWith checksum records).length =
      records.length * recordSize + headerSize := by
  rw [encodeWith_eq, List.length_append, Header.layout_hasWidth,
    RankRecord.layout_hasWidth.length_writeMany]
  omega

/-- An image is the encoding of records that its header can count. -/
def IsImage (bytes : Bytes) : Prop :=
  ∃ records : List RankRecord,
    records.length < UInt32.size ∧ bytes = encodeWith checksum records

variable {checksum} {bytes : Bytes} {records : List RankRecord}

theorem count_headerOf (countable : records.length < UInt32.size) :
    (headerOf checksum records).count.toNat = records.length :=
  UInt32.toNat_ofNat_of_lt' countable

theorem decodeWith_encodeWith (countable : records.length < UInt32.size) :
    decodeWith checksum (encodeWith checksum records) = .ok records := by
  have header := Header.layout_faithful.read_write (headerOf checksum records)
    (RankRecord.layout.writeMany records)
  have body := Layout.readMany_writeMany RankRecord.layout_faithful records []
  rw [List.append_nil] at body
  have count : (headerOf checksum records).count.toNat = records.length :=
    count_headerOf countable
  have length := length_encodeWith checksum records
  have sameMagic : (headerOf checksum records).magic = magic := rfl
  have sameVersion : (headerOf checksum records).version = version := rfl
  have sameChecksum : (headerOf checksum records).checksum =
      checksum (RankRecord.layout.writeMany records) := rfl
  rw [encodeWith_eq] at length ⊢
  simp only [decodeWith, header, sameMagic, sameVersion, count, length,
    sameChecksum, body, ne_eq, not_true_eq_false, if_false]

/-- What is accepted: a header that agrees with the records that follow it, and
nothing after them. -/
private theorem parts_of_decodeWith
    (success : decodeWith checksum bytes = .ok records) :
    ∃ header, bytes = Header.layout.write header ++
        RankRecord.layout.writeMany records ∧
      header.magic = magic ∧ header.version = version ∧
      header.count.toNat = records.length ∧
      header.checksum = checksum (RankRecord.layout.writeMany records) := by
  unfold decodeWith at success
  split at success
  · contradiction
  · next header body read =>
    simp only [ne_eq, ite_not] at success
    split at success <;> try contradiction
    next sameMagic =>
    split at success <;> try contradiction
    next sameVersion =>
    split at success <;> try contradiction
    next sameLength =>
    split at success <;> try contradiction
    next sameChecksum =>
    split at success <;> try contradiction
    next stored rest bodyRead =>
    obtain rfl : stored = records := by simpa using success
    have whole := Header.layout_faithful.eq_write_of_read read
    have split := Layout.eq_writeMany_of_readMany
      RankRecord.layout_faithful bodyRead
    have count := Layout.length_of_readMany bodyRead
    have nothingLeft : rest = [] := by
      have length := sameLength
      rw [whole, split, List.length_append, List.length_append,
        Header.layout_hasWidth, RankRecord.layout_hasWidth.length_writeMany,
        count] at length
      exact List.eq_nil_of_length_eq_zero (by omega)
    rw [nothingLeft, List.append_nil] at split
    subst split
    exact ⟨header, whole, sameMagic, sameVersion, count.symm, sameChecksum⟩

theorem length_lt_of_decodeWith
    (success : decodeWith checksum bytes = .ok records) :
    records.length < UInt32.size := by
  obtain ⟨header, _, _, _, count, _⟩ := parts_of_decodeWith success
  rw [← count]
  exact header.count.toNat_lt

/-- Only an image decodes. -/
theorem eq_encodeWith_of_decodeWith
    (success : decodeWith checksum bytes = .ok records) :
    bytes = encodeWith checksum records := by
  obtain ⟨header, whole, sameMagic, sameVersion, count, sameChecksum⟩ :=
    parts_of_decodeWith success
  have agree : header = headerOf checksum records := by
    cases header
    simp only [headerOf, Header.mk.injEq] at *
    exact ⟨sameMagic, sameVersion, by rw [← count, UInt32.ofNat_toNat],
      sameChecksum⟩
  rw [whole, agree, encodeWith_eq]

theorem isImage_of_decodeWith
    (success : decodeWith checksum bytes = .ok records) :
    IsImage checksum bytes :=
  ⟨records, length_lt_of_decodeWith success,
    eq_encodeWith_of_decodeWith success⟩

theorem IsImage.length_mod (image : IsImage checksum bytes) :
    bytes.length % recordSize = headerSize := by
  obtain ⟨records, _, rfl⟩ := image
  rw [length_encodeWith]
  simp only [recordSize, headerSize]
  omega

end Checksum

theorem length_encode (records : List RankRecord) :
    (encode records).length = records.length * recordSize + headerSize :=
  length_encodeWith Checksum.ofBytes records

theorem decode_encode {records : List RankRecord}
    (countable : records.length < UInt32.size) :
    decode (encode records) = .ok records :=
  decodeWith_encodeWith countable

/-- Whatever the checksum, reading accepts exactly what writing produces.  In
consequence it gives back what was written, it never takes two byte strings for
the same records, and whatever is no image is rejected: a cut or prolonged image,
one with another header, or any other byte string. -/
theorem decode_eq_ok_iff_encode (checksum : Bytes → UInt32) :
    (∀ (bytes : Bytes) (records : List RankRecord),
      records.length < UInt32.size →
      (decodeWith checksum bytes = .ok records ↔
        bytes = encodeWith checksum records)) ∧
    (∀ records : List RankRecord, records.length < UInt32.size →
      decodeWith checksum (encodeWith checksum records) = .ok records) ∧
    (∀ (first second : Bytes) (records : List RankRecord),
      decodeWith checksum first = .ok records →
      decodeWith checksum second = .ok records → first = second) ∧
    (∀ bytes : Bytes, ¬IsImage checksum bytes →
      ∃ failure, decodeWith checksum bytes = .error failure) := by
  refine ⟨?_, fun _ => decodeWith_encodeWith, ?_, ?_⟩
  · intro bytes records countable
    constructor
    · exact eq_encodeWith_of_decodeWith
    · intro written
      rw [written]
      exact decodeWith_encodeWith countable
  · intro first second records firstSuccess secondSuccess
    rw [eq_encodeWith_of_decodeWith firstSuccess,
      eq_encodeWith_of_decodeWith secondSuccess]
  · intro bytes noImage
    cases result : decodeWith checksum bytes with
    | error failure => exact ⟨failure, rfl⟩
    | ok records => exact absurd (isImage_of_decodeWith result) noImage

/-- The image of one record is read back, and with a byte more it is
rejected. -/
theorem decode_prolonged_image :
    let record : RankRecord :=
      { name := NameField.pack "Sarge"
        unique := NameField.pack "STEAM_0:1"
        stats := StatBlock.zero.recordHit 40 (some .head)
        position := 1 }
    let prolonged := encode [record] ++ [0]
    [record].length < UInt32.size ∧ decode (encode [record]) = .ok [record] ∧
      ¬IsImage Checksum.ofBytes prolonged ∧
      ∃ failure, decode prolonged = .error failure := by
  intro record prolonged
  have countable : [record].length < UInt32.size := by decide
  have noImage : ¬IsImage Checksum.ofBytes prolonged := by
    intro image
    have length := image.length_mod
    simp [prolonged, length_encode, recordSize, headerSize] at length
  obtain ⟨accepted, _, _, rejected⟩ := decode_eq_ok_iff_encode Checksum.ofBytes
  exact ⟨countable, (accepted _ _ countable).mpr rfl, noImage,
    rejected _ noImage⟩

end Image

end Fragboard.Rank
