import Fragboard.Proofs.Rank.ImageExactness
import Fragboard.Proofs.Storage.ChangedBytes
import Fragboard.Proofs.Storage.ChecksumDetection
import Fragboard.Rank.Persistence

/-!
# Damaged rank files

A rank file in which one byte is changed is rejected, and the failure tells
where the byte lies: in the magic, the version or the count, each of which is
judged by itself, or behind them.  There the stored checksum and the records no
longer agree, whichever of the two was changed.
-/

namespace Fragboard.Rank

open Storage (Bytes Layout)

/-- The failure is one that a change of the byte at an index brings about. -/
def RankError.Reports (index : Nat) : RankError → Prop
  | .badMagic => index < 4
  | .versionMismatch found expected =>
    4 ≤ index ∧ index < 8 ∧ expected = Image.version ∧ found ≠ expected
  | .truncated expected actual =>
    8 ≤ index ∧ index < 12 ∧ actual ≠ expected
  | .checksumMismatch stored computed => 12 ≤ index ∧ stored ≠ computed
  | _ => False

namespace Image

namespace Header

theorem layout_full : Header.layout.Full headerSize :=
  ((Layout.byte_full.cells 4).pair (Layout.word_full.pair
    (Layout.word_full.pair Layout.word_full))).convert (fun _ => rfl)

/-- The part of a header in which the changed byte lies. -/
theorem changes_cases {index : Nat} {header changed : Header}
    (changes : Header.layout.Changes index header changed) :
    (index < 4 ∧ changed.magic ≠ header.magic) ∨
    (changed.magic = header.magic ∧
      ((4 ≤ index ∧ index < 8 ∧ changed.version ≠ header.version) ∨
      (changed.version = header.version ∧
        ((8 ≤ index ∧ index < 12 ∧ changed.count ≠ header.count) ∨
        (changed.count = header.count ∧
          12 ≤ index ∧ changed.checksum ≠ header.checksum))))) := by
  have word := Layout.word_faithful
  have pairs := changes.of_convert (fun _ => rfl)
  rcases pairs.of_pair (Layout.byte_hasWidth.cells 4)
      (Layout.byte_faithful.cells 4) (word.pair (word.pair word)) with
    ⟨inside, magic, _⟩ | ⟨_, magic, afterMagic⟩
  · exact .inl ⟨inside, magic.other⟩
  rcases afterMagic.of_pair Layout.word_hasWidth word (word.pair word) with
    ⟨inside, version, _⟩ | ⟨_, version, afterVersion⟩
  · exact .inr ⟨magic, .inl ⟨by omega, by omega, version.other⟩⟩
  rcases afterVersion.of_pair Layout.word_hasWidth word word with
    ⟨inside, count, _⟩ | ⟨_, count, checksum⟩
  · exact .inr ⟨magic, .inr ⟨version,
      .inl ⟨by omega, by omega, count.other⟩⟩⟩
  · exact .inr ⟨magic, .inr ⟨version,
      .inr ⟨count, by omega, checksum.other⟩⟩⟩

end Header

section Damaged

variable {records : List RankRecord} (countable : records.length < UInt32.size)

include countable

/-- A file of the length of an image fits the count of the image only. -/
theorem length_eq_iff_count (header : Header) {body : Bytes}
    (length : body.length = records.length * recordSize) :
    (Header.layout.write header ++ body).length =
        header.count.toNat * recordSize + headerSize ↔
      header.count = (headerOf Checksum.ofBytes records).count := by
  have stored : (headerOf Checksum.ofBytes records).count.toNat =
      records.length := count_headerOf countable
  rw [List.length_append, Header.layout_hasWidth, length, ← stored,
    ← UInt32.toNat_inj]
  simp only [recordSize]
  omega

theorem decode_of_changed_header {header : Header} {index : Nat}
    (changes : Header.layout.Changes index
      (headerOf Checksum.ofBytes records) header) :
    ∃ failure,
      decode (Header.layout.write header ++
        RankRecord.layout.writeMany records) = .error failure ∧
      failure.Reports index := by
  have fits := length_eq_iff_count countable header
    (RankRecord.layout_hasWidth.length_writeMany records)
  rw [decode, decodeWith, Header.layout_faithful.read_write]
  rcases Header.changes_cases changes with
    ⟨inside, other⟩ | ⟨magic, ⟨behind, inside, other⟩ | ⟨version,
      ⟨behind, inside, other⟩ | ⟨count, behind, other⟩⟩⟩
  · exact ⟨_, if_pos other, inside⟩
  · exact ⟨_, (if_neg (not_not_intro magic)).trans (if_pos other),
      behind, inside, rfl, other⟩
  · have length := mt fits.mp other
    exact ⟨_, (if_neg (not_not_intro magic)).trans
      ((if_neg (not_not_intro version)).trans (if_pos length)),
      behind, inside, length⟩
  · have length := fits.mpr count
    exact ⟨_, (if_neg (not_not_intro magic)).trans
      ((if_neg (not_not_intro version)).trans
        ((if_neg (not_not_intro length)).trans (if_pos other))),
      behind, other⟩

theorem decode_of_changed_body {header : Header} {body : Bytes}
    (stored : header = headerOf Checksum.ofBytes records)
    (length : body.length = records.length * recordSize)
    (other : header.checksum ≠ Checksum.ofBytes body) :
    decode (Header.layout.write header ++ body) =
      .error (.checksumMismatch header.checksum (Checksum.ofBytes body)) := by
  subst stored
  have fits := (length_eq_iff_count countable
    (headerOf Checksum.ofBytes records) length).mpr rfl
  rw [decode, decodeWith, Header.layout_faithful.read_write]
  exact (if_neg (not_not_intro rfl)).trans
    ((if_neg (not_not_intro rfl)).trans
      ((if_neg (not_not_intro fits)).trans (if_pos other)))

theorem decode_of_changed_parts {header : Header}
    (stored : header = headerOf Checksum.ofBytes records) {index : Nat}
    (inside : index <
      (Header.layout.write header ++
        RankRecord.layout.writeMany records).length) {byte : UInt8}
    (other : byte ≠
      (Header.layout.write header ++
        RankRecord.layout.writeMany records)[index]) :
    ∃ failure,
      decode ((Header.layout.write header ++
        RankRecord.layout.writeMany records).set index byte) =
          .error failure ∧
      failure.Reports index := by
  have width := Header.layout_hasWidth header
  rcases Nat.lt_or_ge index headerSize with front | behind
  · have early : index < (Header.layout.write header).length := by
      rw [width]
      exact front
    rw [List.getElem_append_left early] at other
    obtain ⟨changed, written, changes⟩ := Layout.exists_changes
      Header.layout_full Header.layout_hasWidth header early other
    rw [List.set_append_left _ _ early, ← written]
    subst stored
    exact decode_of_changed_header countable changes
  · have late : (Header.layout.write header).length ≤ index := by
      rw [width]
      exact behind
    rw [List.getElem_append_right late] at other
    have bodyInside : index - (Header.layout.write header).length <
        (RankRecord.layout.writeMany records).length := by
      rw [List.length_append] at inside
      omega
    have sum : header.checksum =
        Checksum.ofBytes (RankRecord.layout.writeMany records) := by
      rw [stored]
      rfl
    have checks := (Checksum.ofBytes_set_ne bodyInside other).symm
    rw [← sum] at checks
    have length := RankRecord.layout_hasWidth.length_writeMany records
    rw [List.set_append_right _ _ late]
    refine ⟨_, decode_of_changed_body countable stored ?_ checks, ?_⟩
    · rw [List.length_set, length]
    · have beyond : 12 ≤ index := Nat.le_trans (by decide) behind
      exact ⟨beyond, checks⟩

/-- Reading an image in which one byte is changed fails, and the failure reports
the place of the byte. -/
theorem decode_of_changed_byte {index : Nat}
    (inside : index < (encode records).length) {byte : UInt8}
    (other : byte ≠ (encode records)[index]) :
    ∃ failure, decode ((encode records).set index byte) = .error failure ∧
      failure.Reports index :=
  decode_of_changed_parts countable rfl inside other

end Damaged

end Image

namespace Board

/-- A rank file with one byte changed is rejected, by the check that its place
calls for, and leaves the board empty. -/
theorem loadBytes_of_changed_byte {records : List RankRecord}
    (countable : records.length < UInt32.size) {index : Nat}
    (inside : index < (Image.encode records).length) {byte : UInt8}
    (other : byte ≠ (Image.encode records)[index]) :
    let damaged := (Image.encode records).set index byte
    ∃ failure, failure.Reports index ∧
      Image.decode damaged = .error failure ∧
      ∀ board : Board, (board.loadBytes damaged).1 = .error failure ∧
        (board.loadBytes damaged).2.rows = [] := by
  intro damaged
  obtain ⟨failure, rejected, reported⟩ :=
    Image.decode_of_changed_byte countable inside other
  refine ⟨failure, reported, rejected, ?_⟩
  intro board
  rw [loadBytes, rejected]
  exact ⟨rfl, rfl⟩

/-- The second letter of a name is changed. -/
theorem loadBytes_of_changed_letter :
    let record : RankRecord :=
      { name := NameField.pack "ann"
        unique := NameField.pack "id:ann"
        stats := StatBlock.zero.award (-7)
        position := 1 }
    let image := Image.encode [record]
    let damaged := image.set 17 0x6D
    [record].length < UInt32.size ∧
    (∃ inside : 17 < image.length, 0x6D ≠ image.get ⟨17, inside⟩) ∧
    ∃ failure : RankError, failure.Reports 17 ∧
      Image.decode damaged = .error failure ∧
      ∀ board : Board, (board.loadBytes damaged).1 = .error failure ∧
        (board.loadBytes damaged).2.rows = [] := by
  intro record image damaged
  have countable : [record].length < UInt32.size := by decide
  have inside : 17 < image.length := by decide +kernel
  have other : 0x6D ≠ image.get ⟨17, inside⟩ := by decide +kernel +revert
  exact ⟨countable, ⟨inside, other⟩,
    loadBytes_of_changed_byte countable inside other⟩

end Board

end Fragboard.Rank
