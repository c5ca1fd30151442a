import Fragboard.Storage.Layout

/-!
# Faithful layouts

Every layout that is built from bytes and words by `pair`, `convert` and `cells`
is faithful, and all values of such a layout take up the same number of bytes.
A reader of a faithful layout accepts exactly what its writer produces, so the
facts below are all that later modules need to know about bytes.
-/

namespace Fragboard.Storage

namespace Layout

variable {α β : Type}

/-- All values take up the same number of bytes. -/
def HasWidth (layout : Layout α) (width : Nat) : Prop :=
  ∀ value, (layout.write value).length = width

theorem byte_faithful : byte.Faithful := by
  constructor
  · intro value rest
    rfl
  · intro bytes value rest success
    cases bytes with
    | nil => simp [byte] at success
    | cons head tail =>
        simp only [byte, Option.some.injEq, Prod.mk.injEq] at success
        obtain ⟨rfl, rfl⟩ := success
        rfl

theorem byte_hasWidth : byte.HasWidth 1 :=
  fun _ => rfl

/-- A word is the sum of its four bytes, each at its place. -/
private theorem word_of_places (value : UInt32) :
    UInt32.ofNat (value.toNat % 256 + 256 * (value.toNat / 256 % 256) +
      65536 * (value.toNat / 65536 % 256) +
      16777216 * (value.toNat / 16777216 % 256)) = value := by
  have bound := value.toNat_lt
  apply UInt32.toNat_inj.mp
  rw [UInt32.toNat_ofNat']
  omega

theorem word_faithful : word.Faithful := by
  constructor
  · intro value rest
    simp only [word, List.cons_append, List.nil_append, UInt8.toNat_ofNat',
      Nat.reducePow, word_of_places]
  · intro bytes value rest success
    match bytes, success with
    | first :: second :: third :: fourth :: tail, success =>
        simp only [word, Option.some.injEq, Prod.mk.injEq] at success
        obtain ⟨rfl, rfl⟩ := success
        have firstBound := first.toNat_lt
        have secondBound := second.toNat_lt
        have thirdBound := third.toNat_lt
        have fourthBound := fourth.toNat_lt
        simp only [word, List.cons_append, List.nil_append, List.cons.injEq,
          and_true, UInt32.toNat_ofNat', ← UInt8.toNat_inj,
          UInt8.toNat_ofNat']
        omega

theorem word_hasWidth : word.HasWidth 4 :=
  fun _ => rfl

theorem Faithful.pair {first : Layout α} {second : Layout β}
    (firstFaithful : first.Faithful) (secondFaithful : second.Faithful) :
    (first.pair second).Faithful := by
  constructor
  · intro value rest
    simp [Layout.pair, List.append_assoc, firstFaithful.read_write,
      secondFaithful.read_write]
  · intro bytes value rest success
    simp only [Layout.pair, Option.bind_eq_bind, Option.bind_eq_some_iff,
      Prod.exists, Option.some.injEq, Prod.mk.injEq] at success
    obtain ⟨left, middle, leftRead, right, last, rightRead, rfl, rfl⟩ := success
    rw [firstFaithful.eq_write_of_read leftRead,
      secondFaithful.eq_write_of_read rightRead]
    simp [Layout.pair]

theorem HasWidth.pair {first : Layout α} {second : Layout β}
    {firstWidth secondWidth : Nat} (firstHas : first.HasWidth firstWidth)
    (secondHas : second.HasWidth secondWidth) :
    (first.pair second).HasWidth (firstWidth + secondWidth) := by
  intro value
  simp [Layout.pair, firstHas value.1, secondHas value.2]

/-- Converting keeps a layout faithful when the two conversions undo each
other. -/
theorem Faithful.convert {layout : Layout α} (faithful : layout.Faithful)
    {into : α → β} {outOf : β → α}
    (into_outOf : ∀ value, into (outOf value) = value)
    (outOf_into : ∀ value, outOf (into value) = value) :
    (layout.convert into outOf).Faithful := by
  constructor
  · intro value rest
    simp [Layout.convert, faithful.read_write, into_outOf]
  · intro bytes value rest success
    simp only [Layout.convert, Option.bind_eq_bind, Option.bind_eq_some_iff,
      Prod.exists, Option.some.injEq, Prod.mk.injEq] at success
    obtain ⟨stored, last, read, rfl, rfl⟩ := success
    rw [faithful.eq_write_of_read read]
    simp [Layout.convert, outOf_into]

theorem HasWidth.convert {layout : Layout α} {width : Nat}
    (has : layout.HasWidth width) (into : α → β) (outOf : β → α) :
    (layout.convert into outOf).HasWidth width :=
  fun value => has (outOf value)

section Sequences

variable {layout : Layout α}

theorem readMany_writeMany (faithful : layout.Faithful) (values : List α)
    (rest : Bytes) :
    layout.readMany values.length (layout.writeMany values ++ rest) =
      some (values, rest) := by
  induction values with
  | nil => rfl
  | cons value values ih =>
      simp only [writeMany] at ih
      simp [readMany, writeMany, List.append_assoc, faithful.read_write, ih]

theorem length_of_readMany {count : Nat} {bytes rest : Bytes} {values : List α}
    (success : layout.readMany count bytes = some (values, rest)) :
    values.length = count := by
  induction count generalizing bytes values with
  | zero =>
      simp only [readMany, Option.some.injEq, Prod.mk.injEq] at success
      simp [← success.1]
  | succ count ih =>
      simp only [readMany, Option.bind_eq_bind, Option.bind_eq_some_iff,
        Prod.exists, Option.some.injEq, Prod.mk.injEq] at success
      obtain ⟨value, middle, _, others, last, othersRead, rfl, rfl⟩ := success
      simp [ih othersRead]

theorem eq_writeMany_of_readMany (faithful : layout.Faithful) {count : Nat}
    {bytes rest : Bytes} {values : List α}
    (success : layout.readMany count bytes = some (values, rest)) :
    bytes = layout.writeMany values ++ rest := by
  induction count generalizing bytes values with
  | zero =>
      simp only [readMany, Option.some.injEq, Prod.mk.injEq] at success
      obtain ⟨rfl, rfl⟩ := success
      rfl
  | succ count ih =>
      simp only [readMany, Option.bind_eq_bind, Option.bind_eq_some_iff,
        Prod.exists, Option.some.injEq, Prod.mk.injEq] at success
      obtain ⟨value, middle, read, others, last, othersRead, rfl, rfl⟩ :=
        success
      rw [faithful.eq_write_of_read read, ih othersRead]
      simp [writeMany]

theorem HasWidth.length_writeMany {width : Nat} (has : layout.HasWidth width)
    (values : List α) :
    (layout.writeMany values).length = values.length * width := by
  have constant : values.map (fun value => (layout.write value).length) =
      List.replicate values.length width := by
    rw [List.map_congr_left (fun value _ => has value), List.map_const']
  simp [writeMany, List.length_flatMap, constant]

theorem Faithful.cells (faithful : layout.Faithful) (size : Nat) :
    (layout.cells size).Faithful := by
  constructor
  · intro table rest
    have length : table.toList.length = size := by simp [Cells.toList]
    have read : layout.readMany size (layout.writeMany table.toList ++ rest) =
        some (table.toList, rest) := by
      simpa only [length] using readMany_writeMany faithful table.toList rest
    simp only [Layout.cells, read, Option.bind_eq_bind, Option.bind_some,
      dif_pos length]
    rfl
  · intro bytes table rest success
    simp only [Layout.cells, Option.bind_eq_bind, Option.bind_eq_some_iff,
      Prod.exists] at success
    obtain ⟨values, middle, read, built⟩ := success
    rw [dif_pos (length_of_readMany read)] at built
    simp only [Option.some.injEq, Prod.mk.injEq] at built
    obtain ⟨rfl, rfl⟩ := built
    simpa [Layout.cells, Cells.toList] using
      eq_writeMany_of_readMany faithful read

theorem HasWidth.cells {width : Nat} (has : layout.HasWidth width)
    (size : Nat) : (layout.cells size).HasWidth (size * width) := by
  intro table
  simp [Layout.cells, has.length_writeMany, Cells.toList]

end Sequences

end Layout

end Fragboard.Storage
