import Fragboard.Proofs.Storage.FaithfulLayout

/-!
# Changed bytes in a layout

A layout is full when its values take up all byte strings of its width, as
bytes and words do and whatever is built from them.  In such a layout a change
of one byte gives the bytes of another value.  Of the two parts of a pair it
changes exactly the one in which the byte lies.
-/

namespace Fragboard.Storage

namespace Layout

variable {α β : Type}

/-- Every byte string of the width is written by a value. -/
def Full (layout : Layout α) (width : Nat) : Prop :=
  ∀ bytes : Bytes, bytes.length = width → ∃ value, layout.write value = bytes

theorem write_pair (first : Layout α) (second : Layout β) (value : α × β) :
    (first.pair second).write value =
      first.write value.1 ++ second.write value.2 :=
  rfl

theorem write_convert (layout : Layout α) (into : α → β) (outOf : β → α)
    (value : β) :
    (layout.convert into outOf).write value = layout.write (outOf value) :=
  rfl

theorem byte_full : byte.Full 1 := by
  intro bytes length
  obtain ⟨value, rfl⟩ := List.length_eq_one_iff.mp length
  exact ⟨value, rfl⟩

theorem word_full : word.Full 4 := by
  intro bytes length
  match bytes, length with
  | [first, second, third, fourth], _ =>
      have read : word.read [first, second, third, fourth] = some (_, []) := rfl
      have written := word_faithful.eq_write_of_read read
      rw [List.append_nil] at written
      exact ⟨_, written.symm⟩

theorem Full.pair {first : Layout α} {second : Layout β}
    {firstWidth secondWidth : Nat} (firstFull : first.Full firstWidth)
    (secondFull : second.Full secondWidth) :
    (first.pair second).Full (firstWidth + secondWidth) := by
  intro bytes length
  obtain ⟨left, leftWritten⟩ := firstFull (bytes.take firstWidth)
    (by rw [List.length_take]; omega)
  obtain ⟨right, rightWritten⟩ := secondFull (bytes.drop firstWidth)
    (by rw [List.length_drop]; omega)
  refine ⟨(left, right), ?_⟩
  rw [write_pair, leftWritten, rightWritten, List.take_append_drop]

theorem Full.convert {layout : Layout α} {width : Nat}
    (full : layout.Full width) {into : α → β} {outOf : β → α}
    (outOf_into : ∀ value, outOf (into value) = value) :
    (layout.convert into outOf).Full width := by
  intro bytes length
  obtain ⟨value, written⟩ := full bytes length
  refine ⟨into value, ?_⟩
  rw [write_convert, outOf_into, written]

theorem Full.writeMany {layout : Layout α} {width : Nat}
    (full : layout.Full width) (count : Nat) {bytes : Bytes}
    (length : bytes.length = count * width) :
    ∃ values : List α, values.length = count ∧
      layout.writeMany values = bytes := by
  induction count generalizing bytes with
  | zero =>
      rw [Nat.zero_mul] at length
      exact ⟨[], rfl, (List.eq_nil_of_length_eq_zero length).symm⟩
  | succ count ih =>
      rw [Nat.succ_mul] at length
      obtain ⟨value, written⟩ := full (bytes.take width)
        (by rw [List.length_take]; omega)
      have left : (bytes.drop width).length = count * width := by
        rw [List.length_drop]
        omega
      obtain ⟨values, counted, rest⟩ := ih left
      refine ⟨value :: values, by rw [List.length_cons, counted], ?_⟩
      rw [Layout.writeMany, List.flatMap_cons, ← Layout.writeMany, written,
        rest, List.take_append_drop]

theorem Full.cells {layout : Layout α} {width : Nat} (full : layout.Full width)
    (size : Nat) : (layout.cells size).Full (size * width) := by
  intro bytes length
  obtain ⟨values, rfl, written⟩ := full.writeMany size length
  exact ⟨{ rows := ⟨values.toArray, rfl⟩ }, written⟩

/-- Another value has the same bytes but for one. -/
structure Changes (layout : Layout α) (index : Nat) (value changed : α) :
    Prop where
  written : ∃ byte,
    layout.write changed = (layout.write value).set index byte
  other : changed ≠ value

theorem exists_changes {layout : Layout α} {width : Nat}
    (full : layout.Full width) (has : layout.HasWidth width) (value : α)
    {index : Nat} (inside : index < (layout.write value).length) {byte : UInt8}
    (other : byte ≠ (layout.write value)[index]) :
    ∃ changed, layout.write changed = (layout.write value).set index byte ∧
      layout.Changes index value changed := by
  obtain ⟨changed, written⟩ := full ((layout.write value).set index byte)
    (by rw [List.length_set, has])
  refine ⟨changed, written, ⟨byte, written⟩, ?_⟩
  rintro rfl
  apply other
  have stored := List.getElem_set_self (a := byte) (i := index)
    (by rw [List.length_set]; exact inside)
  simp only [← written] at stored
  exact stored.symm

theorem Changes.of_convert {layout : Layout α} {into : α → β} {outOf : β → α}
    (into_outOf : ∀ value, into (outOf value) = value) {index : Nat}
    {value changed : β}
    (changes : (layout.convert into outOf).Changes index value changed) :
    layout.Changes index (outOf value) (outOf changed) := by
  refine ⟨changes.written, ?_⟩
  intro same
  apply changes.other
  rw [← into_outOf changed, same, into_outOf]

theorem Faithful.write_injective {layout : Layout α}
    (faithful : layout.Faithful) {first second : α}
    (same : layout.write first = layout.write second) : first = second := by
  have read := faithful.read_write first []
  rw [same, faithful.read_write] at read
  exact (Prod.mk.inj (Option.some.inj read)).1.symm

theorem Changes.of_pair {first : Layout α} {second : Layout β}
    {width : Nat} (has : first.HasWidth width)
    (firstFaithful : first.Faithful) (secondFaithful : second.Faithful)
    {index : Nat} {value changed : α × β}
    (changes : (first.pair second).Changes index value changed) :
    (index < width ∧ first.Changes index value.1 changed.1 ∧
      changed.2 = value.2) ∨
    (width ≤ index ∧ changed.1 = value.1 ∧
      second.Changes (index - width) value.2 changed.2) := by
  obtain ⟨byte, written⟩ := changes.written
  have other := changes.other
  have widths : (first.write changed.1).length =
      (first.write value.1).length := by rw [has, has]
  rw [write_pair, write_pair] at written
  rcases Nat.lt_or_ge index width with inside | beyond
  · rw [List.set_append_left _ _ (by rw [has]; exact inside)] at written
    obtain ⟨left, right⟩ := List.append_inj written
      (by rw [widths, List.length_set])
    have same := secondFaithful.write_injective right
    refine .inl ⟨inside, ⟨⟨byte, left⟩, ?_⟩, same⟩
    exact fun firstSame => other (Prod.ext firstSame same)
  · rw [List.set_append_right _ _ (by rw [has]; exact beyond), has] at written
    obtain ⟨left, right⟩ := List.append_inj written widths
    have same := firstFaithful.write_injective left
    refine .inr ⟨beyond, same, ⟨byte, right⟩, ?_⟩
    exact fun secondSame => other (Prod.ext same secondSame)

end Layout

end Fragboard.Storage
