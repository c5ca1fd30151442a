import Fragboard.Proofs.Rank.StoredNames

/-!
# Where a name is cut

A name that is too long for its field is cut at the last place between two
characters that the field reaches.  `boundaryBack?` looks for it among the
bytes: it starts where the field or the name ends and goes back while the byte
behind it continues a character.  It is never more than three bytes away, and
what stands before it is the longest prefix of whole characters that fits.  So
every field is read without a loss, what was read is read again from its own
field, and names that fit and hold no NUL are told apart by their fields.
-/

namespace Fragboard

namespace Text

/-- A place is a boundary at either end of the bytes and wherever the byte
behind it does not continue a character. -/
def isBoundary (bytes : List UInt8) (place : Nat) : Bool :=
  place == 0 ||
    match bytes[place]? with
    | some byte => !isContinuation byte
    | none => place == bytes.length

/-- The first boundary on the way back from a place, none if the way leads
past the start. -/
def boundaryBack? (bytes : List UInt8) : Nat → Option Nat
  | 0 => if isBoundary bytes 0 then some 0 else none
  | place + 1 =>
    if isBoundary bytes (place + 1) then
      some (place + 1)
    else
      boundaryBack? bytes place

theorem length_encode_le_of_cut {kept characters : List Char}
    (cut : kept <+: characters) :
    (encode kept).length ≤ (encode characters).length := by
  obtain ⟨rest, rfl⟩ := cut
  rw [encode_append, List.length_append]
  exact Nat.le_add_right _ _

theorem isContinuation_ofNat (value : Nat) :
    isContinuation (UInt8.ofNat value) = true ↔
      128 ≤ value % 256 ∧ value % 256 ≤ 191 := by
  simp [isContinuation, UInt8.le_iff_toNat_le]

/-- In the UTF-8 form of a character all bytes but the first continue it. -/
theorem exists_lead_utf8EncodeChar (character : Char) :
    ∃ lead others, String.utf8EncodeChar character = lead :: others ∧
      isContinuation lead = false ∧
      ∀ byte ∈ others, isContinuation byte = true := by
  have leads (value : Nat) (apart : value % 256 < 128 ∨ 191 < value % 256) :
      isContinuation (UInt8.ofNat value) = false := by
    rw [← Bool.not_eq_true, isContinuation_ofNat]
    omega
  have continues (value : Nat) :
      isContinuation (UInt8.ofNat (value % 64 + 128)) = true := by
    rw [isContinuation_ofNat]
    omega
  have all_continue (others : List Nat) :
      ∀ byte ∈ others.map (fun value => UInt8.ofNat (value % 64 + 128)),
        isContinuation byte = true := by
    rw [List.forall_mem_map]
    intro value _
    exact continues value
  unfold String.utf8EncodeChar
  dsimp only
  split
  · exact ⟨_, _, rfl, leads _ (by omega), all_continue []⟩
  · split
    · exact ⟨_, _, rfl, leads _ (by omega), all_continue [_]⟩
    · split
      · exact ⟨_, _, rfl, leads _ (by omega), all_continue [_, _]⟩
      · exact ⟨_, _, rfl, leads _ (by omega), all_continue [_, _, _]⟩

/-- No place inside a character is a boundary. -/
theorem isBoundary_inside {character : Char} (characters : List Char)
    {place : Nat} (behindStart : 0 < place)
    (beforeEnd : place < character.utf8Size) :
    isBoundary (encode (character :: characters)) place = false := by
  obtain ⟨lead, others, form, _, continues⟩ :=
    exists_lead_utf8EncodeChar character
  have width := String.length_utf8EncodeChar character
  rw [form, List.length_cons] at width
  obtain ⟨index, rfl⟩ := Nat.exists_eq_add_of_lt behindStart
  have inside : index < others.length := by omega
  have found : (encode (character :: characters))[0 + index + 1]? =
      some others[index] := by
    rw [encode_cons, form, List.cons_append, Nat.zero_add,
      List.getElem?_cons_succ, List.getElem?_append_left inside,
      List.getElem?_eq_getElem inside]
  rw [isBoundary, found]
  simp [continues _ (List.getElem_mem inside)]

/-- Behind a character the boundaries are those of what follows it. -/
theorem isBoundary_behind (character : Char) (characters : List Char)
    (place : Nat) :
    isBoundary (encode (character :: characters))
        (character.utf8Size + place) =
      isBoundary (encode characters) place := by
  have width := String.length_utf8EncodeChar character
  have positive := character.utf8Size_pos
  have found : (encode (character :: characters))[
      character.utf8Size + place]? = (encode characters)[place]? := by
    rw [encode_cons, List.getElem?_append_right (by omega), width,
      Nat.add_sub_cancel_left]
  rw [isBoundary, isBoundary, found, length_encode_cons]
  cases place with
  | zero =>
      cases characters with
      | nil => simp [encode]
      | cons next rest =>
          obtain ⟨lead, others, form, leads, _⟩ :=
            exists_lead_utf8EncodeChar next
          rw [encode_cons, form, List.cons_append, List.getElem?_cons_zero]
          simp [leads]
  | succ place =>
      have notStart : (character.utf8Size + (place + 1) == 0) = false := by
        rw [beq_eq_false_iff_ne]
        omega
      rw [notStart]
      cases (encode characters)[place + 1]? with
      | some byte => rfl
      | none =>
          rw [Bool.eq_iff_iff]
          simp

/-- Apart from the empty one, the prefixes of some text end where those behind
its first character do. -/
theorem endsBehind_iff {character : Char} {characters : List Char}
    {place : Nat} :
    (∃ kept, kept <+: character :: characters ∧
        (encode kept).length = character.utf8Size + place) ↔
      ∃ kept, kept <+: characters ∧ (encode kept).length = place := by
  constructor
  · rintro ⟨kept, cut, ends⟩
    rcases List.prefix_cons_iff.mp cut with rfl | ⟨more, rfl, cutBehind⟩
    · have positive := character.utf8Size_pos
      have empty : (encode []).length = 0 := rfl
      omega
    · rw [length_encode_cons] at ends
      exact ⟨more, cutBehind, Nat.add_left_cancel ends⟩
  · rintro ⟨kept, cut, rfl⟩
    exact ⟨character :: kept, (List.prefix_cons_inj character).mpr cut,
      length_encode_cons character kept⟩

/-- The boundaries of some text are where its prefixes end. -/
theorem isBoundary_encode_iff {characters : List Char} {place : Nat} :
    isBoundary (encode characters) place = true ↔
      ∃ kept, kept <+: characters ∧ (encode kept).length = place := by
  induction characters generalizing place with
  | nil =>
      have atStart : isBoundary (encode []) place = true ↔ place = 0 := by
        simp [isBoundary, encode]
      rw [atStart]
      constructor
      · rintro rfl
        exact ⟨[], List.prefix_rfl, rfl⟩
      · rintro ⟨kept, cut, rfl⟩
        rw [List.prefix_nil.mp cut]
        rfl
  | cons character characters ih =>
      rcases Nat.lt_or_ge place character.utf8Size with inside | behind
      · rcases Nat.eq_zero_or_pos place with rfl | notStart
        · exact iff_of_true rfl ⟨[], List.nil_prefix, rfl⟩
        · rw [isBoundary_inside characters notStart inside]
          apply iff_of_false Bool.false_ne_true
          rintro ⟨kept, cut, rfl⟩
          rcases List.prefix_cons_iff.mp cut with rfl | ⟨more, rfl, _⟩
          · exact absurd notStart (Nat.lt_irrefl 0)
          · rw [length_encode_cons] at inside
            omega
      · obtain ⟨further, rfl⟩ := Nat.exists_eq_add_of_le behind
        rw [isBoundary_behind, endsBehind_iff, ih]

/-- The search ends at the last boundary that is not behind its start. -/
theorem boundaryBack?_eq_some {bytes : List UInt8} {start cut : Nat}
    (reached : cut ≤ start) (boundary : isBoundary bytes cut = true)
    (last : ∀ place, cut < place → place ≤ start →
      isBoundary bytes place = false) :
    boundaryBack? bytes start = some cut := by
  induction start with
  | zero =>
      obtain rfl : cut = 0 := by omega
      rw [boundaryBack?, if_pos boundary]
  | succ start ih =>
      rcases Nat.eq_or_lt_of_le reached with rfl | before
      · rw [boundaryBack?, if_pos boundary]
      · have passed := last (start + 1) before (Nat.le_refl _)
        rw [boundaryBack?, passed, if_neg Bool.false_ne_true]
        apply ih (Nat.le_of_lt_succ before)
        intro place behind near
        exact last place behind (Nat.le_succ_of_le near)

/-- The longest prefix whose UTF-8 form fits a number of bytes. -/
structure LongestFit (room : Nat) (characters kept : List Char) : Prop where
  cut : kept <+: characters
  fits : (encode kept).length ≤ room
  longest : ∀ other, other <+: characters → (encode other).length ≤ room →
    other <+: kept

namespace LongestFit

variable {room : Nat} {characters kept : List Char}

theorem encode_eq_take (fit : LongestFit room characters kept) :
    encode kept = (encode characters).take (encode kept).length := by
  obtain ⟨rest, rfl⟩ := fit.cut
  rw [encode_append, List.take_left]

/-- Of the places that the room reaches, no boundary is behind the longest
prefix that fits. -/
theorem boundaryBack?_eq (fit : LongestFit room characters kept) :
    boundaryBack? (encode characters) (min (encode characters).length room) =
      some (encode kept).length := by
  apply boundaryBack?_eq_some
  · exact Nat.le_min.mpr ⟨length_encode_le_of_cut fit.cut, fit.fits⟩
  · exact isBoundary_encode_iff.mpr ⟨kept, fit.cut, rfl⟩
  · intro place behind near
    rw [← Bool.not_eq_true, isBoundary_encode_iff]
    rintro ⟨other, otherCut, rfl⟩
    have shorter := length_encode_le_of_cut
      (fit.longest other otherCut (Nat.le_min.mp near).2)
    omega

/-- The next character does not fit any more, and it has at most four bytes. -/
theorem near (fit : LongestFit room characters kept) :
    min (encode characters).length room ≤ (encode kept).length + 3 := by
  obtain ⟨rest, rfl⟩ := fit.cut
  cases rest with
  | nil =>
      rw [List.append_nil]
      omega
  | cons next rest =>
      have width := next.utf8Size_le_four
      have tooLong : room < (encode kept).length + next.utf8Size := by
        by_contra enough
        have longer : (encode (kept ++ [next])).length =
            (encode kept).length + next.utf8Size := by
          rw [encode_append, List.length_append, length_encode_cons]
          rfl
        have within := fit.longest (kept ++ [next]) ⟨rest, by simp⟩ (by omega)
        have bounded := within.length_le
        rw [List.length_append, List.length_singleton] at bounded
        omega
      omega

end LongestFit

end Text

namespace Rank

/-- Every prefix that fits is part of the one that is kept. -/
theorem within_fittingPrefix {room : Nat} {characters other : List Char}
    (cut : other <+: characters) (fits : (Text.encode other).length ≤ room) :
    other <+: fittingPrefix room characters := by
  fun_induction fittingPrefix room characters generalizing other with
  | case1 room => exact cut
  | case2 room character rest narrow ih =>
      rcases List.prefix_cons_iff.mp cut with rfl | ⟨more, rfl, cutBehind⟩
      · exact List.nil_prefix
      · rw [Text.length_encode_cons] at fits
        apply (List.prefix_cons_inj character).mpr
        exact ih cutBehind (by omega)
  | case3 room character rest tooWide =>
      rcases List.prefix_cons_iff.mp cut with rfl | ⟨more, rfl, _⟩
      · exact List.nil_prefix
      · rw [Text.length_encode_cons] at fits
        omega

theorem longestFit_fittingPrefix (room : Nat) (characters : List Char) :
    Text.LongestFit room characters (fittingPrefix room characters) where
  cut := fittingPrefix_prefix room characters
  fits := length_encode_fittingPrefix room characters
  longest := fun _ cut fits => within_fittingPrefix cut fits

namespace NameField

/-- What is read from the field of a name fits a field and holds no NUL. -/
theorem unpack_pack_fits (text : String) :
    (pack text).unpack.utf8ByteSize ≤ nameBytes ∧
      '\x00' ∉ (pack text).unpack.toList := by
  rw [unpack_pack, ← Text.length_encode_toList, String.toList_ofList]
  constructor
  · calc (Text.encode ((fittingPrefix nameBytes text.toList).takeWhile
          (· != '\x00'))).length
        ≤ (Text.encode (fittingPrefix nameBytes text.toList)).length :=
          Text.length_encode_le_of_cut (List.takeWhile_prefix _)
      _ ≤ nameBytes := length_encode_fittingPrefix nameBytes text.toList
  · intro member
    simpa using List.mem_takeWhile_imp member

theorem unpack_pack_unpack (text : String) :
    (pack (pack text).unpack).unpack = (pack text).unpack :=
  (unpack_pack_eq_self_iff _).mpr (unpack_pack_fits text)

/-- The text read from the field of a name has the very bytes of the field up
to its first NUL, so none of them was replaced. -/
theorem encode_unpack_pack (text : String) :
    Text.encode (pack text).unpack.toList =
      (pack text).bytes.toList.takeWhile (· != 0) := by
  have fits := length_encode_fittingPrefix nameBytes text.toList
  rw [unpack_pack, String.toList_ofList, pack, toList_ofBytes fits,
    Text.takeWhile_encode]

theorem eq_of_pack_eq {text other : String}
    (kept : (pack text).unpack = text) (otherKept : (pack other).unpack = other)
    (same : pack text = pack other) : text = other :=
  calc text = (pack text).unpack := kept.symm
    _ = (pack other).unpack := by rw [same]
    _ = other := otherKept

/-- The search among the bytes of a name always ends, at most three bytes before
the place where it starts, and a field is filled with the bytes before the cut.
They are the longest prefix of whole characters that fits, which is read back
up to its first NUL, byte for byte and so without a replacement character.  What
was read is read again from its own field, and different names that fit and hold
no NUL have different fields. -/
theorem longest_whole_name_kept (text : String) :
    let bytes := Text.encode text.toList
    let reach := min bytes.length nameBytes
    (∃ kept cut,
      Text.LongestFit nameBytes text.toList kept ∧
      Text.boundaryBack? bytes reach = some cut ∧ reach ≤ cut + 3 ∧
      bytes.take cut = Text.encode kept ∧
      pack text = ofBytes (bytes.take cut) ∧
      (pack text).unpack = String.ofList (kept.takeWhile (· != '\x00'))) ∧
    Text.encode (pack text).unpack.toList =
      (pack text).bytes.toList.takeWhile (· != 0) ∧
    (pack (pack text).unpack).unpack = (pack text).unpack ∧
    ∀ other : String,
      text.utf8ByteSize ≤ nameBytes ∧ '\x00' ∉ text.toList →
      other.utf8ByteSize ≤ nameBytes ∧ '\x00' ∉ other.toList →
      pack text = pack other → text = other := by
  intro bytes reach
  have fit := longestFit_fittingPrefix nameBytes text.toList
  have filled : pack text = ofBytes (bytes.take
      (Text.encode (fittingPrefix nameBytes text.toList)).length) := by
    rw [pack, ← fit.encode_eq_take]
  refine ⟨⟨_, _, fit, fit.boundaryBack?_eq, fit.near, fit.encode_eq_take.symm,
    filled, unpack_pack text⟩, encode_unpack_pack text,
    unpack_pack_unpack text, ?_⟩
  intro other storable otherStorable same
  have kept := (unpack_pack_eq_self_iff text).mpr storable
  have otherKept := (unpack_pack_eq_self_iff other).mpr otherStorable
  exact eq_of_pack_eq kept otherKept same

/-- Two names that fill their fields to the last byte and differ only there. -/
theorem full_fields_told_apart :
    let text := "Staff Sergeant Reginald Barriné"
    let other := "Staff Sergeant Reginald Barrinè"
    (text.utf8ByteSize = nameBytes ∧ '\x00' ∉ text.toList) ∧
      (other.utf8ByteSize = nameBytes ∧ '\x00' ∉ other.toList) ∧
      pack text ≠ pack other := by
  intro text other
  have full : text.utf8ByteSize = nameBytes ∧ '\x00' ∉ text.toList := by
    decide
  have otherFull : other.utf8ByteSize = nameBytes ∧ '\x00' ∉ other.toList := by
    decide
  refine ⟨full, otherFull, ?_⟩
  intro same
  have equal := (longest_whole_name_kept text).2.2.2 other
    ⟨full.1.le, full.2⟩ ⟨otherFull.1.le, otherFull.2⟩ same
  exact absurd equal (by decide)

example : (pack "Staff Sergeant Reginald Barringé").unpack =
    "Staff Sergeant Reginald Barring" := by
  cbv

end NameField

end Rank

end Fragboard
