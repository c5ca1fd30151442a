import Fragboard.Rank.NameField
import Mathlib.Data.List.TakeWhile

/-!
# Names in a rank file

A field holds thirty-two bytes and ends at its first NUL.  So a name comes back
from it as its longest prefix of whole characters that fits, cut at the first
NUL character.  A name is kept as it is exactly when it fits and holds no NUL,
and a name without a NUL is packed into the same bytes again.
-/

namespace Fragboard

namespace Text

theorem frontChar?_utf8EncodeChar (character : Char) (rest : List UInt8) :
    frontChar? (String.utf8EncodeChar character ++ rest) = some character := by
  have short : (String.utf8EncodeChar character).length ≤ 4 := by
    rw [String.length_utf8EncodeChar]
    exact character.utf8Size_le_four
  rw [frontChar?, List.take_append, List.take_of_length_le short,
    List.toByteArray_append]
  exact ByteArray.utf8DecodeChar?_utf8EncodeChar_append

theorem encode_cons (character : Char) (characters : List Char) :
    encode (character :: characters) =
      String.utf8EncodeChar character ++ encode characters :=
  List.flatMap_cons

theorem encode_append (front back : List Char) :
    encode (front ++ back) = encode front ++ encode back :=
  List.flatMap_append

/-- What is written character by character is read back without a loss. -/
theorem decode_encode (characters : List Char) :
    decode (encode characters) = characters := by
  induction characters with
  | nil => simp [encode, decode]
  | cons character characters ih =>
      have front := frontChar?_utf8EncodeChar character (encode characters)
      have width := String.length_utf8EncodeChar character
      cases bytes : String.utf8EncodeChar character with
      | nil => exact absurd bytes String.utf8EncodeChar_ne_nil
      | cons first others =>
          rw [bytes] at front width
          have behind : (others ++ encode characters).drop
              (character.utf8Size - 1) = encode characters := by
            rw [← width]
            simp
          rw [encode_cons, bytes]
          rw [List.cons_append] at front ⊢
          rw [decode, front]
          dsimp only
          rw [behind, ih]

theorem length_encode_cons (character : Char) (characters : List Char) :
    (encode (character :: characters)).length =
      character.utf8Size + (encode characters).length := by
  rw [encode_cons, List.length_append, String.length_utf8EncodeChar]

theorem length_encode_toList (text : String) :
    (encode text.toList).length = text.utf8ByteSize := by
  have bytes : text.toByteArray = text.toList.utf8Encode := by
    rw [← String.toByteArray_ofList, String.ofList_toList]
  rw [String.utf8ByteSize, bytes, List.utf8Encode, List.size_toByteArray,
    encode]

/-- Only the NUL character has a NUL byte in its UTF-8 form. -/
theorem ne_zero_of_mem_utf8EncodeChar {character : Char}
    (notNul : character ≠ '\x00') :
    ∀ byte ∈ String.utf8EncodeChar character, byte ≠ 0 := by
  have positive : character.val.toNat ≠ 0 := by
    intro zero
    apply notNul
    exact Char.toNat_inj.mp zero
  have byte_ne_zero (value : Nat) (wrapped : value % 256 ≠ 0) :
      UInt8.ofNat value ≠ 0 := by
    intro zero
    exact wrapped (by simpa using congrArg UInt8.toNat zero)
  have none : ∀ byte ∈ ([] : List UInt8), byte ≠ 0 :=
    fun _ member => absurd member List.not_mem_nil
  unfold String.utf8EncodeChar
  dsimp only
  split
  · refine List.forall_mem_cons.mpr ⟨byte_ne_zero _ (by omega), none⟩
  · split
    · refine List.forall_mem_cons.mpr ⟨byte_ne_zero _ (by omega), ?_⟩
      exact List.forall_mem_cons.mpr ⟨byte_ne_zero _ (by omega), none⟩
    · split
      · refine List.forall_mem_cons.mpr ⟨byte_ne_zero _ (by omega), ?_⟩
        refine List.forall_mem_cons.mpr ⟨byte_ne_zero _ (by omega), ?_⟩
        exact List.forall_mem_cons.mpr ⟨byte_ne_zero _ (by omega), none⟩
      · refine List.forall_mem_cons.mpr ⟨byte_ne_zero _ (by omega), ?_⟩
        refine List.forall_mem_cons.mpr ⟨byte_ne_zero _ (by omega), ?_⟩
        refine List.forall_mem_cons.mpr ⟨byte_ne_zero _ (by omega), ?_⟩
        exact List.forall_mem_cons.mpr ⟨byte_ne_zero _ (by omega), none⟩

/-- A field is read up to its first NUL byte, which is where its first NUL
character stood. -/
theorem takeWhile_encode (characters : List Char) (padding : Nat) :
    (encode characters ++ List.replicate padding 0).takeWhile (· != 0) =
      encode (characters.takeWhile (· != '\x00')) := by
  induction characters with
  | nil =>
      cases padding with
      | zero => rfl
      | succ padding => rfl
  | cons character characters ih =>
      by_cases nul : character = '\x00'
      · subst nul
        rfl
      · have bytes := ne_zero_of_mem_utf8EncodeChar nul
        have kept : (character :: characters).takeWhile (· != '\x00') =
            character :: characters.takeWhile (· != '\x00') := by
          simp [nul]
        rw [kept, encode_cons, List.append_assoc,
          List.takeWhile_append_of_pos (by simpa using bytes), ih, encode_cons]

end Text

namespace Rank

theorem fittingPrefix_prefix (room : Nat) (characters : List Char) :
    fittingPrefix room characters <+: characters := by
  fun_induction fittingPrefix room characters with
  | case1 room => exact List.prefix_rfl
  | case2 room character rest fits ih =>
      exact (List.prefix_cons_inj character).mpr ih
  | case3 room character rest tooWide => exact List.nil_prefix

theorem length_encode_fittingPrefix (room : Nat) (characters : List Char) :
    (Text.encode (fittingPrefix room characters)).length ≤ room := by
  fun_induction fittingPrefix room characters with
  | case1 room => exact Nat.zero_le room
  | case2 room character rest fits ih =>
      rw [Text.length_encode_cons]
      omega
  | case3 room character rest tooWide => exact Nat.zero_le room

theorem fittingPrefix_of_fits {room : Nat} {characters : List Char}
    (fits : (Text.encode characters).length ≤ room) :
    fittingPrefix room characters = characters := by
  fun_induction fittingPrefix room characters with
  | case1 room => rfl
  | case2 room character rest narrow ih =>
      rw [Text.length_encode_cons] at fits
      rw [ih (by omega)]
  | case3 room character rest tooWide =>
      rw [Text.length_encode_cons] at fits
      omega

namespace NameField

theorem toList_ofBytes {bytes : List UInt8} (fits : bytes.length ≤ nameBytes) :
    (ofBytes bytes).bytes.toList =
      bytes ++ List.replicate (nameBytes - bytes.length) 0 := by
  apply List.ext_getElem
  · simp only [ofBytes, Cells.tabulate, Cells.toList, Vector.length_toList,
      List.length_append, List.length_replicate]
    omega
  · intro index inside bound
    simp only [ofBytes, Cells.tabulate, Cells.toList, Vector.getElem_toList,
      Vector.getElem_ofFn, List.getElem_append, List.getElem_replicate,
      List.getD_eq_getElem?_getD]
    split
    · next written => rw [List.getElem?_eq_getElem written, Option.getD_some]
    · next padded =>
      rw [List.getElem?_eq_none (Nat.le_of_not_lt padded), Option.getD_none]

theorem unpack_pack (text : String) :
    (pack text).unpack = String.ofList
      ((fittingPrefix nameBytes text.toList).takeWhile (· != '\x00')) := by
  have fits := length_encode_fittingPrefix nameBytes text.toList
  rw [unpack, pack, toList_ofBytes fits, Text.takeWhile_encode,
    Text.decode_encode]

private theorem takeWhile_of_noNul {characters : List Char}
    (noNul : '\x00' ∉ characters) :
    characters.takeWhile (· != '\x00') = characters := by
  apply List.takeWhile_eq_self_iff.mpr
  intro character member
  have apart : character ≠ '\x00' := by
    rintro rfl
    exact noNul member
  simpa using apart

/-- A name comes back as it was exactly when it fits and holds no NUL. -/
theorem unpack_pack_eq_self_iff (text : String) :
    (pack text).unpack = text ↔
      text.utf8ByteSize ≤ nameBytes ∧ '\x00' ∉ text.toList := by
  rw [unpack_pack, ← Text.length_encode_toList]
  constructor
  · intro same
    have whole : (fittingPrefix nameBytes text.toList).takeWhile
        (· != '\x00') = text.toList := by
      rw [← String.toList_ofList (l := List.takeWhile _ _), same]
    have cut := fittingPrefix_prefix nameBytes text.toList
    have fitting : fittingPrefix nameBytes text.toList = text.toList := by
      apply cut.eq_of_length_le
      calc text.toList.length
          = ((fittingPrefix nameBytes text.toList).takeWhile
              (· != '\x00')).length := by rw [whole]
        _ ≤ (fittingPrefix nameBytes text.toList).length :=
            (List.takeWhile_prefix _).length_le
    constructor
    · rw [← fitting]
      exact length_encode_fittingPrefix nameBytes text.toList
    · intro member
      rw [← whole] at member
      simpa using List.mem_takeWhile_imp member
  · rintro ⟨fits, noNul⟩
    rw [fittingPrefix_of_fits fits, takeWhile_of_noNul noNul,
      String.ofList_toList]

/-- A name without a NUL is packed into the same field again. -/
theorem pack_unpack_pack {text : String} (noNul : '\x00' ∉ text.toList) :
    pack (pack text).unpack = pack text := by
  have cut := fittingPrefix_prefix nameBytes text.toList
  have noNulKept : '\x00' ∉ fittingPrefix nameBytes text.toList :=
    fun member => noNul (cut.subset member)
  have fits := length_encode_fittingPrefix nameBytes text.toList
  rw [unpack_pack, takeWhile_of_noNul noNulKept, pack, String.toList_ofList,
    fittingPrefix_of_fits fits, pack]

end NameField

end Rank

end Fragboard
