import Fragboard.Checksum

/-!
# Changed bytes and the checksum

The highest bit of the generator is set, so a step of the register can be
undone: the bit that went out is the highest bit of the result.  Hence registers
that differ stay different whatever follows, and a change of one byte, wherever
it is, shows in the check value.
-/

namespace Fragboard.Checksum

theorem getLsbD_shiftBit (register : BitVec 32) :
    (shiftBit register).getLsbD 31 = register.getLsbD 0 := by
  have shifted : (register >>> 1).getLsbD 31 = false := by
    rw [BitVec.getLsbD_ushiftRight]
    exact BitVec.getLsbD_of_ge register (1 + 31) (by decide)
  unfold shiftBit
  split
  · next low =>
    rw [BitVec.getLsbD_xor, shifted, low]
    decide
  · next low =>
    rw [shifted, (Bool.not_eq_true _).mp low]

theorem shiftBit_injective {first second : BitVec 32}
    (same : shiftBit first = shiftBit second) : first = second := by
  have low : first.getLsbD 0 = second.getLsbD 0 := by
    rw [← getLsbD_shiftBit, same, getLsbD_shiftBit]
  have high : first >>> 1 = second >>> 1 := by
    unfold shiftBit at same
    rw [low] at same
    split at same
    · exact (BitVec.xor_left_inj polynomial).mp same
    · exact same
  apply BitVec.eq_of_getLsbD_eq
  intro index _
  cases index with
  | zero => exact low
  | succ index =>
      have bit := congrArg (·.getLsbD index) high
      simpa [BitVec.getLsbD_ushiftRight, Nat.add_comm] using bit

theorem shiftBits_injective (count : Nat) {first second : BitVec 32}
    (same : shiftBits count first = shiftBits count second) :
    first = second := by
  induction count generalizing first second with
  | zero => exact same
  | succ count ih => exact shiftBit_injective (ih same)

theorem absorb_register_injective {first second : BitVec 32} {byte : UInt8}
    (same : absorb first byte = absorb second byte) : first = second :=
  (BitVec.xor_left_inj _).mp (shiftBits_injective 8 same)

theorem absorb_byte_injective {register : BitVec 32} {first second : UInt8}
    (same : absorb register first = absorb register second) :
    first = second := by
  have wide := (BitVec.xor_right_inj register).mp (shiftBits_injective 8 same)
  apply UInt8.toBitVec_inj.mp
  apply BitVec.eq_of_getLsbD_eq
  intro index inside
  have bit := congrArg (·.getLsbD index) wide
  simpa [BitVec.getLsbD_setWidth, show index < 32 by omega] using bit

/-- Registers that differ stay different. -/
theorem register_injective {first second : BitVec 32} {bytes : List UInt8}
    (same : register first bytes = register second bytes) :
    first = second := by
  induction bytes generalizing first second with
  | nil => exact same
  | cons byte rest ih => exact absorb_register_injective (ih same)

theorem register_set_injective {start : BitVec 32} {bytes : List UInt8}
    {index : Nat} (inside : index < bytes.length) {first second : UInt8}
    (same : register start (bytes.set index first) =
      register start (bytes.set index second)) : first = second := by
  induction bytes generalizing start index with
  | nil => simp at inside
  | cons byte rest ih =>
      cases index with
      | zero => exact absorb_byte_injective (register_injective same)
      | succ index => exact ih (Nat.lt_of_succ_lt_succ inside) same

/-- A change of one byte changes the check value. -/
theorem ofBytes_set_ne {bytes : List UInt8} {index : Nat}
    (inside : index < bytes.length) {byte : UInt8}
    (other : byte ≠ bytes[index]) :
    ofBytes (bytes.set index byte) ≠ ofBytes bytes := by
  intro same
  have registers := BitVec.not_inj.mp (congrArg UInt32.toBitVec same)
  apply other
  apply register_set_injective inside
  rw [List.set_getElem_self]
  exact registers

/-- The check value that is published for this check. -/
example : ofBytes [0x31, 0x32, 0x33, 0x34, 0x35, 0x36, 0x37, 0x38, 0x39] =
    0xCBF43926 := by
  decide +kernel

end Fragboard.Checksum
