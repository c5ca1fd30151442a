/-!
# Cyclic redundancy check

The 32-bit check with the reflected polynomial `0xEDB88320`: the register starts
with all bits set, takes in the bytes from the lowest bit up, and is inverted at
the end.
-/

namespace Fragboard.Checksum

/-- The generator, lowest power of the variable at the highest bit. -/
def polynomial : BitVec 32 := 0xEDB88320#32

def shiftBit (register : BitVec 32) : BitVec 32 :=
  if register.getLsbD 0 then (register >>> 1) ^^^ polynomial else register >>> 1

def shiftBits : Nat → BitVec 32 → BitVec 32
  | 0, register => register
  | count + 1, register => shiftBits count (shiftBit register)

def absorb (register : BitVec 32) (byte : UInt8) : BitVec 32 :=
  shiftBits 8 (register ^^^ byte.toBitVec.setWidth 32)

def register (start : BitVec 32) (bytes : List UInt8) : BitVec 32 :=
  bytes.foldl absorb start

/-- The check value of some bytes. -/
def ofBytes (bytes : List UInt8) : UInt32 :=
  UInt32.ofBitVec (~~~ register 0xFFFFFFFF#32 bytes)

end Fragboard.Checksum
