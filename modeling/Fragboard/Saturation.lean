/-!
# Saturating counters

Combat counters are signed 32-bit words.  A sum or a product that leaves the
range stops at the nearer bound; it never wraps.  `toInt_satAdd` states the sum
in the integers, and `toInt_satAdd_of_fits` says when nothing was lost.
-/

namespace Fragboard

def lowest : Int := -2147483648

def highest : Int := 2147483647

/-- The word nearest to an integer. -/
def saturate (value : Int) : Int32 :=
  Int32.ofIntClamp value

/-- The sum of two words, held at the bound that it would pass. -/
def satAdd (left right : Int32) : Int32 :=
  saturate (left.toInt + right.toInt)

/-- The product of two words, held at the bound that it would pass. -/
def satMul (left right : Int32) : Int32 :=
  saturate (left.toInt * right.toInt)

theorem toInt_saturate (value : Int) :
    (saturate value).toInt = max lowest (min highest value) := by
  have lower : Int32.minValue.toInt = lowest := by decide
  have upper : Int32.maxValue.toInt = highest := by decide
  unfold saturate Int32.ofIntClamp
  split
  · next above =>
    split
    · next below =>
      rw [Int32.toInt_ofIntLE]
      rw [lower] at above
      rw [upper] at below
      omega
    · next beyond =>
      rw [upper] at beyond ⊢
      simp only [lowest, highest] at *
      omega
  · next under =>
    rw [lower] at under ⊢
    simp only [lowest, highest] at *
    omega

theorem toInt_satAdd (left right : Int32) :
    (satAdd left right).toInt =
      max lowest (min highest (left.toInt + right.toInt)) :=
  toInt_saturate _

theorem toInt_satMul (left right : Int32) :
    (satMul left right).toInt =
      max lowest (min highest (left.toInt * right.toInt)) :=
  toInt_saturate _

theorem lowest_le_toInt (word : Int32) : lowest ≤ word.toInt := by
  have bound := word.le_toInt
  simp only [lowest]
  omega

theorem toInt_le_highest (word : Int32) : word.toInt ≤ highest := by
  have bound := word.toInt_lt
  simp only [highest]
  omega

/-- A sum inside the range is the exact sum. -/
theorem toInt_satAdd_of_fits {left right : Int32}
    (above : lowest ≤ left.toInt + right.toInt)
    (below : left.toInt + right.toInt ≤ highest) :
    (satAdd left right).toInt = left.toInt + right.toInt := by
  rw [toInt_satAdd]
  omega

/-- A difference inside the range does not wrap. -/
theorem toInt_sub_of_fits {left right : Int32}
    (above : lowest ≤ left.toInt - right.toInt)
    (below : left.toInt - right.toInt ≤ highest) :
    (left - right).toInt = left.toInt - right.toInt := by
  simp only [lowest, highest] at above below
  rw [Int32.toInt_sub]
  apply Int.bmod_eq_of_le <;> omega

/-- A larger sum may stop at the bound, but not below a smaller one. -/
theorem toInt_satAdd_le {left right moreLeft moreRight : Int32}
    (first : left.toInt ≤ moreLeft.toInt)
    (second : right.toInt ≤ moreRight.toInt) :
    (satAdd left right).toInt ≤ (satAdd moreLeft moreRight).toInt := by
  rw [toInt_satAdd, toInt_satAdd]
  omega

theorem satAdd_comm (left right : Int32) :
    satAdd left right = satAdd right left := by
  unfold satAdd
  rw [Int.add_comm]

@[simp] theorem satAdd_zero (word : Int32) : satAdd word 0 = word := by
  apply Int32.toInt_inj.mp
  have below := lowest_le_toInt word
  have above := toInt_le_highest word
  rw [toInt_satAdd]
  simp
  omega

@[simp] theorem zero_satAdd (word : Int32) : satAdd 0 word = word := by
  rw [satAdd_comm, satAdd_zero]

end Fragboard
