import Fragboard.Proofs.MergedBlocks
import Mathlib.Algebra.Order.BigOperators.Group.List
import Mathlib.Algebra.Order.Group.Int
import Mathlib.Algebra.Ring.Int.Defs

/-!
# Saturating sums in any order

Adding saturates after each amount, so in general the order of the amounts shows
in the sum: what was cut off at a bound does not come back.  It does not show
when no addition on the way is cut off, and neither when no amount is negative,
since then a sum that has reached the upper bound stays there.

Blocks are merged counter by counter, and one counter may be of the first kind
where another is of the second.
-/

namespace Fragboard

/-- The amounts are added one after the other. -/
def satSum (start : Int32) (amounts : List Int32) : Int32 :=
  amounts.foldl satAdd start

@[simp] theorem satSum_nil (start : Int32) : satSum start [] = start :=
  rfl

@[simp] theorem satSum_cons (start amount : Int32) (rest : List Int32) :
    satSum start (amount :: rest) = satSum (satAdd start amount) rest :=
  rfl

/-- No addition on the way leaves the range. -/
def SumsExactly : Int32 → List Int32 → Prop
  | _, [] => True
  | start, amount :: rest =>
    (lowest ≤ start.toInt + amount.toInt ∧
      start.toInt + amount.toInt ≤ highest) ∧
    SumsExactly (satAdd start amount) rest

theorem toInt_satSum_of_exactly {start : Int32} {amounts : List Int32}
    (exact : SumsExactly start amounts) :
    (satSum start amounts).toInt =
      start.toInt + (amounts.map Int32.toInt).sum := by
  induction amounts generalizing start with
  | nil => simp
  | cons amount rest ih =>
      obtain ⟨⟨above, below⟩, later⟩ := exact
      rw [satSum_cons, ih later, toInt_satAdd_of_fits above below,
        List.map_cons, List.sum_cons, Int.add_assoc]

theorem toInt_satSum_of_nonneg (start : Int32) {amounts : List Int32}
    (nonneg : ∀ amount ∈ amounts, 0 ≤ amount.toInt) :
    (satSum start amounts).toInt =
      min highest (start.toInt + (amounts.map Int32.toInt).sum) := by
  induction amounts generalizing start with
  | nil =>
      have below := toInt_le_highest start
      simp only [satSum_nil, List.map_nil, List.sum_nil]
      omega
  | cons amount rest ih =>
      obtain ⟨first, later⟩ := List.forall_mem_cons.mp nonneg
      have above := lowest_le_toInt start
      have rise : 0 ≤ (rest.map Int32.toInt).sum :=
        List.sum_nonneg (List.forall_mem_map.mpr later)
      rw [satSum_cons, ih _ later, toInt_satAdd, List.map_cons, List.sum_cons]
      simp only [lowest, highest] at *
      omega

/-- Why the order of some amounts does not show in their sum. -/
def SumsAlike (start : Int32) (first second : List Int32) : Prop :=
  (∀ amount ∈ first, 0 ≤ amount.toInt) ∨
    SumsExactly start first ∧ SumsExactly start second

theorem satSum_perm {start : Int32} {first second : List Int32}
    (permuted : first.Perm second) (alike : SumsAlike start first second) :
    satSum start first = satSum start second := by
  have sum := (permuted.map Int32.toInt).sum_eq
  apply Int32.toInt_inj.mp
  rcases alike with nonneg | ⟨firstExact, secondExact⟩
  · have others : ∀ amount ∈ second, 0 ≤ amount.toInt := fun amount member =>
      nonneg amount (permuted.mem_iff.mpr member)
    rw [toInt_satSum_of_nonneg start nonneg,
      toInt_satSum_of_nonneg start others, sum]
  · rw [toInt_satSum_of_exactly firstExact,
      toInt_satSum_of_exactly secondExact, sum]

namespace StatBlock

/-- The blocks are merged one after the other. -/
def mergeAll (block : StatBlock) (parts : List StatBlock) : StatBlock :=
  parts.foldl merge block

theorem get_mergeAll (block : StatBlock) (parts : List StatBlock)
    (counter : Counter) :
    (block.mergeAll parts).get counter =
      satSum (block.get counter) (parts.map (·.get counter)) := by
  induction parts generalizing block with
  | nil => rfl
  | cons part rest ih =>
      rw [mergeAll, List.foldl_cons, ← mergeAll, ih, get_merge, List.map_cons,
        satSum_cons]

theorem mergeAll_perm {block : StatBlock} {first second : List StatBlock}
    (permuted : first.Perm second)
    (alike : ∀ counter, SumsAlike (block.get counter)
      (first.map (·.get counter)) (second.map (·.get counter))) :
    block.mergeAll first = block.mergeAll second := by
  apply ext_counters
  intro counter
  rw [get_mergeAll, get_mergeAll]
  exact satSum_perm (permuted.map _) (alike counter)

end StatBlock

end Fragboard
