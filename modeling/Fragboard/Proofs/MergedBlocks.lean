import Fragboard.Stats

/-!
# Recording as merging

A recording adds to different counters of a block, so it merges a block of its
own into it: the one that it makes out of an empty block.  Nothing is lost by a
merge when no counter stops at a bound, and then the sums are those of the
integers.
-/

namespace Fragboard

theorem Counter.mem_all (counter : Counter) : counter ∈ Counter.all := by
  cases counter with
  | body region => cases region <;> decide
  | _ => decide

namespace StatBlock

/-- No counter stops at a bound when a second block is added. -/
def MergesExactly (block other : StatBlock) : Prop :=
  ∀ counter,
    lowest ≤ (block.get counter).toInt + (other.get counter).toInt ∧
    (block.get counter).toInt + (other.get counter).toInt ≤ highest

instance (block other : StatBlock) : Decidable (block.MergesExactly other) :=
  decidable_of_iff
    (∀ counter ∈ Counter.all,
      lowest ≤ (block.get counter).toInt + (other.get counter).toInt ∧
      (block.get counter).toInt + (other.get counter).toInt ≤ highest)
    ⟨fun each counter => each counter counter.mem_all,
      fun exact counter _ => exact counter⟩

theorem MergesExactly.toInt_get {block other : StatBlock}
    (lossless : block.MergesExactly other) (counter : Counter) :
    ((block.merge other).get counter).toInt =
      (block.get counter).toInt + (other.get counter).toInt := by
  obtain ⟨above, below⟩ := lossless counter
  rw [StatBlock.get_merge]
  exact toInt_satAdd_of_fits above below

/-- The change merges what it makes out of an empty block. -/
def IsMerge (change : StatBlock → StatBlock) : Prop :=
  ∀ block, change block = block.merge (change zero)

theorem isMerge_id : IsMerge id := by
  intro block
  apply ext_counters
  intro counter
  simp

section Recordings

variable {change : StatBlock → StatBlock}

/-- The counter was not added to before: a sum that stopped at a bound on the way
could not be told from its parts. -/
theorem IsMerge.add (merges : IsMerge change) (counter : Counter)
    (amount : Int32) (untouched : (change zero).get counter = 0) :
    IsMerge fun block => (change block).add counter amount := by
  intro block
  apply ext_counters
  intro other
  dsimp only
  rw [merges block, get_merge, get_add, get_add, get_merge]
  split
  · next same => rw [← same, untouched, satAdd_zero, zero_satAdd]
  · rfl

theorem IsMerge.addIf (merges : IsMerge change) (condition : Bool)
    (counter : Counter) (amount : Int32)
    (untouched : (change zero).get counter = 0) :
    IsMerge fun block =>
      if condition then (change block).add counter amount
      else change block := by
  cases condition with
  | false => exact merges
  | true => exact merges.add counter amount untouched

theorem IsMerge.award (merges : IsMerge change) (points : Int32)
    (unpaid : (change zero).get .points = 0) :
    IsMerge fun block => (change block).award points :=
  merges.add .points points unpaid

end Recordings

theorem isMerge_recordShot : IsMerge recordShot :=
  isMerge_id.add .shots 1 (get_zero _)

theorem isMerge_recordDeath : IsMerge recordDeath :=
  isMerge_id.add .deaths 1 (get_zero _)

theorem isMerge_award (points : Int32) :
    IsMerge fun block => block.award points :=
  isMerge_id.award points (get_zero _)

theorem isMerge_recordHit (damage : Int32) (region : Option BodyRegion) :
    IsMerge fun block => block.recordHit damage region := by
  have counted : IsMerge fun block => (block.add .hits 1).add .damage damage :=
    (isMerge_id.add .hits 1 (get_zero _)).add .damage damage
      (by simp [get_add])
  cases region with
  | none => exact counted
  | some place => exact counted.add (.body place) 1 (by simp [get_add])

theorem isMerge_recordKill (headshot teamkill : Bool) :
    IsMerge fun block => block.recordKill headshot teamkill := by
  have counted := isMerge_id.add .kills 1 (get_zero _)
  have special := counted.addIf headshot .headshots 1 (by simp [get_add])
  apply special.addIf teamkill .teamkills 1
  split <;> simp [get_add]

theorem isMerge_hit (damage : Int32) (region : Option BodyRegion)
    (points : Int32) :
    IsMerge fun block => (block.recordHit damage region).award points := by
  apply (isMerge_recordHit damage region).award points
  cases region <;> simp [recordHit, get_add]

theorem isMerge_kill (headshot teamkill : Bool) (points : Int32) :
    IsMerge fun block => (block.recordKill headshot teamkill).award points := by
  apply (isMerge_recordKill headshot teamkill).award points
  cases headshot <;> cases teamkill <;> simp [recordKill, get_add]

end StatBlock

end Fragboard
