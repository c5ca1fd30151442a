import Fragboard.Proofs.SaturatingSums

/-!
# Counting life by life

Shots, hits and kills are counted in a block of their own for each life, and the
lives are merged one after the other.  A counter may then stop at its bound
within a life, where counting straight on would have stopped only later or not
at all.  No difference remains as long as nothing negative is counted: a sum that
has reached the upper bound stays there, whatever is added, and before that
nothing is lost.
-/

namespace Fragboard

/-- The sum of the amounts alone may stop at the bound, but then so does the sum
with what was there before. -/
theorem satAdd_satSum {start : Int32} (nonneg : 0 ≤ start.toInt)
    {amounts : List Int32} (rising : ∀ amount ∈ amounts, 0 ≤ amount.toInt) :
    satAdd start (satSum 0 amounts) = satSum start amounts := by
  have apart := toInt_satSum_of_nonneg 0 rising
  have onward := toInt_satSum_of_nonneg start rising
  have total : 0 ≤ (amounts.map Int32.toInt).sum :=
    List.sum_nonneg (List.forall_mem_map.mpr rising)
  apply Int32.toInt_inj.mp
  rw [toInt_satAdd, apart, onward, Int32.toInt_zero]
  simp only [lowest, highest]
  omega

/-- A debt is why nothing negative may be there before: it takes both amounts in
full when they come one by one, but not more than the bound when they come
together. -/
example : satAdd (satAdd (-5) 2147483647) 2147483647 ≠
    satAdd (-5) (satAdd 2147483647 2147483647) := by decide

namespace StatBlock

def Nonneg (block : StatBlock) : Prop :=
  ∀ counter, 0 ≤ (block.get counter).toInt

instance : DecidablePred Nonneg := fun block =>
  decidable_of_iff (∀ counter ∈ Counter.all, 0 ≤ (block.get counter).toInt)
    ⟨fun each counter => each counter counter.mem_all,
      fun nonneg counter _ => nonneg counter⟩

theorem nonneg_zero : zero.Nonneg := by
  intro counter
  rw [get_zero]
  decide

theorem Nonneg.add {block : StatBlock} (nonneg : block.Nonneg)
    (counter : Counter) {amount : Int32} (rise : 0 ≤ amount.toInt) :
    (block.add counter amount).Nonneg := by
  intro other
  have before := nonneg other
  rw [get_add]
  split
  · rw [toInt_satAdd]
    simp only [lowest, highest]
    omega
  · exact before

theorem Nonneg.one {block : StatBlock} (nonneg : block.Nonneg)
    (counter : Counter) : (block.add counter 1).Nonneg :=
  nonneg.add counter (by decide)

theorem Nonneg.oneIf {block : StatBlock} (nonneg : block.Nonneg)
    (condition : Bool) (counter : Counter) :
    (if condition then block.add counter 1 else block).Nonneg := by
  cases condition with
  | false => exact nonneg
  | true => exact nonneg.one counter

/-- Blocks that are merged among themselves first add up to the same. -/
theorem merge_mergeAll {base : StatBlock} (nonneg : base.Nonneg)
    {parts : List StatBlock} (rising : ∀ part ∈ parts, part.Nonneg) :
    base.merge (zero.mergeAll parts) = base.mergeAll parts := by
  apply ext_counters
  intro counter
  rw [get_merge, get_mergeAll, get_mergeAll, get_zero]
  apply satAdd_satSum (nonneg counter)
  intro amount member
  obtain ⟨part, listed, rfl⟩ := List.mem_map.mp member
  exact rising part listed counter

/-- What a player does with a weapon. -/
inductive Deed where
  | shot
  | hit (damage : Int32) (region : Option BodyRegion)
  | kill (headshot teamkill : Bool)
deriving DecidableEq

/-- The deed takes no damage back. -/
def Deed.Rises : Deed → Prop
  | .hit damage _ => 0 ≤ damage.toInt
  | _ => True

instance : DecidablePred Deed.Rises
  | .hit damage _ => inferInstanceAs (Decidable (0 ≤ damage.toInt))
  | .shot => .isTrue trivial
  | .kill _ _ => .isTrue trivial

def count (block : StatBlock) : Deed → StatBlock
  | .shot => block.recordShot
  | .hit damage region => block.recordHit damage region
  | .kill headshot teamkill => block.recordKill headshot teamkill

def countAll (block : StatBlock) (deeds : List Deed) : StatBlock :=
  deeds.foldl count block

theorem isMerge_count (deed : Deed) : IsMerge fun block => block.count deed := by
  cases deed with
  | shot => exact isMerge_recordShot
  | hit damage region => exact isMerge_recordHit damage region
  | kill headshot teamkill => exact isMerge_recordKill headshot teamkill

/-- Counting deeds is merging a block for each of them. -/
theorem countAll_eq_mergeAll (block : StatBlock) (deeds : List Deed) :
    block.countAll deeds = block.mergeAll (deeds.map zero.count) := by
  induction deeds generalizing block with
  | nil => rfl
  | cons deed rest ih =>
      have first : block.count deed = block.merge (zero.count deed) :=
        isMerge_count deed block
      rw [countAll, List.foldl_cons, ← countAll, ih, first, List.map_cons,
        mergeAll, mergeAll, List.foldl_cons]

theorem Nonneg.count {block : StatBlock} (nonneg : block.Nonneg) {deed : Deed}
    (rising : deed.Rises) : (block.count deed).Nonneg := by
  cases deed with
  | shot => exact nonneg.one .shots
  | hit damage region =>
      have counted := (nonneg.one .hits).add .damage rising
      cases region with
      | none => exact counted
      | some place => exact counted.one (.body place)
  | kill headshot teamkill =>
      have counted := (nonneg.one .kills).oneIf headshot .headshots
      exact counted.oneIf teamkill .teamkills

/-- One life is merged as if its deeds were counted on. -/
theorem merge_countAll {base : StatBlock} (nonneg : base.Nonneg)
    {deeds : List Deed} (rising : ∀ deed ∈ deeds, deed.Rises) :
    base.merge (zero.countAll deeds) = base.countAll deeds := by
  rw [countAll_eq_mergeAll, countAll_eq_mergeAll]
  apply merge_mergeAll nonneg
  intro part member
  obtain ⟨deed, listed, rfl⟩ := List.mem_map.mp member
  exact nonneg_zero.count (rising deed listed)

theorem Nonneg.countAll {block : StatBlock} (nonneg : block.Nonneg)
    {deeds : List Deed} (rising : ∀ deed ∈ deeds, deed.Rises) :
    (block.countAll deeds).Nonneg := by
  induction deeds generalizing block with
  | nil => exact nonneg
  | cons deed rest ih =>
      obtain ⟨first, later⟩ := List.forall_mem_cons.mp rising
      exact ih (nonneg.count first) later

/-- However deeds are cut into lives, counting each life from zero and merging the
lives in order comes to the same block as counting all deeds straight on.  Any
counter may stop at its bound, in a life, in a merge, or on the way. -/
theorem lives_merge_to_whole {base : StatBlock} (nonneg : base.Nonneg)
    {deeds : List Deed} (rising : ∀ deed ∈ deeds, deed.Rises)
    {lives : List (List Deed)} (cut : lives.flatten = deeds) :
    base.mergeAll (lives.map zero.countAll) = base.countAll deeds := by
  subst cut
  induction lives generalizing base with
  | nil => rfl
  | cons life rest ih =>
      rw [List.flatten_cons] at rising
      obtain ⟨here, later⟩ := List.forall_mem_append.mp rising
      have onward := ih (nonneg.countAll here) later
      calc
        base.mergeAll ((life :: rest).map zero.countAll)
          = (base.merge (zero.countAll life)).mergeAll
              (rest.map zero.countAll) := by
          rw [List.map_cons, mergeAll, mergeAll, List.foldl_cons]
        _ = (base.countAll life).mergeAll (rest.map zero.countAll) := by
          rw [merge_countAll nonneg here]
        _ = (base.countAll life).countAll rest.flatten := onward
        _ = base.countAll (life :: rest).flatten := by
          rw [List.flatten_cons, countAll, countAll, countAll,
            List.foldl_append]

/-- Damage stops at its bound in the first life, hits only when the lives are
merged, and one life is empty. -/
theorem lives_merge_at_bound :
    let base := (zero.add .hits 2147483646).add .points 9
    let lives : List (List Deed) :=
      [[.shot, .hit 2147483647 (some .head), .hit 30 none, .kill true false],
        [], [.kill false true, .shot]]
    base.Nonneg ∧ (∀ deed ∈ lives.flatten, deed.Rises) ∧
    base.mergeAll (lives.map zero.countAll) = base.countAll lives.flatten ∧
    (base.countAll lives.flatten).get .hits = 2147483647 ∧
    (base.countAll lives.flatten).get .damage = 2147483647 ∧
    (base.countAll lives.flatten).get .kills = 2 := by
  intro base lives
  have nonneg : base.Nonneg := by decide +kernel
  have rising : ∀ deed ∈ lives.flatten, deed.Rises := by decide +kernel
  exact ⟨nonneg, rising, lives_merge_to_whole nonneg rising rfl,
    by decide +kernel, by decide +kernel, by decide +kernel⟩

end StatBlock

end Fragboard
