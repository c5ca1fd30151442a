import Fragboard.Proofs.Match.RecordedBlocks
import Fragboard.Proofs.Match.WeaponTotals

/-!
# Recordings in any order

What a recording adds to the blocks of a tally depends on nothing that
recordings change.  So each block ends as a sum of the same parts, whatever the
order of the calls.  Damage and points may go up and down and have to stay
within their bounds; every other counter only rises, and stops at the upper
bound in any order.

Two calls alone do not always commute, even where a whole sequence meets no
bound in either order: an order in between may meet one.  So the sequences are
compared as wholes.
-/

namespace Fragboard

namespace StatBlock

/-- Neither damage nor points stop at a bound when a second block is added. -/
def PaysExactly (block other : StatBlock) : Prop :=
  ∀ counter ∈ [Counter.damage, .points],
    lowest ≤ (block.get counter).toInt + (other.get counter).toInt ∧
    (block.get counter).toInt + (other.get counter).toInt ≤ highest

instance (block other : StatBlock) : Decidable (block.PaysExactly other) :=
  inferInstanceAs (Decidable (∀ counter ∈ [Counter.damage, .points],
    lowest ≤ (block.get counter).toInt + (other.get counter).toInt ∧
    (block.get counter).toInt + (other.get counter).toInt ≤ highest))

end StatBlock

namespace Match

namespace Tally

/-- Neither damage nor points stop at a bound in a call. -/
def PaysExactly (tally : Tally) (call : Call) : Prop :=
  ∀ place, ∀ part ∈ tally.part? place call,
    (tally.block place).PaysExactly part

/-- A call has no more than these places to look at. -/
theorem paysExactly_iff {tally : Tally} {call : Call} :
    tally.PaysExactly call ↔
      (∀ slot ∈ Slot.all, ∀ recording ∈ tally.recording? slot call,
        ∀ scope ∈ Scope.all, ∀ row ∈ [none, some recording.weapon],
          (tally.block (.scope slot scope row)).PaysExactly
            recording.counts) ∧
      ∀ attacker ∈ Slot.all, ∀ victim ∈ Slot.all,
        ∀ strike ∈ tally.strike? attacker victim call,
          (tally.block (.dealt attacker victim)).PaysExactly strike.dealt ∧
          (tally.block (.suffered victim attacker)).PaysExactly
            strike.suffered := by
  constructor
  · intro paid
    constructor
    · intro slot _ recording noted scope _ row listed
      exact paid (.scope slot scope row) recording.counts
        (part?_scope_eq_some_iff.mpr ⟨recording, noted, listed, rfl⟩)
    · intro attacker _ victim _ strike struck
      exact ⟨paid _ _ (Option.map_eq_some_iff.mpr ⟨strike, struck, rfl⟩),
        paid _ _ (Option.map_eq_some_iff.mpr ⟨strike, struck, rfl⟩)⟩
  · rintro ⟨scopes, duels⟩ place part added
    cases place with
    | scope slot scope row =>
        obtain ⟨recording, noted, listed, rfl⟩ :=
          part?_scope_eq_some_iff.mp added
        exact scopes slot slot.mem_all recording noted scope scope.mem_all row
          listed
    | dealt attacker victim =>
        obtain ⟨strike, struck, rfl⟩ := Option.map_eq_some_iff.mp added
        exact (duels attacker attacker.mem_all victim victim.mem_all strike
          struck).1
    | suffered victim attacker =>
        obtain ⟨strike, struck, rfl⟩ := Option.map_eq_some_iff.mp added
        exact (duels attacker attacker.mem_all victim victim.mem_all strike
          struck).2

instance (tally : Tally) : DecidablePred tally.PaysExactly := fun _ =>
  decidable_of_iff' _ paysExactly_iff

def AllPayExactly (tally : Tally) : List Call → Prop
  | [] => True
  | call :: rest =>
    tally.PaysExactly call ∧ (tally.perform call).AllPayExactly rest

instance decidableAllPayExactly :
    (tally : Tally) → DecidablePred tally.AllPayExactly
  | _, [] => .isTrue trivial
  | tally, call :: rest =>
    have := decidableAllPayExactly (tally.perform call) rest
    inferInstanceAs (Decidable (tally.PaysExactly call ∧
      (tally.perform call).AllPayExactly rest))

section Runs

variable {calls : List Call}
  (recordings : ∀ call ∈ calls, call.isRecording = true)

include recordings

/-- Every block takes the parts that the calls have for it. -/
theorem block_run (tally : Tally) (place : Place) :
    (tally.run calls).block place =
      (tally.block place).mergeAll (calls.filterMap (tally.part? place)) := by
  induction calls generalizing tally with
  | nil => rfl
  | cons call rest ih =>
      obtain ⟨first, later⟩ := List.forall_mem_cons.mp recordings
      have after := ih later (tally.perform call)
      rw [block_record _ first, part?_perform _ first] at after
      refine after.trans ?_
      cases added : tally.part? place call with
      | none =>
          rw [List.filterMap_cons_none added]
          rfl
      | some part =>
          rw [List.filterMap_cons_some added]
          rfl

theorem restart_run (tally : Tally) (slot : Slot) :
    ((tally.run calls).player slot).restart true =
      (tally.player slot).restart true := by
  induction calls generalizing tally with
  | nil => rfl
  | cons call rest ih =>
      obtain ⟨first, later⟩ := List.forall_mem_cons.mp recordings
      exact (ih later (tally.perform call)).trans
        (tally.restart_perform slot first)

theorem points_run (tally : Tally) :
    (tally.run calls).points = tally.points := by
  induction calls generalizing tally with
  | nil => rfl
  | cons call rest ih =>
      obtain ⟨first, later⟩ := List.forall_mem_cons.mp recordings
      exact (ih later (tally.perform call)).trans (tally.points_perform first)

theorem sumsExactly_of_allPayExactly {tally : Tally}
    (exact : tally.AllPayExactly calls) (place : Place) {counter : Counter}
    (pays : counter ∈ [Counter.damage, .points]) :
    SumsExactly ((tally.block place).get counter)
      ((calls.filterMap (tally.part? place)).map (·.get counter)) := by
  induction calls generalizing tally with
  | nil => exact trivial
  | cons call rest ih =>
      obtain ⟨first, later⟩ := List.forall_mem_cons.mp recordings
      have sums := ih later exact.2
      rw [block_record _ first, part?_perform _ first] at sums
      cases added : tally.part? place call with
      | none =>
          rw [added] at sums
          rw [List.filterMap_cons_none added]
          exact sums
      | some part =>
          rw [added] at sums
          rw [List.filterMap_cons_some added]
          refine ⟨exact.1 place part added counter pays, ?_⟩
          rw [← StatBlock.get_merge]
          exact sums

/-- The names in the two entries of a duel are those at its last hit, and no
recording changes the name of a player. -/
theorem names_run (tally : Tally) (attacker victim : Slot) :
    (((tally.run calls).player attacker).dealt victim).name =
      (if calls.any (·.isHitOf attacker victim) then (tally.player victim).name
        else ((tally.player attacker).dealt victim).name) ∧
    (((tally.run calls).player victim).suffered attacker).name =
      (if calls.any (·.isHitOf attacker victim)
        then (tally.player attacker).name
        else ((tally.player victim).suffered attacker).name) := by
  induction calls generalizing tally with
  | nil => exact ⟨rfl, rfl⟩
  | cons call rest ih =>
      obtain ⟨first, later⟩ := List.forall_mem_cons.mp recordings
      obtain ⟨dealt, suffered⟩ := ih later (tally.perform call)
      obtain ⟨dealtFirst, sufferedFirst⟩ :=
        tally.names_perform first attacker victim
      rw [tally.name_perform first, dealtFirst] at dealt
      rw [tally.name_perform first, sufferedFirst] at suffered
      refine ⟨dealt.trans ?_, suffered.trans ?_⟩
      · cases hit : call.isHitOf attacker victim <;> simp [hit]
      · cases hit : call.isHitOf attacker victim <;> simp [hit]

end Runs

/-- Shots, hits, kills and awards in another order lead to the same tally, as
long as no damage and no points stop at a bound in either order. -/
theorem run_eq_of_perm {tally : Tally} {first second : List Call}
    (recordings : ∀ call ∈ first, call.isRecording = true)
    (permuted : first.Perm second)
    (firstExact : tally.AllPayExactly first)
    (secondExact : tally.AllPayExactly second) :
    tally.run first = tally.run second := by
  have others : ∀ call ∈ second, call.isRecording = true := fun call member =>
    recordings call (permuted.mem_iff.mpr member)
  have hits (attacker victim : Slot) :
      first.any (·.isHitOf attacker victim) =
        second.any (·.isHitOf attacker victim) := permuted.any_eq
  apply ext_blocks
  · intro place
    have parts : (first.filterMap (tally.part? place)).Perm
        (second.filterMap (tally.part? place)) := permuted.filterMap _
    rw [block_run recordings, block_run others]
    apply StatBlock.mergeAll_perm parts
    intro counter
    by_cases pays : counter ∈ [Counter.damage, .points]
    · exact .inr ⟨sumsExactly_of_allPayExactly recordings firstExact place pays,
        sumsExactly_of_allPayExactly others secondExact place pays⟩
    · rw [List.mem_pair, not_or] at pays
      left
      intro amount member
      obtain ⟨part, partMember, rfl⟩ := List.mem_map.mp member
      obtain ⟨call, _, added⟩ := List.mem_filterMap.mp partMember
      exact (isPart_of_part? added).rises counter pays.1 pays.2
  · intro attacker victim
    rw [(names_run recordings tally attacker victim).1,
      (names_run others tally attacker victim).1, hits]
  · intro attacker victim
    rw [(names_run recordings tally attacker victim).2,
      (names_run others tally attacker victim).2, hits]
  · intro slot
    rw [restart_run recordings, restart_run others]
  · rw [points_run recordings, points_run others]

/-- The hits of one player stand at their bound.  The players hit each other and
themselves, and one of them loses points. -/
theorem run_reversed_at_bound :
    let ann : Slot := { index := 0 }
    let bob : Slot := { index := 1 }
    let points := PointTable.uniform { kill := 3, hit := 1, teamkill := -2 }
    let named := (Tally.new points).run
      [.setName ann "ann", .setName bob "bob", .setHeld ann Weapon.bazooka]
    let tally := named.change ann fun player =>
      player.record Weapon.piat (·.add .hits 2147483647)
    let calls : List Call :=
      [.recordShot ann Weapon.piat,
        .recordHit ann bob Weapon.piat 90 (some .head),
        .recordKill ann bob Weapon.piat true true, .awardObjective ann (-5),
        .recordHit bob ann Weapon.bazooka 25 none,
        .recordHit ann ann Weapon.piat 7 none,
        .recordKill ann ann Weapon.unarmed false false]
    let after := (tally.run calls).player ann
    (∀ call ∈ calls, call.isRecording = true) ∧
    tally.AllPayExactly calls ∧ tally.AllPayExactly calls.reverse ∧
    tally.run calls = tally.run calls.reverse ∧
    after.session.total.get .hits = 2147483647 ∧
    after.session.total.get .points = -5 ∧
    (after.dealt bob).name = "bob" ∧ (after.suffered ann).name = "ann" := by
  intro ann bob points named tally calls after
  have recordings : ∀ call ∈ calls, call.isRecording = true := by decide
  have firstExact : tally.AllPayExactly calls := by decide +kernel
  have secondExact : tally.AllPayExactly calls.reverse := by decide +kernel
  have same := run_eq_of_perm recordings (List.reverse_perm calls).symm
    firstExact secondExact
  exact ⟨recordings, firstExact, secondExact, same, by decide +kernel,
    by decide +kernel, by decide +kernel, by decide +kernel⟩

end Tally

end Match

end Fragboard
