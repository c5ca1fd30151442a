import Fragboard.Proofs.Match.RecordedBlocks

/-!
# Counters that agree with each other

Within a block the special counters stay below the one that they are counted
besides: headshots and teamkills below the kills, each region below the hits.
Between the scopes of a player nothing of the life or of the round is missing in
the session.

Every sum may stop at its bound, and the scopes are cleared at different times.
But what a call adds is the same in all three scopes, a saturating sum is
monotone, and whatever clears the session clears the other two.
-/

namespace Fragboard

namespace StatBlock

/-- Damage and points apart, no counter is negative, and none is above the one
that it is counted besides. -/
structure Consistent (block : StatBlock) : Prop where
  rises : block.Rises
  headshots : (block.get .headshots).toInt ≤ (block.get .kills).toInt
  teamkills : (block.get .teamkills).toInt ≤ (block.get .kills).toInt
  regions : ∀ region,
    (block.get (.body region)).toInt ≤ (block.get .hits).toInt

theorem consistent_zero : zero.Consistent := by
  refine ⟨rises_zero, ?_, ?_, ?_⟩
  · rw [get_zero, get_zero]
  · rw [get_zero, get_zero]
  · intro region
    rw [get_zero, get_zero]

theorem Rises.merge {block other : StatBlock} (rises : block.Rises)
    (more : other.Rises) : (block.merge other).Rises := by
  intro counter notDamage notPoints
  have first := rises counter notDamage notPoints
  have second := more counter notDamage notPoints
  rw [get_merge, toInt_satAdd]
  simp only [lowest, highest]
  omega

theorem Consistent.merge {block other : StatBlock}
    (consistent : block.Consistent) (more : other.Consistent) :
    (block.merge other).Consistent := by
  refine ⟨consistent.rises.merge more.rises, ?_, ?_, ?_⟩
  · rw [get_merge, get_merge]
    exact toInt_satAdd_le consistent.headshots more.headshots
  · rw [get_merge, get_merge]
    exact toInt_satAdd_le consistent.teamkills more.teamkills
  · intro region
    rw [get_merge, get_merge]
    exact toInt_satAdd_le (consistent.regions region) (more.regions region)

theorem Consistent.award {block : StatBlock} (consistent : block.Consistent)
    (points : Int32) : (block.award points).Consistent := by
  have kept {counter : Counter} (unpaid : counter ≠ .points) :=
    block.get_award_of_ne points unpaid
  refine ⟨consistent.rises.award points, ?_, ?_, ?_⟩
  · rw [kept (by decide), kept (by decide)]
    exact consistent.headshots
  · rw [kept (by decide), kept (by decide)]
    exact consistent.teamkills
  · intro region
    rw [kept Counter.noConfusion, kept (by decide)]
    exact consistent.regions region

theorem consistent_recordHit (damage : Int32) (region : Option BodyRegion) :
    (zero.recordHit damage region).Consistent := by
  refine ⟨(IsPart.hit damage region).rises, ?_, ?_, ?_⟩
  · cases region <;> simp [recordHit, get_add]
  · cases region <;> simp [recordHit, get_add]
  · intro other
    cases region with
    | none => simp [recordHit, get_add]
    | some place =>
        simp only [recordHit, get_add, get_zero, Counter.body.injEq,
          reduceCtorEq, if_false, if_true]
        split
        · exact le_rfl
        · decide

theorem consistent_recordKill (headshot teamkill : Bool) :
    (zero.recordKill headshot teamkill).Consistent := by
  refine ⟨(IsPart.kill headshot teamkill).rises, ?_, ?_, ?_⟩
  · cases headshot <;> cases teamkill <;> simp [recordKill, get_add]
  · cases headshot <;> cases teamkill <;> simp [recordKill, get_add]
  · intro region
    cases headshot <;> cases teamkill <;> simp [recordKill, get_add]

theorem IsPart.consistent {part : StatBlock} (single : IsPart part) :
    part.Consistent := by
  induction single with
  | nothing => exact consistent_zero
  | shot =>
      refine ⟨IsPart.shot.rises, ?_, ?_, ?_⟩
      · simp [recordShot, get_add]
      · simp [recordShot, get_add]
      · simp [recordShot, get_add]
  | death =>
      refine ⟨IsPart.death.rises, ?_, ?_, ?_⟩
      · simp [recordDeath, get_add]
      · simp [recordDeath, get_add]
      · simp [recordDeath, get_add]
  | hit damage region => exact consistent_recordHit damage region
  | kill headshot teamkill => exact consistent_recordKill headshot teamkill
  | award _ points ih => exact ih.award points

/-- Damage and points apart, the second block counts all that the first does. -/
def AtMost (block other : StatBlock) : Prop :=
  ∀ counter, counter ≠ .damage → counter ≠ .points →
    (block.get counter).toInt ≤ (other.get counter).toInt

theorem Rises.atMost_of_zero {block : StatBlock} (rises : block.Rises) :
    zero.AtMost block := by
  intro counter notDamage notPoints
  rw [get_zero]
  exact rises counter notDamage notPoints

theorem AtMost.merge {block other : StatBlock} (less : block.AtMost other)
    (part : StatBlock) : (block.merge part).AtMost (other.merge part) := by
  intro counter notDamage notPoints
  rw [get_merge, get_merge]
  exact toInt_satAdd_le (less counter notDamage notPoints) le_rfl

end StatBlock

namespace Match.Tally

theorem Call.clears_of_session {call : Call} {slot : Slot}
    (cleared : call.clears slot .session = true) (scope : Scope) :
    call.clears slot scope = true := by
  cases call with
  | resetPlayer wiped name => exact cleared
  | restart restarted full =>
      obtain ⟨here, wholly⟩ := of_decide_eq_true cleared
      have full : full = true := wholly.resolve_right Scope.noConfusion
      exact decide_eq_true ⟨here, .inl full⟩
  | clearRound wiped =>
      obtain ⟨_, round⟩ := of_decide_eq_true cleared
      contradiction
  | _ => contradiction

/-- The blocks of a tally, each by itself and the scopes with each other. -/
structure CountsConsistently (tally : Tally) : Prop where
  blocks : ∀ place, (tally.block place).Consistent
  scopes : ∀ slot scope row, (tally.block (.scope slot scope row)).AtMost
    (tally.block (.scope slot .session row))

theorem block_new (points : PointTable) (place : Place) :
    (Tally.new points).block place = StatBlock.zero := by
  have blank (slot : Slot) : (Tally.new points).player slot = {} :=
    Cells.get_fill _ _
  cases place with
  | scope slot scope row =>
      rw [block, blank]
      cases scope <;> exact ScopeTally.block_empty row
  | dealt attacker victim =>
      rw [block, blank, PlayerTally.dealt, Cells.get_fill]
  | suffered victim attacker =>
      rw [block, blank, PlayerTally.suffered, Cells.get_fill]

theorem countsConsistently_new (points : PointTable) :
    (Tally.new points).CountsConsistently := by
  constructor
  · intro place
    rw [block_new]
    exact StatBlock.consistent_zero
  · intro slot scope row
    rw [block_new, block_new]
    exact StatBlock.rises_zero.atMost_of_zero

section Steps

variable {tally : Tally}

theorem consistent_perform (consistent : tally.CountsConsistently)
    (call : Call) (place : Place) :
    ((tally.perform call).block place).Consistent := by
  rw [block_perform]
  split
  · exact StatBlock.consistent_zero
  · cases added : tally.part? place call with
    | none => exact consistent.blocks place
    | some part =>
        have counted := (isPart_of_part? added).consistent
        exact (consistent.blocks place).merge counted

/-- The session is cleared together with the scope, or the scope alone, or
both take the same part. -/
theorem atMost_perform (consistent : tally.CountsConsistently) (call : Call)
    (slot : Slot) (scope : Scope) (row : Option Weapon) :
    ((tally.perform call).block (.scope slot scope row)).AtMost
      ((tally.perform call).block (.scope slot .session row)) := by
  cases wiped : call.clears slot scope with
  | true =>
      have session := consistent_perform consistent call
        (.scope slot .session row)
      rw [block_perform tally call (.scope slot scope row), Call.clearsAt,
        wiped, if_pos rfl]
      exact session.rises.atMost_of_zero
  | false =>
      have lasting : call.clears slot .session = false :=
        Bool.eq_false_iff.mpr fun cleared => Bool.false_ne_true
          (wiped.symm.trans (Call.clears_of_session cleared scope))
      have same : tally.part? (.scope slot scope row) call =
          tally.part? (.scope slot .session row) call := rfl
      rw [block_perform, block_perform, Call.clearsAt, Call.clearsAt, wiped,
        lasting, if_neg Bool.false_ne_true, if_neg Bool.false_ne_true, same]
      cases tally.part? (.scope slot .session row) call with
      | none => exact consistent.scopes slot scope row
      | some part => exact (consistent.scopes slot scope row).merge part

theorem countsConsistently_perform (consistent : tally.CountsConsistently)
    (call : Call) : (tally.perform call).CountsConsistently :=
  { blocks := consistent_perform consistent call
    scopes := atMost_perform consistent call }

theorem countsConsistently_run (consistent : tally.CountsConsistently)
    (calls : List Call) : (tally.run calls).CountsConsistently := by
  induction calls generalizing tally with
  | nil => exact consistent
  | cons call rest ih =>
      exact ih (countsConsistently_perform consistent call)

end Steps

/-- Whatever the calls of a tally were, in every block, be it the total or the
row of a weapon in any scope or either side of a duel, no counter is negative,
headshots and teamkills are at most the kills, and the hits on each region at
most the hits.  And every counter of the life and of the round is at most that
of the session, for the total and for each weapon. -/
theorem run_counts_consistently (points : PointTable) (calls : List Call) :
    let tally := (Tally.new points).run calls
    (∀ place, (tally.block place).Consistent) ∧
    ∀ slot scope row, (tally.block (.scope slot scope row)).AtMost
      (tally.block (.scope slot .session row)) := by
  intro tally
  have consistent : tally.CountsConsistently :=
    countsConsistently_run (countsConsistently_new points) calls
  exact ⟨consistent.blocks, consistent.scopes⟩

/-- Damage is no such counter: two hits can take it below zero, and a life that
began between them has more of it than the session. -/
example :
    let ann : Slot := { index := 0 }
    let bob : Slot := { index := 1 }
    let tally := (Tally.new PointTable.blank).run
      [.recordHit ann bob Weapon.piat (-5) none, .restart ann false,
        .recordHit ann bob Weapon.piat 3 none]
    (tally.block (.scope ann .session none)).get .damage = -2 ∧
    (tally.block (.scope ann .life none)).get .damage = 3 := by
  decide +kernel

end Match.Tally

end Fragboard
