import Fragboard.Proofs.Match.PlayerTables
import Fragboard.Proofs.MergedBlocks

/-!
# Calls of a tally and what they change in a scope

`Tally.perform` is one call of a tally's interface and `Tally.run` a sequence of
calls.  `Tally.scope_perform` says what a call does to one scope of one player:
it clears the scope, merges a block into the total and into the row of one
weapon, or leaves the scope alone.
-/

namespace Fragboard.Match

/-- A block to be counted under a weapon. -/
structure Recording where
  weapon : Weapon
  counts : StatBlock

namespace ScopeTally

def note (tally : ScopeTally) (recording : Recording) : ScopeTally :=
  tally.record recording.weapon (·.merge recording.counts)

def noteAny (tally : ScopeTally) : Option Recording → ScopeTally
  | none => tally
  | some recording => tally.note recording

/-- The row of a weapon, or the total. -/
def block (tally : ScopeTally) : Option Weapon → StatBlock
  | none => tally.total
  | some weapon => tally.byWeapon.get weapon.index

theorem block_empty (row : Option Weapon) :
    ({} : ScopeTally).block row = StatBlock.zero := by
  cases row with
  | none => rfl
  | some weapon => exact Cells.get_fill _ _

theorem block_note (tally : ScopeTally) (recording : Recording)
    (row : Option Weapon) :
    (tally.note recording).block row =
      if row.all (· = recording.weapon) then
        (tally.block row).merge recording.counts
      else tally.block row := by
  cases row with
  | none => rfl
  | some weapon =>
      simp only [block, note, record, Cells.get_alter, Weapon.index_inj,
        @eq_comm _ recording.weapon, Option.all_some, decide_eq_true_eq]

end ScopeTally

namespace PlayerTally

theorem scope_record (player : PlayerTally) {weapon : Weapon}
    {change : StatBlock → StatBlock} (merges : StatBlock.IsMerge change)
    (scope : Scope) :
    (player.record weapon change).scope scope =
      (player.scope scope).note ⟨weapon, change StatBlock.zero⟩ := by
  have merged : change = (·.merge (change StatBlock.zero)) := funext merges
  rw [ScopeTally.note, ← merged]
  cases scope <;> rfl

theorem scope_changeVictim (player : PlayerTally) (victim : Slot)
    (change : Duel → Duel) (scope : Scope) :
    (player.changeVictim victim change).scope scope = player.scope scope := by
  cases scope <;> rfl

theorem scope_changeAttacker (player : PlayerTally) (attacker : Slot)
    (change : Duel → Duel) (scope : Scope) :
    (player.changeAttacker attacker change).scope scope =
      player.scope scope := by
  cases scope <;> rfl

/-- The weapon in the player's hands and the noted clips. -/
def arms (player : PlayerTally) : Weapon × Arsenal (Option Int32) :=
  (player.held, player.clips)

theorem scope_restart (player : PlayerTally) (full : Bool) (scope : Scope) :
    (player.restart full).scope scope =
      if full = true ∨ scope = .life then {} else player.scope scope := by
  cases full with
  | false => cases scope <;> rfl
  | true => cases scope <;> rfl

end PlayerTally

namespace Tally

inductive Call where
  | resetPlayer (slot : Slot) (name : String)
  | setName (slot : Slot) (name : String)
  | recordShot (slot : Slot) (weapon : Weapon)
  | recordHit (attacker victim : Slot) (weapon : Weapon) (damage : Int32)
      (region : Option BodyRegion)
  | recordKill (attacker victim : Slot) (weapon : Weapon)
      (headshot teamkill : Bool)
  | awardObjective (slot : Slot) (points : Int32)
  | setHeld (slot : Slot) (weapon : Weapon)
  | setLastRegion (slot : Slot) (region : Option BodyRegion)
  | swapClip (slot : Slot) (weapon : Weapon) (clip : Int32)
  | setAmmo (slot : Slot) (ammoSlot : UInt8) (amount : Int32)
  | scheduleLife (slot : Slot) (due : Float32) (full : Bool)
  | scheduleRound (slot : Slot) (due : Float32)
  | takeDue (slot : Slot) (now : Float32)
  | restart (slot : Slot) (full : Bool)
  | clearRound (slot : Slot)

def perform (tally : Tally) : Call → Tally
  | .resetPlayer slot name => tally.resetPlayer slot name
  | .setName slot name => tally.setName slot name
  | .recordShot slot weapon => tally.recordShot slot weapon
  | .recordHit attacker victim weapon damage region =>
    tally.recordHit attacker victim weapon damage region
  | .recordKill attacker victim weapon headshot teamkill =>
    tally.recordKill attacker victim weapon headshot teamkill
  | .awardObjective slot points => tally.awardObjective slot points
  | .setHeld slot weapon => (tally.setHeld slot weapon).2
  | .setLastRegion slot region => tally.setLastRegion slot region
  | .swapClip slot weapon clip => (tally.swapClip slot weapon clip).2
  | .setAmmo slot ammoSlot amount => tally.setAmmo slot ammoSlot amount
  | .scheduleLife slot due full => tally.scheduleLife slot due full
  | .scheduleRound slot due => tally.scheduleRound slot due
  | .takeDue slot now => (tally.takeDue slot now).2
  | .restart slot full => tally.restart slot full
  | .clearRound slot => tally.clearRound slot

def run (tally : Tally) (calls : List Call) : Tally :=
  calls.foldl perform tally

def Call.clears (slot : Slot) (scope : Scope) : Call → Bool
  | .resetPlayer wiped _ => wiped = slot
  | .restart restarted full => restarted = slot ∧ (full ∨ scope = .life)
  | .clearRound cleared => cleared = slot ∧ scope = .round
  | _ => false

/-- What a call records for a player, in every scope. -/
def recording? (tally : Tally) (slot : Slot) : Call → Option Recording
  | .recordShot shooter weapon =>
    if shooter = slot then some ⟨weapon, StatBlock.zero.recordShot⟩ else none
  | .recordHit attacker _ weapon damage region =>
    if attacker = slot then
      let points := tally.points.hitPoints weapon
      some ⟨weapon, (StatBlock.zero.recordHit damage region).award points⟩
    else none
  | .recordKill attacker victim weapon headshot teamkill =>
    if victim = slot then
      some ⟨(tally.player slot).held, StatBlock.zero.recordDeath⟩
    else if attacker = slot then
      let points := tally.points.killPoints weapon teamkill
      some ⟨weapon,
        (StatBlock.zero.recordKill headshot teamkill).award points⟩
    else none
  | .awardObjective awarded points =>
    if awarded = slot then
      some ⟨(tally.player slot).held, StatBlock.zero.award points⟩
    else none
  | _ => none

section Scopes

variable (tally : Tally) (slot : Slot) (scope : Scope)

theorem scope_change_of_kept {changed : Slot}
    {change : PlayerTally → PlayerTally}
    (kept : (change (tally.player slot)).scope scope =
      (tally.player slot).scope scope) :
    ((tally.change changed change).player slot).scope scope =
      (tally.player slot).scope scope := by
  rw [player_change]
  split
  · exact kept
  · rfl

theorem scope_recordShot (shooter : Slot) (weapon : Weapon) :
    ((tally.recordShot shooter weapon).player slot).scope scope =
      ((tally.player slot).scope scope).noteAny
        (tally.recording? slot (.recordShot shooter weapon)) := by
  simp only [recordShot, recording?, player_change]
  split
  · exact PlayerTally.scope_record _ StatBlock.isMerge_recordShot scope
  · rfl

theorem scope_recordHit (attacker victim : Slot) (weapon : Weapon)
    (damage : Int32) (region : Option BodyRegion) :
    ((tally.recordHit attacker victim weapon damage region).player slot).scope
        scope =
      ((tally.player slot).scope scope).noteAny
        (tally.recording? slot
          (.recordHit attacker victim weapon damage region)) := by
  rw [recordHit, scope_change_of_kept]
  · simp only [recording?, player_change]
    split
    · rw [PlayerTally.scope_changeVictim]
      exact PlayerTally.scope_record _ (StatBlock.isMerge_hit _ _ _) scope
    · rfl
  · exact PlayerTally.scope_changeAttacker _ _ _ scope

theorem scope_recordDeath (victim : Slot) :
    ((tally.recordDeath victim).player slot).scope scope =
      if victim = slot then
        ((tally.player slot).scope scope).note
          ⟨(tally.player slot).held, StatBlock.zero.recordDeath⟩
      else (tally.player slot).scope scope := by
  simp only [recordDeath, player_change]
  split
  · exact PlayerTally.scope_record _ StatBlock.isMerge_recordDeath scope
  · rfl

theorem scope_recordKill (attacker victim : Slot) (weapon : Weapon)
    (headshot teamkill : Bool) :
    ((tally.recordKill attacker victim weapon headshot teamkill).player
        slot).scope scope =
      ((tally.player slot).scope scope).noteAny
        (tally.recording? slot
          (.recordKill attacker victim weapon headshot teamkill)) := by
  rw [recordKill]
  split
  · next alone =>
    rw [scope_recordDeath, recording?, alone]
    split
    · rfl
    · rfl
  · next apart =>
    dsimp only
    rw [scope_recordDeath, recording?]
    split
    · next dies =>
      rw [← dies, player_change_self, player_change_of_ne _ _ apart,
        PlayerTally.scope_changeAttacker]
      rfl
    · next survives =>
      rw [scope_change_of_kept _ _ _ (PlayerTally.scope_changeAttacker _ _ _ _),
        player_change]
      split
      · rw [PlayerTally.scope_changeVictim]
        exact PlayerTally.scope_record _ (StatBlock.isMerge_kill _ _ _) scope
      · rfl

theorem scope_awardObjective (awarded : Slot) (points : Int32) :
    ((tally.awardObjective awarded points).player slot).scope scope =
      ((tally.player slot).scope scope).noteAny
        (tally.recording? slot (.awardObjective awarded points)) := by
  simp only [awardObjective, recording?, player_change]
  split
  · exact PlayerTally.scope_record _ (StatBlock.isMerge_award points) scope
  · rfl

end Scopes

/-- What a call does to a scope of a player. -/
theorem scope_perform (tally : Tally) (call : Call) (slot : Slot)
    (scope : Scope) :
    ((tally.perform call).player slot).scope scope =
      if call.clears slot scope then {}
      else ((tally.player slot).scope scope).noteAny
        (tally.recording? slot call) := by
  cases call with
  | resetPlayer wiped name =>
      simp only [perform, resetPlayer, player_change, Call.clears,
        recording?, ScopeTally.noteAny, decide_eq_true_eq]
      split
      · cases scope <;> rfl
      · rfl
  | setName named name => exact tally.scope_change_of_kept slot scope rfl
  | recordShot shooter weapon =>
      exact tally.scope_recordShot slot scope shooter weapon
  | recordHit attacker victim weapon damage region =>
      exact tally.scope_recordHit slot scope attacker victim weapon damage
        region
  | recordKill attacker victim weapon headshot teamkill =>
      exact tally.scope_recordKill slot scope attacker victim weapon headshot
        teamkill
  | awardObjective awarded points =>
      exact tally.scope_awardObjective slot scope awarded points
  | setHeld holder weapon =>
      exact tally.scope_change_of_kept slot scope rfl
  | setLastRegion hit region =>
      exact tally.scope_change_of_kept slot scope rfl
  | swapClip holder weapon clip =>
      exact tally.scope_change_of_kept slot scope rfl
  | setAmmo holder ammoSlot amount =>
      exact tally.scope_change_of_kept slot scope rfl
  | scheduleLife scheduled due full =>
      exact tally.scope_change_of_kept slot scope rfl
  | scheduleRound scheduled due =>
      exact tally.scope_change_of_kept slot scope rfl
  | takeDue polled now =>
      have polling : ((tally.perform (.takeDue polled now)).player slot).scope
          scope = (tally.player slot).scope scope := by
        simp only [perform, takeDue, player_change]
        split
        · next here =>
          rw [here]
          cases scope <;> rfl
        · rfl
      exact polling
  | restart restarted full =>
      simp only [perform, restart, player_change, Call.clears, recording?,
        ScopeTally.noteAny, decide_eq_true_eq]
      by_cases here : restarted = slot
      · simp only [here, true_and, if_true]
        exact PlayerTally.scope_restart _ full scope
      · simp only [here, false_and, if_false]
  | clearRound cleared =>
      simp only [perform, clearRound, player_change, Call.clears, recording?,
        ScopeTally.noteAny, decide_eq_true_eq]
      by_cases here : cleared = slot
      · simp only [here, true_and, if_true]
        cases scope <;> rfl
      · simp only [here, false_and, if_false]

/-- The call may put a weapon into a player's hands or note a clip. -/
def Call.handles (slot : Slot) : Call → Bool
  | .resetPlayer handled _ | .setHeld handled _ | .swapClip handled _ _ =>
    handled = slot
  | _ => false

theorem arms_change (tally : Tally) (slot changed : Slot)
    {change : PlayerTally → PlayerTally}
    (kept : ∀ player, (change player).arms = player.arms) :
    ((tally.change changed change).player slot).arms =
      (tally.player slot).arms :=
  tally.part_change_of_kept PlayerTally.arms slot (kept _)

theorem arms_recordDeath (tally : Tally) (slot victim : Slot) :
    ((tally.recordDeath victim).player slot).arms = (tally.player slot).arms :=
  tally.arms_change slot victim fun _ => rfl

theorem arms_perform (tally : Tally) {call : Call} {slot : Slot}
    (unhandled : call.handles slot = false) :
    ((tally.perform call).player slot).arms = (tally.player slot).arms := by
  have apart {changed : Slot} (other : decide (changed = slot) = false)
      (change : PlayerTally → PlayerTally) :
      ((tally.change changed change).player slot).arms =
        (tally.player slot).arms :=
    congrArg PlayerTally.arms
      (player_change_of_ne tally change (of_decide_eq_false other))
  cases call with
  | resetPlayer wiped name => exact apart unhandled _
  | setHeld holder weapon => exact apart unhandled _
  | swapClip holder weapon clip => exact apart unhandled _
  | recordHit attacker victim weapon damage region =>
      rw [perform, recordHit]
      refine (arms_change _ slot victim ?_).trans
        (arms_change _ slot attacker ?_)
      · exact fun _ => rfl
      · exact fun _ => rfl
  | recordKill attacker victim weapon headshot teamkill =>
      rw [perform, recordKill]
      split
      · exact tally.arms_recordDeath slot victim
      · dsimp only
        rw [arms_recordDeath]
        refine (arms_change _ slot victim ?_).trans
          (arms_change _ slot attacker ?_)
        · exact fun _ => rfl
        · exact fun _ => rfl
  | takeDue polled now =>
      rw [perform, takeDue, player_change]
      split
      · next here =>
        rw [here]
        rfl
      · rfl
  | restart restarted full =>
      refine tally.arms_change slot restarted fun player => ?_
      cases full <;> rfl
  | _ => exact tally.arms_change slot _ fun _ => rfl

theorem arms_run (tally : Tally) {calls : List Call} {slot : Slot}
    (unhandled : ∀ call ∈ calls, call.handles slot = false) :
    ((tally.run calls).player slot).arms = (tally.player slot).arms := by
  induction calls generalizing tally with
  | nil => rfl
  | cons call rest ih =>
      obtain ⟨first, later⟩ := List.forall_mem_cons.mp unhandled
      exact (ih (tally.perform call) later).trans (tally.arms_perform first)

end Tally

end Fragboard.Match
