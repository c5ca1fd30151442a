import Fragboard.Proofs.Match.DuelSides
import Fragboard.Proofs.SaturatingSums

/-!
# The blocks of a tally and what is recorded in them

A tally keeps many blocks: for every player the total and the rows of all
weapons in each scope, and one for each opponent on either side of a duel.
`Tally.part?` is what a call adds to the block at a place.

A recording, that is a shot, a hit, a kill or an award, adds its parts and gives
the duels that it hits in the names of the moment.  It changes nothing else, and
nothing on which the parts of other recordings depend.
-/

namespace Fragboard

namespace StatBlock

/-- Damage and points apart, no counter is negative. -/
def Rises (block : StatBlock) : Prop :=
  ∀ counter, counter ≠ .damage → counter ≠ .points →
    0 ≤ (block.get counter).toInt

theorem rises_zero : zero.Rises := by
  intro counter _ _
  rw [get_zero]
  decide

theorem Rises.add {block : StatBlock} (rises : block.Rises)
    {counter : Counter} {amount : Int32}
    (allowed : 0 ≤ amount.toInt ∨ counter = .damage ∨ counter = .points) :
    (block.add counter amount).Rises := by
  intro other notDamage notPoints
  have before := rises other notDamage notPoints
  rw [get_add]
  split
  · next same =>
    have upward : 0 ≤ amount.toInt := by
      rcases allowed with upward | damage | points
      · exact upward
      · exact absurd (same.symm.trans damage) notDamage
      · exact absurd (same.symm.trans points) notPoints
    rw [toInt_satAdd]
    simp only [lowest, highest]
    omega
  · exact before

theorem Rises.one {block : StatBlock} (rises : block.Rises)
    (counter : Counter) : (block.add counter 1).Rises :=
  rises.add (.inl (by decide))

theorem Rises.award {block : StatBlock} (rises : block.Rises)
    (points : Int32) : (block.award points).Rises :=
  rises.add (.inr (.inr rfl))

/-- What a single call may add to a block. -/
inductive IsPart : StatBlock → Prop where
  | nothing : IsPart zero
  | shot : IsPart zero.recordShot
  | death : IsPart zero.recordDeath
  | hit (damage : Int32) (region : Option BodyRegion) :
      IsPart (zero.recordHit damage region)
  | kill (headshot teamkill : Bool) : IsPart (zero.recordKill headshot teamkill)
  | award {part : StatBlock} (paid : IsPart part) (points : Int32) :
      IsPart (part.award points)

theorem IsPart.rises {part : StatBlock} (single : IsPart part) :
    part.Rises := by
  have empty := rises_zero
  induction single with
  | nothing => exact empty
  | shot => exact empty.one .shots
  | death => exact empty.one .deaths
  | hit damage region =>
      have counted : ((zero.add .hits 1).add .damage damage).Rises :=
        (empty.one .hits).add (.inr (.inl rfl))
      cases region with
      | none => exact counted
      | some place => exact counted.one (.body place)
  | kill headshot teamkill =>
      have counted := empty.one .kills
      cases headshot with
      | false =>
          cases teamkill with
          | false => exact counted
          | true => exact counted.one .teamkills
      | true =>
          cases teamkill with
          | false => exact counted.one .headshots
          | true => exact (counted.one .headshots).one .teamkills
  | award _ points ih => exact ih.award points

end StatBlock

namespace Match

theorem ScopeTally.ext_block {left right : ScopeTally}
    (agree : ∀ row, left.block row = right.block row) : left = right := by
  cases left with
  | mk leftTotal leftRows =>
    cases right with
    | mk rightTotal rightRows =>
      congr 1
      · exact agree none
      · exact Cells.ext_get fun index => agree (some { index := index })

theorem PlayerTally.ext_parts {left right : PlayerTally}
    (scopes : ∀ scope, left.scope scope = right.scope scope)
    (dealt : ∀ victim, left.dealt victim = right.dealt victim)
    (suffered : ∀ attacker, left.suffered attacker = right.suffered attacker)
    (rest : left.restart true = right.restart true) : left = right := by
  have attackers : left.attackers = right.attackers :=
    Cells.ext_get fun index => suffered { index := index }
  have victims : left.victims = right.victims :=
    Cells.ext_get fun index => dealt { index := index }
  cases left
  cases right
  simp only [restart, if_true, mk.injEq, true_and] at rest
  rw [mk.injEq]
  exact ⟨scopes .life, scopes .round, scopes .session, attackers, victims, rest⟩

namespace Tally

/-- A shot, a hit, a kill or an award. -/
def Call.isRecording : Call → Bool
  | .recordShot _ _ | .recordHit _ _ _ _ _ | .recordKill _ _ _ _ _ => true
  | .awardObjective _ _ => true
  | _ => false

section Rest

variable (tally : Tally) (slot : Slot)

theorem restart_change {changed : Slot} {change : PlayerTally → PlayerTally}
    (kept : ∀ player, (change player).restart true = player.restart true) :
    ((tally.change changed change).player slot).restart true =
      (tally.player slot).restart true :=
  tally.part_change_of_kept (·.restart true) slot (kept _)

theorem restart_recordDeath (victim : Slot) :
    ((tally.recordDeath victim).player slot).restart true =
      (tally.player slot).restart true :=
  tally.restart_change slot fun _ => rfl

theorem restart_exchange (attacker victim : Slot) (weapon : Weapon)
    (credit : StatBlock → StatBlock) (deal suffer : Duel → Duel) :
    ((tally.exchange attacker victim weapon credit deal suffer).player
        slot).restart true = (tally.player slot).restart true := by
  refine (restart_change _ slot ?_).trans (tally.restart_change slot ?_)
  · exact fun _ => rfl
  · exact fun _ => rfl

/-- What recordings leave alone is a player without scopes and duels. -/
theorem restart_perform {call : Call} (recording : call.isRecording = true) :
    ((tally.perform call).player slot).restart true =
      (tally.player slot).restart true := by
  cases call with
  | recordShot shooter weapon =>
      exact tally.restart_change slot fun _ => rfl
  | recordHit attacker victim weapon damage region =>
      rw [perform, recordHit, ← exchange, restart_exchange]
  | recordKill attacker victim weapon headshot teamkill =>
      rw [perform, recordKill]
      split
      · exact tally.restart_recordDeath slot victim
      · dsimp only
        rw [restart_recordDeath, ← exchange, restart_exchange]
  | awardObjective awarded points =>
      exact tally.restart_change slot fun _ => rfl
  | _ => contradiction

end Rest

theorem name_perform (tally : Tally) {call : Call}
    (recording : call.isRecording = true) (slot : Slot) :
    ((tally.perform call).player slot).name = (tally.player slot).name := by
  have same := congrArg PlayerTally.name (tally.restart_perform slot recording)
  exact same

theorem points_perform (tally : Tally) {call : Call}
    (recording : call.isRecording = true) :
    (tally.perform call).points = tally.points := by
  cases call with
  | recordKill attacker victim weapon headshot teamkill =>
      rw [perform, recordKill]
      split
      · rfl
      · rfl
  | recordShot shooter weapon => rfl
  | recordHit attacker victim weapon damage region => rfl
  | awardObjective awarded points => rfl
  | _ => contradiction

theorem clears_of_recording {call : Call} (recording : call.isRecording = true)
    (slot : Slot) (scope : Scope) : call.clears slot scope = false := by
  cases call with
  | recordShot shooter weapon => rfl
  | recordHit attacker victim weapon damage region => rfl
  | recordKill attacker victim weapon headshot teamkill => rfl
  | awardObjective awarded points => rfl
  | _ => contradiction

theorem hit_of_isHitOf {attacker victim : Slot} {call : Call}
    (hit : call.isHitOf attacker victim = true) :
    ∃ weapon damage region,
      call = .recordHit attacker victim weapon damage region := by
  cases call with
  | recordHit hitter struck weapon damage region =>
      obtain ⟨rfl, rfl⟩ := of_decide_eq_true hit
      exact ⟨weapon, damage, region, rfl⟩
  | _ => contradiction

/-- A hit gives both entries of its duel the names of the moment. -/
theorem names_perform (tally : Tally) {call : Call}
    (recording : call.isRecording = true) (attacker victim : Slot) :
    (((tally.perform call).player attacker).dealt victim).name =
      (if call.isHitOf attacker victim then (tally.player victim).name
        else ((tally.player attacker).dealt victim).name) ∧
    (((tally.perform call).player victim).suffered attacker).name =
      (if call.isHitOf attacker victim then (tally.player attacker).name
        else ((tally.player victim).suffered attacker).name) := by
  cases hit : call.isHitOf attacker victim with
  | true =>
      obtain ⟨weapon, damage, region, rfl⟩ := hit_of_isHitOf hit
      exact tally.names_hit attacker victim weapon damage region
  | false =>
      exact tally.names_perform_of_unhit hit
        ⟨clears_of_recording recording _ _, clears_of_recording recording _ _⟩

/-- Where a tally keeps a block. -/
inductive Place where
  /-- The row of a weapon, or the total. -/
  | scope (slot : Slot) (scope : Scope) (row : Option Weapon)
  | dealt (attacker victim : Slot)
  | suffered (victim attacker : Slot)

def block (tally : Tally) : Place → StatBlock
  | .scope slot scope row => ((tally.player slot).scope scope).block row
  | .dealt attacker victim => ((tally.player attacker).dealt victim).stats
  | .suffered victim attacker => ((tally.player victim).suffered attacker).stats

/-- What a call adds to the block at a place. -/
def part? (tally : Tally) (place : Place) (call : Call) : Option StatBlock :=
  match place with
  | .scope slot _ row =>
    ((tally.recording? slot call).filter fun recording =>
      row.all (· = recording.weapon)).map Recording.counts
  | .dealt attacker victim =>
    (tally.strike? attacker victim call).map Strike.dealt
  | .suffered victim attacker =>
    (tally.strike? attacker victim call).map Strike.suffered

/-- A call adds to the total and to the row of its weapon. -/
theorem part?_scope_eq_some_iff {tally : Tally} {slot : Slot} {scope : Scope}
    {row : Option Weapon} {call : Call} {part : StatBlock} :
    tally.part? (.scope slot scope row) call = some part ↔
      ∃ recording, tally.recording? slot call = some recording ∧
        row ∈ [none, some recording.weapon] ∧ recording.counts = part := by
  have listed (weapon : Weapon) :
      row.all (· = weapon) = true ↔ row ∈ [none, some weapon] := by
    cases row <;> simp
  simp only [part?, Option.map_eq_some_iff, Option.filter_eq_some_iff, listed,
    and_assoc]

theorem isPart_of_recording? {tally : Tally} {slot : Slot} {call : Call}
    {recording : Recording}
    (noted : tally.recording? slot call = some recording) :
    recording.counts.IsPart := by
  cases call with
  | recordShot shooter weapon =>
      rw [recording?, Option.ite_none_right_eq_some] at noted
      obtain rfl := Option.some.inj noted.2
      exact .shot
  | recordHit attacker victim weapon damage region =>
      rw [recording?, Option.ite_none_right_eq_some] at noted
      obtain rfl := Option.some.inj noted.2
      exact .award (.hit damage region) _
  | recordKill attacker victim weapon headshot teamkill =>
      rw [recording?] at noted
      split at noted
      · obtain rfl := Option.some.inj noted
        exact .death
      · rw [Option.ite_none_right_eq_some] at noted
        obtain rfl := Option.some.inj noted.2
        exact .award (.kill headshot teamkill) _
  | awardObjective awarded points =>
      rw [recording?, Option.ite_none_right_eq_some] at noted
      obtain rfl := Option.some.inj noted.2
      exact .award .nothing points
  | _ => contradiction

theorem isPart_of_strike? {tally : Tally} {attacker victim : Slot}
    {call : Call} {strike : Strike}
    (struck : tally.strike? attacker victim call = some strike) :
    strike.dealt.IsPart ∧ strike.suffered.IsPart := by
  rcases strike?_cases struck with
    ⟨weapon, damage, region, _, rfl⟩ |
    ⟨_, weapon, headshot, teamkill, _, rfl⟩
  · exact ⟨.award (.hit damage region) _, .hit damage region⟩
  · exact ⟨.award (.kill headshot teamkill) _, .kill headshot teamkill⟩

theorem isPart_of_part? {tally : Tally} {place : Place} {call : Call}
    {part : StatBlock} (added : tally.part? place call = some part) :
    part.IsPart := by
  cases place with
  | scope slot scope row =>
      obtain ⟨recording, noted, rfl⟩ := Option.map_eq_some_iff.mp added
      exact isPart_of_recording? (Option.filter_eq_some_iff.mp noted).1
  | dealt attacker victim =>
      obtain ⟨strike, struck, rfl⟩ := Option.map_eq_some_iff.mp added
      exact (isPart_of_strike? struck).1
  | suffered victim attacker =>
      obtain ⟨strike, struck, rfl⟩ := Option.map_eq_some_iff.mp added
      exact (isPart_of_strike? struck).2

/-- A duel lasts as long as the session of the player who keeps the entry. -/
def Call.clearsAt : Place → Call → Bool
  | .scope slot scope _, call => call.clears slot scope
  | .dealt attacker _, call => call.clears attacker .session
  | .suffered victim _, call => call.clears victim .session

/-- What a call does to the block at a place. -/
theorem block_perform (tally : Tally) (call : Call) (place : Place) :
    (tally.perform call).block place =
      if call.clearsAt place then StatBlock.zero
      else (tally.block place).mergeAll (tally.part? place call).toList := by
  cases place with
  | scope slot scope row =>
      rw [block, scope_perform, Call.clearsAt]
      split
      · exact ScopeTally.block_empty row
      · rw [part?]
        cases tally.recording? slot call with
        | none => rfl
        | some noted =>
            rw [ScopeTally.noteAny, ScopeTally.block_note, Option.filter_some]
            split
            · rfl
            · rfl
  | dealt attacker victim =>
      rw [block, dealt_perform, Call.clearsAt]
      split
      · rfl
      · rw [part?]
        cases tally.strike? attacker victim call with
        | none => rfl
        | some strike => rfl
  | suffered victim attacker =>
      rw [block, suffered_perform, Call.clearsAt]
      split
      · rfl
      · rw [part?]
        cases tally.strike? attacker victim call with
        | none => rfl
        | some strike => rfl

theorem block_record (tally : Tally) {call : Call}
    (recording : call.isRecording = true) (place : Place) :
    (tally.perform call).block place =
      (tally.block place).mergeAll (tally.part? place call).toList := by
  have kept : call.clearsAt place = false := by
    cases place with
    | scope slot scope row => exact clears_of_recording recording slot scope
    | dealt attacker victim =>
        exact clears_of_recording recording attacker .session
    | suffered victim attacker =>
        exact clears_of_recording recording victim .session
  rw [block_perform, kept, if_neg Bool.false_ne_true]

theorem recording?_congr {left right : Tally}
    (points : left.points = right.points) {slot : Slot}
    (held : (left.player slot).held = (right.player slot).held)
    (call : Call) : left.recording? slot call = right.recording? slot call := by
  cases call <;> simp only [recording?, points, held]

theorem strike?_congr {left right : Tally} (points : left.points = right.points)
    (attacker victim : Slot) (call : Call) :
    left.strike? attacker victim call = right.strike? attacker victim call := by
  cases call <;> simp only [strike?, hitStrike, killStrike, points]

/-- What a call adds does not depend on recordings before it. -/
theorem part?_perform (tally : Tally) {call : Call}
    (recording : call.isRecording = true) (place : Place) :
    (tally.perform call).part? place = tally.part? place := by
  have points := tally.points_perform recording
  funext later
  cases place with
  | scope slot scope row =>
      have held : ((tally.perform call).player slot).held =
          (tally.player slot).held := by
        have rest := tally.restart_perform slot recording
        have same := congrArg PlayerTally.held rest
        exact same
      rw [part?, part?, recording?_congr points held]
  | dealt attacker victim =>
      rw [part?, part?, strike?_congr points]
  | suffered victim attacker =>
      rw [part?, part?, strike?_congr points]

/-- A tally is told by its blocks, the names in its duels, its points and what
else its players have. -/
theorem ext_blocks {left right : Tally}
    (blocks : ∀ place, left.block place = right.block place)
    (dealt : ∀ attacker victim,
      ((left.player attacker).dealt victim).name =
        ((right.player attacker).dealt victim).name)
    (suffered : ∀ attacker victim,
      ((left.player victim).suffered attacker).name =
        ((right.player victim).suffered attacker).name)
    (rest : ∀ slot, (left.player slot).restart true =
      (right.player slot).restart true)
    (points : left.points = right.points) : left = right := by
  have players (slot : Slot) : left.player slot = right.player slot := by
    apply PlayerTally.ext_parts
    · intro scope
      exact ScopeTally.ext_block fun row => blocks (.scope slot scope row)
    · intro victim
      have stats := blocks (.dealt slot victim)
      have name := dealt slot victim
      exact congrArg₂ Duel.mk stats name
    · intro attacker
      have stats := blocks (.suffered slot attacker)
      have name := suffered attacker slot
      exact congrArg₂ Duel.mk stats name
    · exact rest slot
  have rosters : left.players = right.players :=
    Cells.ext_get fun index => players { index := index }
  exact congrArg₂ Tally.mk rosters points

end Tally

end Match

end Fragboard
