import Fragboard.Proofs.Match.TallyCalls

/-!
# Duels and what a call changes in them

A player keeps two entries for every opponent: what it dealt to the opponent and
what it suffered from the opponent.  Both belong to the session, so whatever
clears the session clears them.

`Tally.dealt_perform` and `Tally.suffered_perform` say what a call does to one
entry of one player: it clears it, adds a strike, or leaves it alone.  The
strike is the same for both sides but for the points, which only the attacker
gets.
-/

namespace Fragboard

/-- The counters that hits and kills add to, points apart. -/
def Counter.ofDuels : List Counter :=
  [.kills, .headshots, .teamkills, .hits, .damage] ++
    BodyRegion.all.map Counter.body

theorem Counter.mem_ofDuels_iff (counter : Counter) :
    counter ∈ ofDuels ↔
      counter ≠ .shots ∧ counter ≠ .deaths ∧ counter ≠ .points := by
  cases counter with
  | body region => cases region <;> decide
  | _ => decide

namespace Match

/-- What a hit or a kill adds to the entries of the two players. -/
structure Strike where
  /-- For the attacker, points included. -/
  dealt : StatBlock
  /-- For the victim. -/
  suffered : StatBlock
  /-- Each side notes the name of the other. -/
  isHit : Bool

namespace Duel

def deal (duel : Duel) (strike : Strike) (victimName : String) : Duel :=
  { stats := duel.stats.merge strike.dealt
    name := if strike.isHit then victimName else duel.name }

def dealAny (duel : Duel) (victimName : String) : Option Strike → Duel
  | none => duel
  | some strike => duel.deal strike victimName

def suffer (duel : Duel) (strike : Strike) (attackerName : String) : Duel :=
  { stats := duel.stats.merge strike.suffered
    name := if strike.isHit then attackerName else duel.name }

def sufferAny (duel : Duel) (attackerName : String) : Option Strike → Duel
  | none => duel
  | some strike => duel.suffer strike attackerName

end Duel

namespace PlayerTally

def dealt (player : PlayerTally) (victim : Slot) : Duel :=
  player.victims.get victim.index

def suffered (player : PlayerTally) (attacker : Slot) : Duel :=
  player.attackers.get attacker.index

theorem dealt_changeVictim (player : PlayerTally) (changed victim : Slot)
    (change : Duel → Duel) :
    (player.changeVictim changed change).dealt victim =
      if changed = victim then change (player.dealt victim)
      else player.dealt victim := by
  simp only [dealt, changeVictim, Cells.get_alter, Slot.index_inj]

theorem suffered_changeAttacker (player : PlayerTally)
    (changed attacker : Slot) (change : Duel → Duel) :
    (player.changeAttacker changed change).suffered attacker =
      if changed = attacker then change (player.suffered attacker)
      else player.suffered attacker := by
  simp only [suffered, changeAttacker, Cells.get_alter, Slot.index_inj]

theorem dealt_restart (player : PlayerTally) (full : Bool) (victim : Slot) :
    (player.restart full).dealt victim =
      if full then {} else player.dealt victim := by
  cases full with
  | false => rfl
  | true => exact Cells.get_fill _ _

theorem suffered_restart (player : PlayerTally) (full : Bool)
    (attacker : Slot) :
    (player.restart full).suffered attacker =
      if full then {} else player.suffered attacker := by
  cases full with
  | false => rfl
  | true => exact Cells.get_fill _ _

end PlayerTally

namespace Tally

def hitStrike (tally : Tally) (weapon : Weapon) (damage : Int32)
    (region : Option BodyRegion) : Strike :=
  let counts := StatBlock.zero.recordHit damage region
  { dealt := counts.award (tally.points.hitPoints weapon)
    suffered := counts
    isHit := true }

def killStrike (tally : Tally) (weapon : Weapon) (headshot teamkill : Bool) :
    Strike :=
  let counts := StatBlock.zero.recordKill headshot teamkill
  { dealt := counts.award (tally.points.killPoints weapon teamkill)
    suffered := counts
    isHit := false }

/-- What a call adds to the duel of an attacker with a victim.  Nobody is struck
by killing oneself. -/
def strike? (tally : Tally) (attacker victim : Slot) : Call → Option Strike
  | .recordHit hitter struck weapon damage region =>
    if hitter = attacker ∧ struck = victim then
      some (tally.hitStrike weapon damage region)
    else none
  | .recordKill killer killed weapon headshot teamkill =>
    if killer = attacker ∧ killed = victim ∧ killer ≠ killed then
      some (tally.killStrike weapon headshot teamkill)
    else none
  | _ => none

theorem strike?_cases {tally : Tally} {attacker victim : Slot} {call : Call}
    {strike : Strike}
    (struck : tally.strike? attacker victim call = some strike) :
    (∃ weapon damage region,
      call = .recordHit attacker victim weapon damage region ∧
      strike = tally.hitStrike weapon damage region) ∨
    (attacker ≠ victim ∧ ∃ weapon headshot teamkill,
      call = .recordKill attacker victim weapon headshot teamkill ∧
      strike = tally.killStrike weapon headshot teamkill) := by
  cases call with
  | recordHit hitter struckSlot weapon damage region =>
      rw [strike?, Option.ite_none_right_eq_some] at struck
      obtain ⟨⟨rfl, rfl⟩, same⟩ := struck
      exact .inl ⟨weapon, damage, region, rfl, (Option.some.inj same).symm⟩
  | recordKill killer killed weapon headshot teamkill =>
      rw [strike?, Option.ite_none_right_eq_some] at struck
      obtain ⟨⟨rfl, rfl, apart⟩, same⟩ := struck
      exact .inr ⟨apart, weapon, headshot, teamkill, rfl,
        (Option.some.inj same).symm⟩
  | _ => contradiction

/-- The common form of hits and kills: the attacker is credited, and both sides
change their entries for each other. -/
def exchange (tally : Tally) (attacker victim : Slot) (weapon : Weapon)
    (credit : StatBlock → StatBlock) (deal suffer : Duel → Duel) : Tally :=
  (tally.change attacker fun player =>
    (player.record weapon credit).changeVictim victim deal).change victim
    fun player => player.changeAttacker attacker suffer

section Exchanges

variable (tally : Tally) {attacker victim : Slot} {weapon : Weapon}
  {credit : StatBlock → StatBlock} {deal suffer : Duel → Duel}
  (slot opponent : Slot)

theorem dealt_exchange :
    ((tally.exchange attacker victim weapon credit deal suffer).player
        slot).dealt opponent =
      if attacker = slot ∧ victim = opponent then
        deal ((tally.player slot).dealt opponent)
      else (tally.player slot).dealt opponent := by
  rw [exchange, part_change_of_kept (PlayerTally.dealt · opponent) _ _ rfl,
    player_change]
  by_cases mine : attacker = slot
  · simp only [mine, true_and, if_true, PlayerTally.dealt_changeVictim]
    rfl
  · simp only [mine, false_and, if_false]

theorem suffered_exchange :
    ((tally.exchange attacker victim weapon credit deal suffer).player
        slot).suffered opponent =
      if attacker = opponent ∧ victim = slot then
        suffer ((tally.player slot).suffered opponent)
      else (tally.player slot).suffered opponent := by
  have credited : ((tally.change attacker fun player =>
      (player.record weapon credit).changeVictim victim deal).player
        slot).suffered opponent = (tally.player slot).suffered opponent :=
    tally.part_change_of_kept (PlayerTally.suffered · opponent) slot rfl
  rw [exchange, player_change]
  by_cases mine : victim = slot
  · subst mine
    simp only [and_true, if_true, PlayerTally.suffered_changeAttacker,
      credited]
  · simp only [mine, and_false, if_false]
    exact credited

end Exchanges

section Strikes

variable (tally : Tally) (slot opponent attacker victim : Slot)
  (weapon : Weapon)

theorem dealt_recordHit (damage : Int32) (region : Option BodyRegion) :
    ((tally.recordHit attacker victim weapon damage region).player
        slot).dealt opponent =
      ((tally.player slot).dealt opponent).dealAny (tally.player opponent).name
        (tally.strike? slot opponent
          (.recordHit attacker victim weapon damage region)) := by
  have merged := StatBlock.isMerge_hit damage region
    (tally.points.hitPoints weapon)
  rw [recordHit, ← exchange, dealt_exchange, strike?]
  split
  · next struck =>
    rw [struck.2]
    exact congrArg (Duel.mk · _) (merged _)
  · rfl

theorem suffered_recordHit (damage : Int32) (region : Option BodyRegion) :
    ((tally.recordHit attacker victim weapon damage region).player
        slot).suffered opponent =
      ((tally.player slot).suffered opponent).sufferAny
        (tally.player opponent).name
        (tally.strike? opponent slot
          (.recordHit attacker victim weapon damage region)) := by
  have merged := StatBlock.isMerge_recordHit damage region
  rw [recordHit, ← exchange, suffered_exchange, strike?]
  split
  · next struck =>
    rw [struck.1]
    exact congrArg (Duel.mk · _) (merged _)
  · rfl

theorem dealt_recordDeath (dead : Slot) :
    ((tally.recordDeath dead).player slot).dealt opponent =
      (tally.player slot).dealt opponent :=
  part_change_of_kept (PlayerTally.dealt · opponent) _ _ rfl

theorem suffered_recordDeath (dead : Slot) :
    ((tally.recordDeath dead).player slot).suffered opponent =
      (tally.player slot).suffered opponent :=
  part_change_of_kept (PlayerTally.suffered · opponent) _ _ rfl

theorem dealt_recordKill (headshot teamkill : Bool) :
    ((tally.recordKill attacker victim weapon headshot teamkill).player
        slot).dealt opponent =
      ((tally.player slot).dealt opponent).dealAny (tally.player opponent).name
        (tally.strike? slot opponent
          (.recordKill attacker victim weapon headshot teamkill)) := by
  have merged := StatBlock.isMerge_kill headshot teamkill
    (tally.points.killPoints weapon teamkill)
  rw [recordKill, strike?]
  split
  · next alone =>
    rw [dealt_recordDeath, if_neg fun struck => struck.2.2 alone]
    rfl
  · next apart =>
    dsimp only
    rw [dealt_recordDeath, ← exchange, dealt_exchange]
    simp only [ne_eq, apart, not_false_eq_true, and_true]
    split
    · exact congrArg (Duel.mk · _) (merged _)
    · rfl

theorem suffered_recordKill (headshot teamkill : Bool) :
    ((tally.recordKill attacker victim weapon headshot teamkill).player
        slot).suffered opponent =
      ((tally.player slot).suffered opponent).sufferAny
        (tally.player opponent).name
        (tally.strike? opponent slot
          (.recordKill attacker victim weapon headshot teamkill)) := by
  have merged := StatBlock.isMerge_recordKill headshot teamkill
  rw [recordKill, strike?]
  split
  · next alone =>
    rw [suffered_recordDeath, if_neg fun struck => struck.2.2 alone]
    rfl
  · next apart =>
    dsimp only
    rw [suffered_recordDeath, ← exchange, suffered_exchange]
    simp only [ne_eq, apart, not_false_eq_true, and_true]
    split
    · exact congrArg (Duel.mk · _) (merged _)
    · rfl

end Strikes

/-- A call after which all duels are what they were. -/
def Call.isPeaceful : Call → Bool
  | .recordHit _ _ _ _ _ | .recordKill _ _ _ _ _ => false
  | .resetPlayer _ _ | .restart _ _ => false
  | _ => true

section Peace

variable {call : Call} (peaceful : call.isPeaceful = true)

include peaceful

theorem clears_of_peaceful (slot : Slot) :
    call.clears slot .session = false := by
  cases call with
  | clearRound cleared => simp [Call.clears]
  | resetPlayer wiped name => contradiction
  | restart restarted full => contradiction
  | _ => rfl

theorem strike?_of_peaceful (tally : Tally) (attacker victim : Slot) :
    tally.strike? attacker victim call = none := by
  cases call with
  | recordHit hitter struck weapon damage region => contradiction
  | recordKill killer killed weapon headshot teamkill => contradiction
  | _ => rfl

/-- A part of a player to which only hits, kills and full clears come. -/
theorem part_perform_of_peaceful {α : Type} (part : PlayerTally → α)
    (ofTables : ∀ player other : PlayerTally,
      player.victims = other.victims → player.attackers = other.attackers →
      part player = part other)
    (tally : Tally) (slot : Slot) :
    part ((tally.perform call).player slot) = part (tally.player slot) := by
  cases call with
  | recordHit hitter struck weapon damage region => contradiction
  | recordKill killer killed weapon headshot teamkill => contradiction
  | resetPlayer wiped name => contradiction
  | restart restarted full => contradiction
  | _ => exact part_change_of_kept part _ _ (ofTables _ _ rfl rfl)

end Peace

/-- What a call does to what a player dealt to another. -/
theorem dealt_perform (tally : Tally) (call : Call)
    (attacker victim : Slot) :
    ((tally.perform call).player attacker).dealt victim =
      if call.clears attacker .session then {}
      else ((tally.player attacker).dealt victim).dealAny
        (tally.player victim).name (tally.strike? attacker victim call) := by
  cases peace : call.isPeaceful with
  | true =>
      rw [clears_of_peaceful peace, strike?_of_peaceful peace]
      apply part_perform_of_peaceful peace (PlayerTally.dealt · victim)
      intro player other victims attackers
      rw [PlayerTally.dealt, victims, PlayerTally.dealt]
  | false =>
      cases call with
      | recordHit hitter struck weapon damage region =>
          exact tally.dealt_recordHit attacker victim hitter struck weapon
            damage region
      | recordKill killer killed weapon headshot teamkill =>
          exact tally.dealt_recordKill attacker victim killer killed weapon
            headshot teamkill
      | resetPlayer wiped name =>
          simp only [perform, resetPlayer, player_change, Call.clears,
            decide_eq_true_eq]
          split
          · exact Cells.get_fill _ _
          · rfl
      | restart restarted full =>
          simp only [perform, restart, player_change, Call.clears]
          by_cases here : restarted = attacker
          · simp only [here, true_and, reduceCtorEq, or_false, if_true,
              Bool.decide_eq_true]
            exact PlayerTally.dealt_restart _ full victim
          · simp only [here, false_and, decide_false, if_false]
            rfl
      | _ => contradiction

/-- What a call does to what a player suffered from another. -/
theorem suffered_perform (tally : Tally) (call : Call)
    (attacker victim : Slot) :
    ((tally.perform call).player victim).suffered attacker =
      if call.clears victim .session then {}
      else ((tally.player victim).suffered attacker).sufferAny
        (tally.player attacker).name (tally.strike? attacker victim call) := by
  cases peace : call.isPeaceful with
  | true =>
      rw [clears_of_peaceful peace, strike?_of_peaceful peace]
      apply part_perform_of_peaceful peace (PlayerTally.suffered · attacker)
      intro player other victims attackers
      rw [PlayerTally.suffered, attackers, PlayerTally.suffered]
  | false =>
      cases call with
      | recordHit hitter struck weapon damage region =>
          exact tally.suffered_recordHit victim attacker hitter struck weapon
            damage region
      | recordKill killer killed weapon headshot teamkill =>
          exact tally.suffered_recordKill victim attacker killer killed weapon
            headshot teamkill
      | resetPlayer wiped name =>
          simp only [perform, resetPlayer, player_change, Call.clears,
            decide_eq_true_eq]
          split
          · exact Cells.get_fill _ _
          · rfl
      | restart restarted full =>
          simp only [perform, restart, player_change, Call.clears]
          by_cases here : restarted = victim
          · simp only [here, true_and, reduceCtorEq, or_false, if_true,
              Bool.decide_eq_true]
            exact PlayerTally.suffered_restart _ full attacker
          · simp only [here, false_and, decide_false, if_false]
            rfl
      | _ => contradiction

end Tally

end Match

end Fragboard
