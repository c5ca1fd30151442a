import Fragboard.Match.ScriptedWorld
import Fragboard.Proofs.Match.DuelEntries
import Fragboard.Proofs.Match.SessionTally

/-!
# Counters during a pause

Nothing counts while a match is paused.  Clears go on, so a counter keeps its
value or falls to zero.  The weapons in hand and the clips stay as they are until
another player takes the slot (`Session.counters_while_paused`).
-/

namespace Fragboard.Match

namespace PlayerTally

/-- Every scope and every duel is what it was or has been cleared. -/
structure KeptOrCleared (before after : PlayerTally) : Prop where
  scope : ∀ scope,
    after.scope scope = before.scope scope ∨ after.scope scope = {}
  dealt : ∀ victim,
    after.dealt victim = before.dealt victim ∨ after.dealt victim = {}
  suffered : ∀ attacker,
    after.suffered attacker = before.suffered attacker ∨
    after.suffered attacker = {}

theorem KeptOrCleared.refl (player : PlayerTally) :
    player.KeptOrCleared player :=
  ⟨fun _ => .inl rfl, fun _ => .inl rfl, fun _ => .inl rfl⟩

theorem KeptOrCleared.trans {first second third : PlayerTally}
    (earlier : first.KeptOrCleared second)
    (later : second.KeptOrCleared third) : first.KeptOrCleared third := by
  have chain {α : Type} {one two three empty : α}
      (before : two = one ∨ two = empty) (after : three = two ∨ three = empty) :
      three = one ∨ three = empty := by
    rcases after with rfl | cleared
    · exact before
    · exact .inr cleared
  exact
    ⟨fun scope => chain (earlier.scope scope) (later.scope scope),
      fun victim => chain (earlier.dealt victim) (later.dealt victim),
      fun attacker =>
        chain (earlier.suffered attacker) (later.suffered attacker)⟩

end PlayerTally

namespace Tally

/-- A call that counts nothing and handles no weapon but by wiping a slot. -/
def Call.isIdle : Call → Bool
  | .resetPlayer _ _ => true
  | call => call.isClerical

section Idle

variable {call : Call} (idle : call.isIdle = true)

include idle

theorem recording?_of_idle (tally : Tally) (slot : Slot) :
    tally.recording? slot call = none := by
  cases call with
  | recordShot shooter weapon => contradiction
  | recordHit attacker victim weapon damage region => contradiction
  | recordKill attacker victim weapon headshot teamkill => contradiction
  | awardObjective awarded points => contradiction
  | _ => rfl

theorem strike?_of_idle (tally : Tally) (attacker victim : Slot) :
    tally.strike? attacker victim call = none := by
  cases call with
  | recordHit hitter struck weapon damage region => contradiction
  | recordKill killer killed weapon headshot teamkill => contradiction
  | _ => rfl

theorem kept_perform (tally : Tally) (slot : Slot) :
    (tally.player slot).KeptOrCleared
      ((tally.perform call).player slot) where
  scope := by
    intro scope
    rw [scope_perform, recording?_of_idle idle]
    split
    · exact .inr rfl
    · exact .inl rfl
  dealt := by
    intro victim
    rw [dealt_perform, strike?_of_idle idle]
    split
    · exact .inr rfl
    · exact .inl rfl
  suffered := by
    intro attacker
    rw [suffered_perform, strike?_of_idle idle]
    split
    · exact .inr rfl
    · exact .inl rfl

end Idle

theorem kept_run (tally : Tally) {calls : List Call}
    (idle : ∀ call ∈ calls, call.isIdle = true) (slot : Slot) :
    (tally.player slot).KeptOrCleared ((tally.run calls).player slot) := by
  induction calls generalizing tally with
  | nil => exact .refl _
  | cons call rest ih =>
      obtain ⟨first, later⟩ := List.forall_mem_cons.mp idle
      exact (kept_perform first tally slot).trans (ih _ later)

end Tally

namespace Session

variable {World : Type} [GameWorld World]

def Call.setsPause : Call World → Bool
  | .setPaused _ => true
  | _ => false

section Paused

variable {session : Session World} (paused : session.config.paused = true)

include paused

theorem paused_perform {call : Call World} (stays : call.setsPause = false) :
    (session.perform call).config.paused = true := by
  have same : (session.perform call).config = session.config := by
    apply session.config_perform
    rintro _ rfl
    contradiction
  rw [same]
  exact paused

/-- During a pause a session asks nothing of its tally that counts. -/
theorem asked_while_paused {call : Call World} {asked : Tally.Call}
    (member : asked ∈ session.tallyCalls call) :
    asked.isClerical = true ∨ ∃ slot name unique,
      call = .connect slot name unique ∧ asked = .resetPlayer slot name := by
  rcases asked_cases member with clerical | wipes | ⟨unpaused, _⟩
  · exact .inl clerical
  · exact .inr wipes
  · rw [paused] at unpaused
    contradiction

theorem kept_while_paused (call : Call World) (slot : Slot) :
    (session.tally.player slot).KeptOrCleared
      ((session.perform call).tally.player slot) := by
  rw [tally_perform]
  refine session.tally.kept_run ?_ slot
  intro asked member
  rcases asked_while_paused paused member with
    clerical | ⟨_, _, _, _, rfl⟩
  · cases asked with
    | resetPlayer wiped name => rfl
    | _ => exact clerical
  · rfl

/-- Weapons in hand and clips change only as the slot is taken by another
player, who starts with none. -/
theorem arms_while_paused (call : Call World) (slot : Slot) :
    ((session.perform call).tally.player slot).arms =
      (session.tally.player slot).arms ∨
    (∃ name unique, call = .connect slot name unique) ∧
    ((session.perform call).tally.player slot).arms =
      ({} : PlayerTally).arms := by
  by_cases wipes : ∃ name unique, call = .connect slot name unique
  · obtain ⟨name, unique, rfl⟩ := wipes
    refine .inr ⟨⟨name, unique, rfl⟩, ?_⟩
    have wiped : (session.perform (.connect slot name unique)).tally.player
        slot = { name := name } :=
      session.tally.player_change_self slot _
    rw [wiped]
    rfl
  · left
    rw [tally_perform]
    refine session.tally.arms_run ?_
    intro asked member
    rcases asked_while_paused paused member with
      clerical | ⟨wiped, name, unique, rfl, rfl⟩
    · cases asked with
      | resetPlayer wiped name => contradiction
      | setHeld holder weapon => contradiction
      | swapClip holder weapon clip => contradiction
      | _ => rfl
    · apply decide_eq_false
      rintro rfl
      exact wipes ⟨name, unique, rfl⟩

end Paused

theorem kept_run_while_paused {session : Session World}
    (paused : session.config.paused = true) {calls : List (Call World)}
    (stays : ∀ call ∈ calls, call.setsPause = false) (slot : Slot) :
    (session.tally.player slot).KeptOrCleared
      ((session.run calls).tally.player slot) := by
  induction calls generalizing session with
  | nil => exact .refl _
  | cons call rest ih =>
      obtain ⟨first, later⟩ := List.forall_mem_cons.mp stays
      exact (kept_while_paused paused call slot).trans
        (ih (paused_perform paused first) later)

theorem arms_run_while_paused {session : Session World}
    (paused : session.config.paused = true) {calls : List (Call World)}
    (stays : ∀ call ∈ calls, call.setsPause = false) (slot : Slot) :
    ((session.run calls).tally.player slot).arms =
      (session.tally.player slot).arms ∨
    (∃ name unique, .connect slot name unique ∈ calls) ∧
    ((session.run calls).tally.player slot).arms =
      ({} : PlayerTally).arms := by
  induction calls generalizing session with
  | nil => exact .inl rfl
  | cons call rest ih =>
      obtain ⟨first, later⟩ := List.forall_mem_cons.mp stays
      rcases ih (paused_perform paused first) later with
        kept | ⟨⟨name, unique, member⟩, wiped⟩
      · rcases arms_while_paused paused call slot with
          same | ⟨⟨name, unique, rfl⟩, wiped⟩
        · exact .inl (kept.trans same)
        · exact .inr ⟨⟨name, unique, List.mem_cons_self⟩, kept.trans wiped⟩
      · exact .inr ⟨⟨name, unique, List.mem_cons_of_mem _ member⟩, wiped⟩

/-- While a match is paused and stays so, any calls leave every counter of every
player where it was or at zero: in the totals and the weapon rows of all scopes,
and in the duels.  The weapon in hand and the clips are the same unless another
player has connected on the slot, who starts without any. -/
theorem counters_while_paused {session : Session World}
    (paused : session.config.paused = true) {calls : List (Call World)}
    (stays : ∀ call ∈ calls, call.setsPause = false) (slot : Slot) :
    let before := session.tally.player slot
    let after := (session.run calls).tally.player slot
    (∀ scope row counter,
      ((after.scope scope).block row).get counter =
        ((before.scope scope).block row).get counter ∨
      ((after.scope scope).block row).get counter = 0) ∧
    (∀ opponent counter,
      ((after.dealt opponent).stats.get counter =
        (before.dealt opponent).stats.get counter ∨
      (after.dealt opponent).stats.get counter = 0) ∧
      ((after.suffered opponent).stats.get counter =
        (before.suffered opponent).stats.get counter ∨
      (after.suffered opponent).stats.get counter = 0)) ∧
    (after.held = before.held ∧ after.clips = before.clips ∨
      (∃ name unique, .connect slot name unique ∈ calls) ∧
      after.held = Weapon.unarmed ∧ after.clips = Cells.fill none) := by
  intro before after
  have kept : before.KeptOrCleared after :=
    kept_run_while_paused paused stays slot
  have blank (counter : Counter) : ({} : Duel).stats.get counter = 0 :=
    StatBlock.get_zero counter
  refine ⟨?_, ?_, ?_⟩
  · intro scope row counter
    rcases kept.scope scope with same | cleared
    · exact .inl (by rw [same])
    · exact .inr (by rw [cleared, ScopeTally.block_empty, StatBlock.get_zero])
  · intro opponent counter
    constructor
    · rcases kept.dealt opponent with same | cleared
      · exact .inl (by rw [same])
      · exact .inr (by rw [cleared, blank])
    · rcases kept.suffered opponent with same | cleared
      · exact .inl (by rw [same])
      · exact .inr (by rw [cleared, blank])
  · rcases arms_run_while_paused paused stays slot with
      same | ⟨connects, wiped⟩
    · exact .inl (Prod.mk.inj same)
    · exact .inr ⟨connects, Prod.mk.inj wiped⟩

/-- Ann holds a weapon and has hit Bob when the pause begins.  Then she throws a
grenade, takes another weapon and hits again: nothing of it counts. -/
theorem counters_while_all_tried :
    let ann : Slot := { index := 0 }
    let bob : Slot := { index := 1 }
    let body : EntityHandle := { index := 1, generation := 0 }
    let take (weapon : Int32) : List (Call ScriptedWorld) :=
      [.messageBegin 66 (some body), .messageField (.int 1),
        .messageField (.int weapon), .messageField (.int 8), .messageEnd]
    let hit (amount : Int32) : List (Call ScriptedWorld) :=
      [.changeWorld (·.hurt bob body amount),
        .messageBegin 67 (some { index := 2, generation := 0 }), .messageEnd]
    let before : List (Call ScriptedWorld) :=
      [.register "CurWeapon" 66, .register "Health" 67,
        .changeWorld fun world => (world.join ann 1).2,
        .connect ann "ann" "id:ann",
        .changeWorld fun world => (world.join bob 2).2,
        .connect bob "bob" "id:bob"] ++ take 3 ++ hit 50 ++ [.setPaused true]
    let paused : List (Call ScriptedWorld) :=
      [.projectileTrace ann { index := 33, generation := 0 } "grenade"
          Position.origin] ++ take 5 ++ hit 60 ++
        [.connect bob "rob" "id:rob", .think ann, .resetPlayerStats bob]
    let session :=
      (Session.new {} ScriptedWorld.empty PointTable.blank).run before
    let after := (session.run paused).tally
    (session.config.paused = true ∧
      ∀ call ∈ paused, call.setsPause = false) ∧
    (after.player ann).life.total.get .damage = 50 ∧
    (after.player ann).held = { index := 3 } := by
  intro ann bob body take hit before paused session after
  have pauses : session.config.paused = true := by decide +kernel
  have stays : ∀ call ∈ paused, call.setsPause = false := by decide +kernel
  have struck : (session.tally.player ann).life.total.get .damage = 50 := by
    decide +kernel
  have armed : (session.tally.player ann).held = { index := 3 } := by
    decide +kernel
  have uncleared : (after.player ann).life.total.get .damage ≠ 0 := by
    decide +kernel
  have inHand : (after.player ann).held ≠ Weapon.unarmed := by decide +kernel
  have same : after = (session.run paused).tally := rfl
  clear_value session paused after
  subst same
  obtain ⟨counters, _, arms⟩ := counters_while_paused pauses stays ann
  have damage := (counters .life none .damage).resolve_right uncleared
  have held := (arms.resolve_right fun wiped => inHand wiped.2.1).1
  exact ⟨⟨pauses, stays⟩, damage.trans struck, held.trans armed⟩

end Session

end Fragboard.Match
