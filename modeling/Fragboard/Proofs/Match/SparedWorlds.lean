import Fragboard.Proofs.Match.AlikeWorlds

/-!
# Worlds without the damage that waits

`ScriptedWorld.spare` drops the damage that waits for a player.  Nobody who asks
about anything else can tell (`ScriptedWorld.alike_spare`), and it is no matter
whether the damage is dropped before a call of the world or after it, unless the
call disposes of it (`ScriptedWorld.perform_spare`).
-/

namespace Fragboard.Match

def ScriptedPlayer.spared (player : ScriptedPlayer) : ScriptedPlayer :=
  { player with pendingDamage := none }

namespace ScriptedWorld

/-- The world in which no damage waits for a player. -/
def spare (world : ScriptedWorld) (victim : Slot) : ScriptedWorld :=
  (world.takeDamage victim).2

theorem player?_spare (world : ScriptedWorld) (victim slot : Slot) :
    (world.spare victim).player? slot =
      (world.player? slot).map fun player =>
        if victim = slot then player.spared else player := by
  rw [spare, takeDamage, player?_changePlayer]
  split
  · rfl
  · exact Option.map_id'.symm

theorem ext_player? {first second : ScriptedWorld}
    (time : first.time = second.time)
    (entities : first.entities = second.entities)
    (nextIndex : first.nextIndex = second.nextIndex)
    (players : ∀ slot, first.player? slot = second.player? slot) :
    first = second := by
  have same : first.players = second.players :=
    Cells.ext_get fun index => players { index := index }
  cases first
  cases second
  simp_all

theorem alike_spare (world : ScriptedWorld) (victim : Slot) :
    GameWorld.Alike world (world.spare victim) := by
  have tested (slot : Slot) (test : ScriptedPlayer → Bool)
      (blind : ∀ player : ScriptedPlayer, test player.spared = test player) :
      ((world.spare victim).player? slot).any test =
        (world.player? slot).any test := by
    rw [player?_spare, Option.any_map]
    congr 1
    funext player
    split
    · exact blind player
    · rfl
  have read {α : Type} (slot : Slot) (part : ScriptedPlayer → Option α)
      (blind : ∀ player : ScriptedPlayer, part player.spared = part player) :
      ((world.spare victim).player? slot).bind part =
        (world.player? slot).bind part := by
    rw [player?_spare, Option.bind_map]
    congr 1
    funext player
    dsimp only [Function.comp]
    split
    · exact blind player
    · rfl
  have valid : (world.spare victim).entityValid = world.entityValid := rfl
  constructor
  case now => rfl
  case entityValid => rfl
  case playerOf =>
    funext entity
    simp only [GameWorld.playerOf, playerOf, valid]
    split
    · congr 1
      funext slot
      exact tested slot _ fun _ => rfl
    · rfl
  case playerValid =>
    funext slot
    exact tested slot _ fun _ => rfl
  case isAlive =>
    funext slot
    exact tested slot _ fun _ => rfl
  case team =>
    funext slot
    exact read slot _ fun _ => rfl
  case isBot =>
    funext slot
    exact tested slot _ fun _ => rfl
  case equippedWeapon =>
    funext slot
    exact read slot _ fun _ => rfl
  case objectNear =>
    funext slot
    exact congrArg (Option.filter world.entityValid)
      (read slot _ fun _ => rfl)
  case positionOf => rfl

theorem spare_changePlayer (world : ScriptedWorld) (victim slot : Slot)
    {change : ScriptedPlayer → ScriptedPlayer}
    (blind : victim = slot →
      ∀ player, change player.spared = (change player).spared) :
    (world.spare victim).changePlayer slot change =
      (world.changePlayer slot change).spare victim := by
  refine ext_player? rfl rfl rfl fun other => ?_
  simp only [player?_changePlayer, player?_spare]
  split
  · next here =>
    rw [Option.map_map, Option.map_map]
    congr 1
    funext player
    dsimp only [Function.comp]
    split
    · next spared => exact blind (spared.trans here.symm) player
    · rfl
  · rfl

theorem player?_spare_of_ne (world : ScriptedWorld) {victim slot : Slot}
    (apart : victim ≠ slot) :
    (world.spare victim).player? slot = world.player? slot := by
  rw [spare, takeDamage, player?_changePlayer, if_neg apart]

theorem entity_join_spare (world : ScriptedWorld) (victim slot : Slot)
    (team : Int32) :
    ((world.spare victim).join slot team).1 = (world.join slot team).1 := by
  simp only [join, player?_spare]
  cases world.player? slot with
  | none => rfl
  | some player =>
      simp only [Option.map_some]
      split <;> rfl

theorem player?_join (world : ScriptedWorld) (slot other : Slot)
    (team : Int32) :
    (world.join slot team).2.player? other =
      if slot = other then
        some { entity := (world.join slot team).1, team := some team }
      else world.player? other := by
  simp only [join, player?, Cells.get_set, Slot.index_inj]
  rfl

theorem entities_join_spare (world : ScriptedWorld) (victim slot : Slot)
    (team : Int32) :
    ((world.spare victim).join slot team).2.entities =
      (world.join slot team).2.entities :=
  congrArg (fun entity => (world.place entity Position.origin).entities)
    (world.entity_join_spare victim slot team)

theorem leave_spare (world : ScriptedWorld) (victim slot : Slot) :
    (world.spare victim).leave slot = (world.leave slot).spare victim := by
  simp only [leave, player?_spare]
  cases world.player? slot with
  | none => rfl
  | some player =>
      have entity : (if victim = slot then player.spared else player).entity =
          player.entity := by
        split <;> rfl
      have out : (world.spare victim).changePlayer slot
          (fun player => { player with inGame := false }) = _ :=
        world.spare_changePlayer victim slot fun _ _ => rfl
      simp only [Option.map_some, entity, out]
      rfl

/-- Whether the damage was dropped before a call or after it is the same, unless
the call disposes of it. -/
theorem perform_spare (world : ScriptedWorld) {victim : Slot} {call : Call}
    (kept : call.disposes victim = false) :
    (world.spare victim).perform call =
      (world.perform call).spare victim := by
  cases call with
  | join slot team =>
      have apart : slot ≠ victim := of_decide_eq_false kept
      refine ext_player? rfl (world.entities_join_spare victim slot team) rfl
        fun other => ?_
      simp only [perform, player?_spare, player?_join, entity_join_spare]
      split
      · next here => rw [Option.map_some, if_neg (here ▸ apart.symm)]
      · rfl
  | leave slot => exact world.leave_spare victim slot
  | placeObject slot position =>
      exact (world.spawn position).2.spare_changePlayer victim slot
        fun _ _ => rfl
  | hurt slot inflictor amount =>
      have apart : slot ≠ victim := of_decide_eq_false kept
      exact world.spare_changePlayer victim slot fun here =>
        absurd here.symm apart
  | takeDamage slot =>
      exact world.spare_changePlayer victim slot fun _ _ => rfl
  | edit slot change =>
      exact world.spare_changePlayer victim slot fun _ _ => rfl
  | _ => rfl

/-- After a call that disposes of the damage it is no matter whether it was
dropped before. -/
theorem perform_spare_of_disposed (world : ScriptedWorld) {victim : Slot}
    {call : Call} (disposed : call.disposes victim = true) :
    (world.spare victim).perform call = world.perform call := by
  have overwritten (change : ScriptedPlayer → ScriptedPlayer)
      (blind : ∀ player, change player.spared = change player) :
      (world.spare victim).changePlayer victim change =
        world.changePlayer victim change := by
    refine ext_player? rfl rfl rfl fun other => ?_
    simp only [player?_changePlayer]
    split
    · next here =>
      rw [← here, player?_spare, Option.map_map]
      congr 1
      funext player
      simp only [Function.comp, if_true, blind]
    · next apart => rw [world.player?_spare_of_ne apart]
  cases call with
  | join slot team =>
      obtain rfl : slot = victim := of_decide_eq_true disposed
      refine ext_player? rfl (world.entities_join_spare slot slot team) rfl
        fun other => ?_
      simp only [perform, player?_join, entity_join_spare]
      split
      · rfl
      · next apart => rw [world.player?_spare_of_ne apart]
  | hurt slot inflictor amount =>
      obtain rfl : slot = victim := of_decide_eq_true disposed
      exact overwritten _ fun _ => rfl
  | takeDamage slot =>
      obtain rfl : slot = victim := of_decide_eq_true disposed
      exact overwritten _ fun _ => rfl
  | _ => contradiction

theorem sameDamage_spare (world : ScriptedWorld) {victim slot : Slot}
    (apart : slot ≠ victim) :
    GameWorld.SameDamage world (world.spare victim) slot where
  report := by
    have seen := world.player?_spare_of_ne apart.symm
    exact congrArg (·.bind ScriptedPlayer.pendingDamage) seen
  after := by
    have moved : (world.spare victim).perform (.takeDamage slot) = _ :=
      world.perform_spare (decide_eq_false apart)
    have same : ((world.spare victim).takeDamage slot).2 =
        (world.takeDamage slot).2.spare victim := moved
    rw [show (GameWorld.takeDamage (world.spare victim) slot).2 = _ from same]
    exact ScriptedWorld.alike_spare _ victim

end ScriptedWorld

end Fragboard.Match
