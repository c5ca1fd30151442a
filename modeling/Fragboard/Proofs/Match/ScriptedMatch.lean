import Fragboard.Match.ScriptedWorld
import Fragboard.Proofs.Match.SessionEvents

/-!
# Matches in a scripted world

A `Session.Step` is a call of the scripted world, by which the host moves it on,
or a call of the session itself.  `Session.play` carries out steps one after the
other, and `Session.feed` is what they report.

The damage that waits for a player stays until a step disposes of it: the player
is hurt anew, rejoins, or the damage is taken, by the host or by the end of a
message.
-/

namespace Fragboard.Match

namespace ScriptedWorld

/-- Writes anything about a player but the damage that waits, which the writer
does not see either: `hurt` puts it there and `takeDamage` takes it away. -/
def edit (world : ScriptedWorld) (slot : Slot)
    (change : ScriptedPlayer → ScriptedPlayer) : ScriptedWorld :=
  world.changePlayer slot fun player =>
    { change { player with pendingDamage := none } with
      pendingDamage := player.pendingDamage }

inductive Call where
  | setTime (time : Float32)
  | advance (seconds : Float32)
  | join (slot : Slot) (team : Int32)
  | leave (slot : Slot)
  | spawn (position : Position)
  | free (entity : EntityHandle)
  | placeObject (slot : Slot) (position : Position)
  | hurt (victim : Slot) (inflictor : EntityHandle) (amount : Int32)
  | takeDamage (slot : Slot)
  | edit (slot : Slot) (change : ScriptedPlayer → ScriptedPlayer)

def perform (world : ScriptedWorld) : Call → ScriptedWorld
  | .setTime time => world.setTime time
  | .advance seconds => world.advance seconds
  | .join slot team => (world.join slot team).2
  | .leave slot => world.leave slot
  | .spawn position => (world.spawn position).2
  | .free entity => world.free entity
  | .placeObject slot position => (world.placeObject slot position).2
  | .hurt victim inflictor amount => world.hurt victim inflictor amount
  | .takeDamage slot => (world.takeDamage slot).2
  | .edit slot change => world.edit slot change

/-- The call puts damage on a player. -/
def Call.hurts (victim : Slot) : Call → Bool
  | .hurt struck _ _ => struck = victim
  | _ => false

/-- The damage that waited for a player is gone after the call. -/
def Call.disposes (victim : Slot) : Call → Bool
  | .hurt changed _ _ | .takeDamage changed | .join changed _ =>
    changed = victim
  | _ => false

def waiting? (world : ScriptedWorld) (slot : Slot) : Option DamageReport :=
  (world.player? slot).bind (·.pendingDamage)

section Waiting

variable (world : ScriptedWorld) (slot other : Slot)

theorem player?_changePlayer (change : ScriptedPlayer → ScriptedPlayer) :
    (world.changePlayer slot change).player? other =
      if slot = other then (world.player? other).map change
      else world.player? other := by
  simp only [player?, changePlayer, Cells.get_alter, Slot.index_inj]

theorem waiting?_changePlayer (change : ScriptedPlayer → ScriptedPlayer) :
    (world.changePlayer slot change).waiting? other =
      if slot = other then
        (world.player? other).bind fun player => (change player).pendingDamage
      else world.waiting? other := by
  simp only [waiting?, player?_changePlayer]
  split
  · exact Option.bind_map
  · rfl

theorem waiting?_changePlayer_of_kept
    {change : ScriptedPlayer → ScriptedPlayer}
    (kept : ∀ player, (change player).pendingDamage = player.pendingDamage) :
    (world.changePlayer slot change).waiting? other =
      world.waiting? other := by
  rw [waiting?_changePlayer]
  simp only [kept]
  exact ite_self _

theorem waiting?_hurt (inflictor : EntityHandle) (amount : Int32) :
    (world.hurt slot inflictor amount).waiting? slot =
      (world.player? slot).map fun _ =>
        { inflictor := inflictor, amount := amount } := by
  rw [hurt, waiting?_changePlayer, if_pos rfl]
  cases world.player? slot <;> rfl

theorem waiting?_takeDamage :
    (world.takeDamage slot).2.waiting? slot = none := by
  simp only [takeDamage, waiting?_changePlayer, if_pos]
  cases world.player? slot <;> rfl

theorem waiting?_join (team : Int32) :
    (world.join slot team).2.waiting? other =
      if slot = other then none else world.waiting? other := by
  simp only [waiting?, player?, join, place, free, Cells.get_set,
    Slot.index_inj]
  split <;> rfl

end Waiting

theorem waiting?_perform (world : ScriptedWorld) {victim : Slot} {call : Call}
    (kept : call.disposes victim = false) :
    (world.perform call).waiting? victim = world.waiting? victim := by
  cases call with
  | join slot team =>
      have apart : slot ≠ victim := of_decide_eq_false kept
      rw [perform, waiting?_join, if_neg apart]
  | leave slot =>
      simp only [perform, leave]
      split
      · rfl
      · exact waiting?_changePlayer_of_kept _ _ _ fun _ => rfl
  | placeObject slot position =>
      exact waiting?_changePlayer_of_kept _ _ _ fun _ => rfl
  | hurt slot inflictor amount =>
      have apart : slot ≠ victim := of_decide_eq_false kept
      rw [perform, hurt, waiting?_changePlayer, if_neg apart]
  | takeDamage slot =>
      have apart : slot ≠ victim := of_decide_eq_false kept
      simp only [perform, takeDamage, waiting?_changePlayer, if_neg apart]
  | edit slot change =>
      exact waiting?_changePlayer_of_kept _ _ _ fun _ => rfl
  | _ => rfl

/-- Damage that waits without the player being hurt has waited before. -/
theorem waiting?_perform_of_unhurt (world : ScriptedWorld) {victim : Slot}
    {call : Call} (unhurt : call.hurts victim = false) :
    (world.perform call).waiting? victim = world.waiting? victim ∨
    (world.perform call).waiting? victim = none := by
  cases disposes : call.disposes victim with
  | false => exact .inl (world.waiting?_perform disposes)
  | true =>
      right
      cases call with
      | join slot team =>
          rw [perform, waiting?_join, if_pos (of_decide_eq_true disposes)]
      | hurt slot inflictor amount =>
          exact Bool.noConfusion (unhurt.symm.trans disposes)
      | takeDamage slot =>
          obtain rfl : slot = victim := of_decide_eq_true disposes
          exact world.waiting?_takeDamage slot
      | _ => contradiction

end ScriptedWorld

namespace Session

/-- A call of the session itself; the world is the host's. -/
def Call.isOwn {World : Type} : Call World → Bool
  | .changeWorld _ => false
  | _ => true

inductive Step where
  | host (call : ScriptedWorld.Call)
  | own (call : Call ScriptedWorld) (isOwn : call.isOwn = true)

def Step.call : Step → Call ScriptedWorld
  | .host call => .changeWorld (·.perform call)
  | .own call _ => call

/-- The step puts damage on a player. -/
def Step.hurts (victim : Slot) : Step → Bool
  | .host call => call.hurts victim
  | .own _ _ => false

def play (session : Session ScriptedWorld) (steps : List Step) :
    Session ScriptedWorld :=
  session.run (steps.map Step.call)

/-- What the steps of a match report, in order. -/
def feed (session : Session ScriptedWorld) (steps : List Step) : List Event :=
  session.stream (steps.map Step.call)

theorem play_append (session : Session ScriptedWorld)
    (steps later : List Step) :
    session.play (steps ++ later) = (session.play steps).play later := by
  rw [play, List.map_append, run_append]
  rfl

theorem feed_cons (session : Session ScriptedWorld) (step : Step)
    (steps : List Step) :
    session.feed (step :: steps) =
      session.sent step.call ++ (session.perform step.call).feed steps :=
  rfl

section World

variable {World : Type} [GameWorld World]

/-- The session changes the world only by taking the damage for which a message
ends. -/
theorem world_perform (session : Session World) {call : Call World}
    (own : call.isOwn = true) (harmless : call ≠ .messageEnd) :
    (session.perform call).world = session.world := by
  cases call with
  | changeWorld change => contradiction
  | messageEnd => contradiction
  | setPaused paused => rfl
  | setBritishAllies british => rfl
  | connect slot name unique => rfl
  | disconnect slot =>
      simp only [perform, disconnect]
      split
      · exact session.flushLife_world slot
      · rfl
  | projectileTrace owner projectile className position =>
      simp only [perform, projectileTrace]
      split
      · rfl
      · exact (SameCourse.emitAll (.refl _) _).world
  | teardown tree => exact (session.sameStage_closing session.playing).world
  | teardownBackground saver =>
      exact (session.sameStage_closing session.playing).world
  | _ => exact (session.sameStage_perform rfl).world

theorem world_messageEnd (session : Session World) :
    session.messageEnd.world =
      session.damaged?.elim session.world fun victim =>
        (GameWorld.takeDamage session.world victim).2 := by
  cases damaged : session.damaged? with
  | none => exact (sameStage_messageEnd damaged).world
  | some victim =>
      obtain ⟨unpaused, ended⟩ := messageEnd_of_damaged damaged
      have sent (resolved : Session World) (events : List Event) :
          (resolved.emitAll events).world = resolved.world :=
        (SameCourse.emitAll (.refl resolved) events).world
      rw [ended, endDamage, if_neg (by simp [unpaused])]
      simp only [resolveDamage_eq, sent, Option.elim_some]
      cases waiting : waitingBlow? session.world victim with
      | none => rfl
      | some blow => exact (waitingBlow?_cases waiting).2.1

end World

end Session

end Fragboard.Match
