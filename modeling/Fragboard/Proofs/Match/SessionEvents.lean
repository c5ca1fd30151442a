import Fragboard.Proofs.Match.SessionProjectiles

/-!
# What the calls of a session report

`Session.sent` is what a call reports to the observers, in order, and
`Session.stream` what a sequence of calls reports.  Observers take the reports
in this order and miss none (`Session.received_append_queued`).

Every sort of report is sent by one part of one sort of call
(`Session.origin?_of_sent`).  So damage and deaths are reported at the end of a
message that records damage, and nowhere else
(`Session.exists_blow_of_combat`).
-/

namespace Fragboard.Match

open Message (FieldMeaning FieldValue EndAction)
open Rank (Board)

/-- The report is about damage. -/
def Event.isCombat : Event → Bool
  | .damage _ _ _ _ _ _ | .death _ _ _ _ _ => true
  | _ => false

/-- The part of a call that sends a report. -/
inductive Event.Origin where
  | field (meaning : FieldMeaning)
  | ending (action : EndAction)
  | trace
  | poll
  | request

def Event.origin : Event → Event.Origin
  | .weaponSwitch _ _ _ => .ending .weaponSwitch
  | .damage _ _ _ _ _ _ | .death _ _ _ _ _ => .ending .damage
  | .score _ _ _ => .poll
  | .teamScore _ _ => .field .teamScore
  | .spawn _ => .field .statusPlayer
  | .scope _ _ _ => .ending .scopeCheck
  | .objectPickup _ _ _ _ => .ending .objectToggle
  | .grenadeExplosion _ _ _ _ | .rocketExplosion _ _ _ _ => .trace
  | .statsFlush _ => .request

theorem Event.origin_of_combat {event : Event}
    (combat : event.isCombat = true) : event.origin = .ending .damage := by
  cases event with
  | damage attacker victim amount weapon region teamkill => rfl
  | death killer victim weapon region teamkill => rfl
  | _ => contradiction

namespace Session

variable {World : Type}

/-- Observers take from the queue. -/
def Call.takesEvents : Call World → Bool
  | .receiveEvent | .drainEvents => true
  | _ => false

/-- The reports wait at the end of the queue. -/
def Sends (before after : Session World) (events : List Event) : Prop :=
  after.events.queued = before.events.queued ++ events

theorem Sends.of_kept {before after : Session World}
    (kept : after.events = before.events) : before.Sends after [] := by
  rw [Sends, kept, List.append_nil]

theorem sends_emitAll (session : Session World) (events : List Event) :
    session.Sends (session.emitAll events) events := by
  unfold Sends
  induction events generalizing session with
  | nil => exact (List.append_nil _).symm
  | cons event events ih =>
      rw [emitAll, List.foldl_cons, ← emitAll, ih]
      exact List.append_assoc _ [event] events

/-- Resetting counters changes nothing that is not read from the tally. -/
theorem resetAllStats_part {α : Type} (part : Session World → α)
    (sameTally : ∀ (session : Session World) (change : Tally → Tally),
      part (session.mapTally change) = part session)
    (session : Session World) :
    part session.resetAllStats = part session := by
  unfold resetAllStats
  induction Slot.all generalizing session with
  | nil => rfl
  | cons slot slots ih =>
      rw [List.foldl_cons, ih, resetPlayerStats]
      split
      · exact sameTally _ _
      · rfl

theorem events_resetAllStats (session : Session World) :
    session.resetAllStats.events = session.events :=
  resetAllStats_part Session.events (fun _ _ => rfl) session

theorem events_setAmmo (session : Session World) (slot : Slot)
    (amount : Int32) :
    (session.setAmmo slot amount).events = session.events := by
  unfold setAmmo
  dsimp only
  split <;> rfl

/-- What a field reports. -/
def fieldEvents (session : Session World) (meaning : FieldMeaning)
    (int : Option Int32) : List Event :=
  match meaning, int with
  | .teamScore, some score =>
    let team := session.draft.teamIndex
    if (session.teamScores.set? team score).isSome then [.teamScore team score]
    else []
  | .statusPlayer, some number => (Slot.ofNumber? number).toList.map .spawn
  | _, _ => []

theorem origin_of_fieldEvents {session : Session World}
    {meaning : FieldMeaning} {int : Option Int32} {event : Event}
    (member : event ∈ session.fieldEvents meaning int) :
    event.origin = .field meaning := by
  unfold fieldEvents at member
  split at member
  · dsimp only at member
    split at member
    · rw [List.mem_singleton.mp member]
      rfl
    · exact absurd member List.not_mem_nil
  · obtain ⟨slot, _, rfl⟩ := List.mem_map.mp member
    rfl
  · exact absurd member List.not_mem_nil

variable [GameWorld World]

theorem events_objectiveScore (session : Session World) (slot : Slot)
    (score : Int32) :
    (session.objectiveScore slot score).events = session.events := by
  unfold objectiveScore
  dsimp only
  split
  · rfl
  · split <;> rfl

theorem events_noteObject (session : Session World) (slot : Slot) :
    (session.noteObject slot).events = session.events := by
  unfold noteObject
  dsimp only
  split
  · rfl
  · split <;> rfl

theorem sends_applyField (session : Session World) (meaning : FieldMeaning)
    (subject : Option Slot) (int : Option Int32) :
    session.Sends (session.applyField meaning subject int)
      (session.fieldEvents meaning int) := by
  cases meaning with
  | scoreValue =>
      refine .of_kept ?_
      simp only [applyField]
      split
      · exact session.events_objectiveScore _ _
      · rfl
  | roundState =>
      refine .of_kept ?_
      simp only [applyField]
      split <;> rfl
  | teamScore =>
      cases int with
      | none => exact .of_kept rfl
      | some score =>
          simp only [applyField, setTeamScore, fieldEvents]
          cases session.teamScores.set? session.draft.teamIndex score with
          | none => exact .of_kept rfl
          | some scores => exact rfl
  | ammoAmount =>
      refine .of_kept ?_
      simp only [applyField]
      split
      · exact session.events_setAmmo _ _
      · rfl
  | fieldOfView =>
      refine .of_kept ?_
      simp only [applyField]
      split <;> rfl
  | objectName =>
      refine .of_kept ?_
      simp only [applyField]
      split
      · exact session.events_noteObject _
      · rfl
  | statusPlayer =>
      cases int with
      | none => exact .of_kept rfl
      | some number =>
          simp only [applyField, fieldEvents, Option.bind_some]
          cases Slot.ofNumber? number with
          | none => exact .of_kept rfl
          | some slot => exact rfl
  | _ => exact .of_kept rfl

/-- What the end of the present message carries out, and for whom. -/
def closing? (session : Session World) : Option (EndAction × Slot) :=
  session.decoder.finish.1.bind fun call =>
    (session.liveSubject call.subject).map fun slot => (call.meaning, slot)

theorem messageEnd_of_closing {session : Session World} {action : EndAction}
    {slot : Slot} (closing : session.closing? = some (action, slot)) :
    session.messageEnd =
      ({ session with
        decoder := session.decoder.finish.2
        subjectEntity := none }).applyEnd action slot := by
  obtain ⟨call, ended, subject⟩ := Option.bind_eq_some_iff.mp closing
  obtain ⟨here, live, same⟩ := Option.map_eq_some_iff.mp subject
  obtain ⟨rfl, rfl⟩ := Prod.mk.inj same
  unfold messageEnd
  simp only [ended, live]

/-- A message whose end carries nothing out leaves all but the message itself
alone. -/
theorem messageEnd_of_idle {session : Session World}
    (idle : session.closing? = none) :
    ∃ subject, session.messageEnd =
      { session with
        decoder := session.decoder.finish.2
        subjectEntity := subject } := by
  unfold messageEnd
  dsimp only
  split
  · exact ⟨session.subjectEntity, rfl⟩
  · next call ended =>
    have dead : session.liveSubject call.subject = none := by
      simpa [closing?, ended] using idle
    rw [dead]
    exact ⟨none, rfl⟩

theorem closing?_of_damaged {session : Session World} {victim : Slot}
    (damaged : session.damaged? = some victim) :
    session.closing? = some (.damage, victim) ∧
    session.config.paused = false := by
  obtain ⟨call, ended, takes⟩ := Option.bind_eq_some_iff.mp damaged
  obtain ⟨⟨meaning, unpaused⟩, subject⟩ :=
    Option.ite_none_right_eq_some.mp takes
  refine ⟨?_, unpaused⟩
  rw [closing?, ended, Option.bind_some, subject, meaning]
  rfl

theorem damaged?_of_closing {session : Session World} {victim : Slot}
    (closing : session.closing? = some (.damage, victim))
    (unpaused : session.config.paused = false) :
    session.damaged? = some victim := by
  obtain ⟨call, ended, subject⟩ := Option.bind_eq_some_iff.mp closing
  obtain ⟨here, live, same⟩ := Option.map_eq_some_iff.mp subject
  obtain ⟨meaning, rfl⟩ := Prod.mk.inj same
  rw [damaged?, ended, Option.bind_some, if_pos ⟨meaning, unpaused⟩, live]

/-- Who stands behind damage. -/
def culprit (session : Session World) (blow : Blow World) : Culprit :=
  (culpritOf session.attributor blow.world blow.report.inflictor).1

/-- How damage is accounted for. -/
def resolution (session : Session World) (blow : Blow World) : Resolution :=
  (recordDamage blow.world session.tally blow.victim (session.culprit blow)
    blow.report.amount).1

/-- What an end reports. -/
def endEvents (session : Session World) (slot : Slot) : EndAction → List Event
  | .weaponSwitch =>
    if session.config.paused then []
    else
      (weaponSwitch session.world session.tally slot
        session.draft.record).1.toList
  | .damage =>
    if session.config.paused then []
    else
      (waitingBlow? session.world slot).elim [] fun blow =>
        (session.resolution blow).events
  | .lifeReset => []
  | .scopeCheck =>
    let state := session.player slot
    let zoomed := !isPlainView state.fieldOfView
    if zoomed = state.zoomed then []
    else [.scope slot zoomed state.fieldOfView]
  | .objectToggle =>
    let state := session.player slot
    if !state.objectForward then []
    else
      (state.object.filter (GameWorld.entityValid session.world)).toList.map
        fun object =>
          .objectPickup slot object
            ((GameWorld.positionOf session.world object).getD Position.origin)
            !state.carrying

theorem sends_applyEnd (session : Session World) (action : EndAction)
    (slot : Slot) :
    session.Sends (session.applyEnd action slot)
      (session.endEvents slot action) := by
  cases action with
  | weaponSwitch =>
      simp only [applyEnd, endWeaponSwitch, endEvents]
      split
      · exact .of_kept rfl
      · exact sends_emitAll _ _
  | damage =>
      simp only [applyEnd, endDamage, endEvents]
      split
      · exact .of_kept rfl
      · simp only [resolveDamage_eq]
        cases waitingBlow? session.world slot with
        | none => exact sends_emitAll _ _
        | some blow => exact sends_emitAll _ _
  | lifeReset => exact .of_kept rfl
  | scopeCheck =>
      simp only [applyEnd, endScopeCheck, endEvents]
      split
      · exact .of_kept rfl
      · exact rfl
  | objectToggle =>
      simp only [applyEnd, endObjectToggle, endEvents]
      split
      · exact .of_kept rfl
      · split
        · next gone =>
          rw [gone]
          exact .of_kept rfl
        · next object found =>
          rw [found]
          exact rfl

theorem events_flushLife (session : Session World) (slot : Slot) :
    (session.flushLife slot).events = session.events :=
  flushLife_part Session.events (fun _ _ => rfl) (fun _ _ _ => rfl) session
    slot

theorem events_applyDue (session : Session World) (slot : Slot)
    (due : DueClears) :
    (session.applyDue slot due).events = session.events :=
  applyDue_part Session.events (fun _ _ => rfl) (fun _ _ _ => rfl)
    (fun _ _ => rfl) session slot due

theorem events_closing (session : Session World) (slots : List Slot) :
    (slots.foldl closeLife session).events = session.events :=
  closing_part Session.events (fun _ _ => rfl) (fun _ _ _ => rfl)
    (fun _ _ => rfl) session slots

/-- Up to the noted row, due clears leave every player alone. -/
theorem applyDue_player (session : Session World) (slot other : Slot)
    (due : DueClears) :
    ∃ kept, (session.applyDue slot due).player other =
      { session.player other with rankId := kept } := by
  unfold applyDue
  cases due.life with
  | none =>
      dsimp only
      split
      · exact ⟨(session.player other).rankId, rfl⟩
      · exact ⟨(session.player other).rankId, rfl⟩
  | some full =>
      dsimp only
      split
      · exact session.flushLife_player slot other
      · exact session.flushLife_player slot other

/-- What a call reports to the observers, in order. -/
def sent (session : Session World) : Call World → List Event
  | .messageField value =>
    session.decoder.field.1.elim [] fun call =>
      session.fieldEvents call.meaning value.asInt
  | .messageEnd =>
    session.closing?.elim [] fun (action, slot) =>
      session.endEvents slot action
  | .projectileTrace owner projectile className position =>
    if session.config.paused || !session.isPlaying owner then []
    else
      (Match.projectileTrace session.attributor (GameWorld.now session.world)
        session.tally owner projectile className position).1.toList
  | .think slot =>
    let state := session.player slot
    let now := GameWorld.now session.world
    if session.isPlaying slot && state.announceAt.any (fun due => due ≤ now)
    then [.score slot state.lastDelta state.savedScore]
    else []
  | .flushAllStats => session.playing.map .statsFlush
  | _ => []

/-- What observers take from the queue by a call. -/
def taken (session : Session World) : Call World → List Event
  | .receiveEvent => session.events.receive.1.toList
  | .drainEvents => session.events.drain.1
  | _ => []

theorem sends_think (session : Session World) (slot : Slot) :
    session.Sends (session.think slot) (session.sent (.think slot)) := by
  simp only [think, sent]
  cases session.isPlaying slot with
  | false => exact .of_kept rfl
  | true =>
      let polled := session.mapTally fun tally =>
        (tally.takeDue slot (GameWorld.now session.world)).2
      let due := (session.tally.takeDue slot (GameWorld.now session.world)).1
      let settled := polled.applyDue slot due
      have kept : settled.events = session.events :=
        polled.events_applyDue slot due
      have world : settled.world = session.world :=
        (polled.sameStage_applyDue slot due).world
      obtain ⟨row, state⟩ := polled.applyDue_player slot slot due
      have states : settled.player slot =
          { session.player slot with rankId := row } := state
      have announced : session.Sends (settled.announceScore slot)
          (if (session.player slot).announceAt.any
              (fun due => due ≤ GameWorld.now session.world) then
            [.score slot (session.player slot).lastDelta
              (session.player slot).savedScore]
          else []) := by
        simp only [announceScore, states, world]
        split
        · exact congrArg (·.queued ++ [_]) kept
        · exact .of_kept kept
      exact announced

theorem sends_perform (session : Session World) {call : Call World}
    (leaves : call.takesEvents = false) :
    session.Sends (session.perform call) (session.sent call) := by
  cases call with
  | receiveEvent => contradiction
  | drainEvents => contradiction
  | register name id => exact .of_kept rfl
  | disconnect slot =>
      refine .of_kept ?_
      simp only [perform, disconnect]
      split
      · exact session.events_flushLife slot
      · rfl
  | rename slot name =>
      refine .of_kept ?_
      simp only [perform, rename]
      split
      · rfl
      · cases session.config.rankBy <;> rfl
  | messageField value =>
      simp only [perform, messageField, sent]
      cases session.decoder.field.1 with
      | none => exact .of_kept rfl
      | some call => exact sends_applyField _ _ _ _
  | messageEnd =>
      simp only [perform, sent]
      cases closing : session.closing? with
      | none =>
          obtain ⟨subject, ended⟩ := messageEnd_of_idle closing
          rw [ended]
          exact .of_kept rfl
      | some closed =>
          rw [messageEnd_of_closing closing]
          exact sends_applyEnd _ _ _
  | projectileTrace owner projectile className position =>
      simp only [perform, projectileTrace, sent]
      split
      · exact .of_kept rfl
      · exact sends_emitAll _ _
  | think slot => exact session.sends_think slot
  | resetPlayerStats slot =>
      refine .of_kept ?_
      simp only [perform, resetPlayerStats]
      split <;> rfl
  | resetAllStats => exact .of_kept session.events_resetAllStats
  | flushAllStats => exact sends_emitAll _ _
  | teardown tree => exact .of_kept (session.events_closing _)
  | teardownBackground saver => exact .of_kept (session.events_closing _)
  | _ => exact .of_kept rfl

/-- A call adds its reports at the end of the queue; observers take from its
front. -/
theorem taken_append_queued (session : Session World) (call : Call World) :
    session.taken call ++ (session.perform call).events.queued =
      session.events.queued ++ session.sent call := by
  cases leaves : call.takesEvents with
  | false =>
      have untaken : session.taken call = [] := by
        cases call with
        | receiveEvent => contradiction
        | drainEvents => contradiction
        | _ => rfl
      rw [untaken]
      exact session.sends_perform leaves
  | true =>
      cases call with
      | receiveEvent =>
          simp only [taken, perform, sent, Channel.receive, List.append_nil]
          split
          · next empty => rw [empty]; rfl
          · next oldest others waiting => rw [waiting]; rfl
      | drainEvents => rfl
      | _ => contradiction

/-- All that is reported in a sequence of calls, in order. -/
def stream (session : Session World) : List (Call World) → List Event
  | [] => []
  | call :: rest => session.sent call ++ (session.perform call).stream rest

/-- All that observers take in a sequence of calls, in order. -/
def received (session : Session World) : List (Call World) → List Event
  | [] => []
  | call :: rest => session.taken call ++ (session.perform call).received rest

theorem stream_concat (session : Session World) (calls : List (Call World))
    (call : Call World) :
    session.stream (calls ++ [call]) =
      session.stream calls ++ (session.run calls).sent call := by
  induction calls generalizing session with
  | nil => exact List.append_nil _
  | cons first rest ih =>
      rw [List.cons_append, stream, stream, ih, List.append_assoc]
      rfl

/-- What was waiting and what was sent is what was received, in the same order,
and then what still waits. -/
theorem received_append_queued (session : Session World)
    (calls : List (Call World)) :
    session.received calls ++ (session.run calls).events.queued =
      session.events.queued ++ session.stream calls := by
  induction calls generalizing session with
  | nil => exact (List.append_nil _).symm
  | cons call rest ih =>
      have first := session.taken_append_queued call
      have later := ih (session.perform call)
      rw [received, run, List.foldl_cons, ← run, List.append_assoc, later,
        ← List.append_assoc, first, List.append_assoc, stream]

/-- The part of a call that can send reports. -/
def origin? (session : Session World) : Call World → Option Event.Origin
  | .messageField _ =>
    session.decoder.field.1.map fun call => .field call.meaning
  | .messageEnd => session.closing?.map fun (action, _) => .ending action
  | .projectileTrace _ _ _ _ => some .trace
  | .think _ => some .poll
  | .flushAllStats => some .request
  | _ => none

theorem origin_of_weaponSwitch {world : World} {tally : Tally}
    {slot : Slot} {record : WeaponRecord} {event : Event}
    (member : event ∈ (weaponSwitch world tally slot record).1.toList) :
    event.origin = .ending .weaponSwitch := by
  unfold weaponSwitch at member
  split at member
  · dsimp only at member
    split at member
    · rw [List.mem_singleton.mp member]
      rfl
    · exact absurd member List.not_mem_nil
  · exact absurd member List.not_mem_nil

theorem origin_of_resolution {resolution : Resolution} {event : Event}
    (member : event ∈ resolution.events) :
    event.origin = .ending .damage := by
  rcases List.mem_cons.mp member with rfl | death
  · rfl
  · unfold Resolution.deathEvent? at death
    split at death
    · rw [List.mem_singleton.mp death]
      rfl
    · exact absurd death List.not_mem_nil

theorem origin_of_endEvents {session : Session World} {slot : Slot}
    {action : EndAction} {event : Event}
    (member : event ∈ session.endEvents slot action) :
    event.origin = .ending action := by
  cases action with
  | weaponSwitch =>
      simp only [endEvents] at member
      split at member
      · exact absurd member List.not_mem_nil
      · exact origin_of_weaponSwitch member
  | damage =>
      simp only [endEvents] at member
      split at member
      · exact absurd member List.not_mem_nil
      · cases waiting : waitingBlow? session.world slot with
        | none =>
            rw [waiting] at member
            exact absurd member List.not_mem_nil
        | some blow =>
            rw [waiting] at member
            exact origin_of_resolution member
  | lifeReset => exact absurd member List.not_mem_nil
  | scopeCheck =>
      simp only [endEvents] at member
      split at member
      · exact absurd member List.not_mem_nil
      · rw [List.mem_singleton.mp member]
        rfl
  | objectToggle =>
      simp only [endEvents] at member
      split at member
      · exact absurd member List.not_mem_nil
      · obtain ⟨object, _, rfl⟩ := List.mem_map.mp member
        rfl

theorem origin_of_projectileTrace {attributor : Attributor} {now : Float32}
    {tally : Tally} {owner : Slot} {projectile : EntityHandle}
    {className : String} {position : Position} {event : Event}
    (member : event ∈ (Match.projectileTrace attributor now tally owner
      projectile className position).1.toList) :
    event.origin = .trace := by
  unfold Match.projectileTrace at member
  dsimp only at member
  split at member
  · exact absurd member List.not_mem_nil
  · rw [List.mem_singleton.mp member]
    rfl
  · rw [List.mem_singleton.mp member]
    rfl

/-- A report is sent by the part of a call from which it comes. -/
theorem origin?_of_sent {session : Session World} {call : Call World}
    {event : Event} (member : event ∈ session.sent call) :
    session.origin? call = some event.origin := by
  cases call with
  | messageField value =>
      simp only [sent] at member
      cases decoded : session.decoder.field.1 with
      | none =>
          rw [decoded] at member
          exact absurd member List.not_mem_nil
      | some call =>
          rw [decoded] at member
          rw [origin?, decoded, origin_of_fieldEvents member]
          rfl
  | messageEnd =>
      simp only [sent] at member
      cases closing : session.closing? with
      | none =>
          rw [closing] at member
          exact absurd member List.not_mem_nil
      | some closed =>
          rw [closing] at member
          rw [origin?, closing, origin_of_endEvents member]
          rfl
  | projectileTrace owner projectile className position =>
      simp only [sent] at member
      split at member
      · exact absurd member List.not_mem_nil
      · rw [origin_of_projectileTrace member]
        rfl
  | think slot =>
      simp only [sent] at member
      split at member
      · rw [List.mem_singleton.mp member]
        rfl
      · exact absurd member List.not_mem_nil
  | flushAllStats =>
      obtain ⟨slot, _, rfl⟩ := List.mem_map.mp member
      rfl
  | _ => exact absurd member List.not_mem_nil

/-- What is sent at an end is sent by the end of a message. -/
theorem closing?_of_ending {session : Session World} {call : Call World}
    {action : EndAction}
    (origin : session.origin? call = some (.ending action)) :
    call = .messageEnd ∧
    ∃ slot, session.closing? = some (action, slot) := by
  cases call with
  | messageField value =>
      obtain ⟨call, _, field⟩ := Option.map_eq_some_iff.mp origin
      contradiction
  | messageEnd =>
      obtain ⟨⟨closed, slot⟩, closing, same⟩ :=
        Option.map_eq_some_iff.mp origin
      exact ⟨rfl, slot, by rw [closing, Event.Origin.ending.inj same]⟩
  | _ => simp [origin?] at origin

theorem think_of_poll {session : Session World} {call : Call World}
    (origin : session.origin? call = some .poll) :
    ∃ slot, call = .think slot := by
  cases call with
  | messageField value =>
      obtain ⟨call, _, field⟩ := Option.map_eq_some_iff.mp origin
      contradiction
  | messageEnd =>
      obtain ⟨closed, _, ending⟩ := Option.map_eq_some_iff.mp origin
      contradiction
  | think slot => exact ⟨slot, rfl⟩
  | _ => simp [origin?] at origin

theorem sent_of_blow {session : Session World} {blow : Blow World}
    (found : session.blow? = some blow) :
    session.sent .messageEnd = (session.resolution blow).events := by
  obtain ⟨victim, damaged, waiting⟩ := Option.bind_eq_some_iff.mp found
  obtain ⟨closing, unpaused⟩ := closing?_of_damaged damaged
  simp [sent, closing, endEvents, unpaused, waiting]

/-- Only an end that records damage reports damage or a death. -/
theorem exists_blow_of_combat {session : Session World} {call : Call World}
    {event : Event} (member : event ∈ session.sent call)
    (combat : event.isCombat = true) :
    call = .messageEnd ∧ ∃ blow, session.blow? = some blow := by
  have origin := origin?_of_sent member
  rw [Event.origin_of_combat combat] at origin
  obtain ⟨rfl, victim, closing⟩ := closing?_of_ending origin
  refine ⟨rfl, ?_⟩
  simp only [sent, closing, Option.elim_some, endEvents] at member
  split at member
  · exact absurd member List.not_mem_nil
  · next unpaused =>
    have damaged :=
      damaged?_of_closing closing (Bool.not_eq_true _ ▸ unpaused)
    cases waiting : waitingBlow? session.world victim with
    | none =>
        rw [waiting] at member
        exact absurd member List.not_mem_nil
    | some blow => exact ⟨blow, by rw [blow?, damaged]; exact waiting⟩

end Session

end Fragboard.Match
