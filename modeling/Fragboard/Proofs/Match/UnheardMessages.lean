import Fragboard.Match.ScriptedWorld
import Fragboard.Proofs.Match.MessagesInFlight
import Fragboard.Proofs.Message.BoundNumbers

/-!
# Messages that nobody hears

What a session keeps of the message in flight is its `Reading`.  A message
without a binding changes nothing else, and neither does one that is about a
player while no such player is in the game.  The calls that come in between do
not look at the reading (`Session.perform_withReading`), so they do the same as
without the message (`Session.unheard_message_ignored`).
-/

namespace Fragboard.Match

open Message (Context Decoder EndAction FieldMeaning FieldValue IsMessageId
  MessageKind Registry)

/-- The message tells something about the player at whom it is aimed. -/
def aboutSubject : MessageKind → Bool
  | .currentWeapon | .health | .resetHud | .ammo | .ammoShort => true
  | .setFov | .object => true
  | _ => false

theorem eq_of_registry {decoder after : Decoder}
    (same : after.registry = decoder.registry) :
    after = { decoder with context := after.context } := by
  rw [← same]

/-- What a session keeps of the message in flight. -/
structure Reading where
  context : Option Context
  draft : MessageDraft
  subjectEntity : Option EntityHandle

namespace Session

variable {World : Type}

def reading (session : Session World) : Reading :=
  { context := session.decoder.context
    draft := session.draft
    subjectEntity := session.subjectEntity }

def withReading (session : Session World) (reading : Reading) :
    Session World :=
  { session with
    decoder := { session.decoder with context := reading.context }
    draft := reading.draft
    subjectEntity := reading.subjectEntity }

/-- All but what is read of the message in flight is the same. -/
structure SameButReading (before after : Session World) : Prop where
  config : after.config = before.config
  world : after.world = before.world
  registry : after.decoder.registry = before.decoder.registry
  attributor : after.attributor = before.attributor
  tally : after.tally = before.tally
  board : after.board = before.board
  events : after.events = before.events
  players : after.players = before.players
  teamScores : after.teamScores = before.teamScores
  matchId : after.matchId = before.matchId

theorem SameButReading.of_withReading (session : Session World)
    (reading : Reading) : session.SameButReading (session.withReading reading) :=
  ⟨rfl, rfl, rfl, rfl, rfl, rfl, rfl, rfl, rfl, rfl⟩

/-- A call that passes on a part of a message. -/
def Call.ofMessage : Call World → Bool
  | .messageBegin _ _ | .messageField _ | .messageEnd => true
  | _ => false

section Others

variable (session : Session World) (reading : Reading)

theorem emitAll_withReading (events : List Event) :
    (session.withReading reading).emitAll events =
      (session.emitAll events).withReading reading :=
  List.foldl_hom (withReading · reading) fun _ _ => rfl

theorem resetPlayerStats_withReading (slot : Slot) :
    (session.withReading reading).resetPlayerStats slot =
      (session.resetPlayerStats slot).withReading reading := by
  simp only [resetPlayerStats, apply_ite (withReading · reading)]
  rfl

theorem resetAllStats_withReading :
    (session.withReading reading).resetAllStats =
      session.resetAllStats.withReading reading :=
  List.foldl_hom (withReading · reading) fun session slot =>
    session.resetPlayerStats_withReading reading slot

theorem register_withReading (name : String) (id : Int32) :
    ((session.withReading reading).register name id).2 =
      (session.register name id).2.withReading reading :=
  rfl

theorem rename_withReading (slot : Slot) (name : String) :
    (session.withReading reading).rename slot name =
      (session.rename slot name).withReading reading := by
  have same : (session.withReading reading).config = session.config := rfl
  simp only [rename, same, apply_ite (withReading · reading)]
  cases session.config.rankBy <;> rfl

variable [GameWorld World]

theorem flushLife_withReading (slot : Slot) :
    (session.withReading reading).flushLife slot =
      (session.flushLife slot).withReading reading := by
  simp only [flushLife, apply_ite (withReading · reading)]
  rfl

theorem disconnect_withReading (slot : Slot) :
    (session.withReading reading).disconnect slot =
      (session.disconnect slot).withReading reading := by
  simp only [disconnect, flushLife_withReading,
    apply_ite (withReading · reading)]
  rfl

theorem projectileTrace_withReading (owner : Slot)
    (projectile : EntityHandle) (className : String) (position : Position) :
    (session.withReading reading).projectileTrace owner projectile className
        position =
      (session.projectileTrace owner projectile className
        position).withReading reading := by
  simp only [projectileTrace, apply_ite (withReading · reading),
    ← emitAll_withReading]
  rfl

theorem applyDue_withReading (slot : Slot) (due : DueClears) :
    (session.withReading reading).applyDue slot due =
      (session.applyDue slot due).withReading reading := by
  unfold applyDue
  cases due.life with
  | none => cases due.round <;> rfl
  | some full =>
      simp only [flushLife_withReading]
      cases due.round <;> rfl

theorem announceScore_withReading (slot : Slot) :
    (session.withReading reading).announceScore slot =
      (session.announceScore slot).withReading reading := by
  simp only [announceScore, apply_ite (withReading · reading)]
  rfl

theorem think_withReading (slot : Slot) :
    (session.withReading reading).think slot =
      (session.think slot).withReading reading := by
  let now := GameWorld.now session.world
  let polled := session.mapTally fun tally => (tally.takeDue slot now).2
  let due := (session.tally.takeDue slot now).1
  have announced :=
    (polled.applyDue slot due).announceScore_withReading reading slot
  rw [← applyDue_withReading] at announced
  simp only [think, apply_ite (withReading · reading)]
  exact congrArg (ite _ _) announced

theorem closeLife_withReading (slot : Slot) :
    (session.withReading reading).closeLife slot =
      (session.closeLife slot).withReading reading := by
  rw [closeLife, flushLife_withReading]
  rfl

theorem closeMatch_withReading :
    (session.withReading reading).closeMatch =
      session.closeMatch.withReading reading := by
  have same : (session.withReading reading).playing = session.playing := rfl
  have closed : session.playing.foldl closeLife
      (session.withReading reading) =
        (session.playing.foldl closeLife session).withReading reading :=
    List.foldl_hom (withReading · reading) fun session slot =>
      session.closeLife_withReading reading slot
  unfold closeMatch
  rw [same, closed]
  rfl

/-- A call that does not belong to a message does the same whatever was read of
the message in flight, and leaves it alone. -/
theorem perform_withReading {call : Call World}
    (other : call.ofMessage = false) :
    (session.withReading reading).perform call =
      (session.perform call).withReading reading := by
  cases call with
  | messageBegin id subject => contradiction
  | messageField value => contradiction
  | messageEnd => contradiction
  | register name id => exact session.register_withReading reading name id
  | disconnect slot => exact session.disconnect_withReading reading slot
  | rename slot name => exact session.rename_withReading reading slot name
  | projectileTrace owner projectile className position =>
      exact session.projectileTrace_withReading reading owner projectile
        className position
  | think slot => exact session.think_withReading reading slot
  | resetPlayerStats slot =>
      exact session.resetPlayerStats_withReading reading slot
  | resetAllStats => exact session.resetAllStats_withReading reading
  | flushAllStats =>
      exact session.emitAll_withReading reading _
  | teardown tree => exact session.closeMatch_withReading reading
  | teardownBackground saver => exact session.closeMatch_withReading reading
  | _ => rfl

end Others

/-- No entity was named or it is no player's, it does not exist any more, or its
player is not in the game or not connected. -/
def LacksSubject [GameWorld World] (session : Session World)
    (entity : Option EntityHandle) (slot : Option Slot) : Prop :=
  ∀ named ∈ entity, ∀ player ∈ slot,
    ¬(GameWorld.entityValid session.world named = true ∧
      session.isPlaying player = true)

/-- The message in flight has no binding, or is about a player who is not
there. -/
def Unheard [GameWorld World] (session : Session World) : Prop :=
  ∀ context ∈ session.decoder.context, ∀ kind ∈ context.kind,
    aboutSubject kind = true ∧
      session.LacksSubject session.subjectEntity context.subject

variable [GameWorld World]

theorem liveSubject_eq_none_iff {session : Session World}
    {slot : Option Slot} :
    session.liveSubject slot = none ↔
      session.LacksSubject session.subjectEntity slot := by
  unfold liveSubject LacksSubject
  cases session.subjectEntity with
  | none => simp
  | some entity => cases slot <;> simp

/-- Without a player, the fields of a message about a player are at most noted
for later ones. -/
theorem applyField_of_about (session : Session World) {kind : MessageKind}
    (about : aboutSubject kind = true) {meaning : FieldMeaning}
    (field : meaning ∈ kind.schema.fields) (int : Option Int32) :
    ∃ draft, session.applyField meaning none int =
      { session with draft := draft } := by
  have noted : meaning ∈ [FieldMeaning.switchFlag, .weaponNumber, .clip,
      .ammoSlot, .ammoAmount, .fieldOfView, .objectName] := by
    revert meaning
    cases kind with
    | currentWeapon => decide
    | health => decide
    | resetHud => decide
    | ammo => decide
    | ammoShort => decide
    | setFov => decide
    | object => decide
    | _ => contradiction
  cases meaning with
  | switchFlag => exact ⟨_, rfl⟩
  | weaponNumber => exact ⟨_, rfl⟩
  | clip => exact ⟨_, rfl⟩
  | ammoSlot => exact ⟨_, rfl⟩
  | ammoAmount => exact ⟨_, rfl⟩
  | fieldOfView => exact ⟨_, rfl⟩
  | objectName => exact ⟨_, rfl⟩
  | _ => simp at noted

theorem messageField_of_unheard {session : Session World}
    (unheard : session.Unheard) (value : FieldValue) :
    ∃ reading, session.messageField value = session.withReading reading ∧
      reading.subjectEntity = session.subjectEntity := by
  have decoded : session.decoder.field.2 =
      { session.decoder with context := session.decoder.field.2.context } :=
    eq_of_registry session.decoder.registry_field
  unfold messageField
  dsimp only
  cases current : session.decoder.context with
  | none =>
      rw [(Decoder.answers_of_idle current).1, decoded]
      exact ⟨⟨_, session.draft, _⟩, rfl, rfl⟩
  | some context =>
      rw [Decoder.field_of_context current, decoded]
      cases placed : context.kind.bind (·.schema.fields[context.position]?) with
      | none => exact ⟨⟨_, session.draft, _⟩, rfl, rfl⟩
      | some meaning =>
          obtain ⟨kind, known, field⟩ := Option.bind_eq_some_iff.mp placed
          obtain ⟨about, lacks⟩ := unheard context current kind known
          have nobody : session.liveSubject context.subject = none :=
            liveSubject_eq_none_iff.mpr lacks
          obtain ⟨draft, noted⟩ := applyField_of_about
            { session with
              decoder :=
                { session.decoder with
                  context := session.decoder.field.2.context } }
            about (List.mem_of_getElem? field) value.asInt
          refine ⟨⟨session.decoder.field.2.context, draft,
            session.subjectEntity⟩, ?_, rfl⟩
          exact (congrArg (applyField _ meaning · value.asInt) nobody).trans
            noted

theorem messageEnd_of_unheard {session : Session World}
    (unheard : session.Unheard) :
    ∃ reading, session.messageEnd = session.withReading reading := by
  have decoded : session.decoder.finish.2 =
      { session.decoder with context := session.decoder.finish.2.context } :=
    eq_of_registry session.decoder.registry_finish
  have idle : session.closing? = none := by
    rw [closing?]
    cases current : session.decoder.context with
    | none =>
        rw [(Decoder.answers_of_idle current).2]
        rfl
    | some context =>
        rw [Decoder.finish_of_context current]
        cases ended : context.kind.bind (·.schema.atEnd) with
        | none => rfl
        | some action =>
            obtain ⟨kind, known, _⟩ := Option.bind_eq_some_iff.mp ended
            obtain ⟨_, lacks⟩ := unheard context current kind known
            rw [Option.map_some, Option.bind_some,
              liveSubject_eq_none_iff.mpr lacks]
            rfl
  obtain ⟨entity, ended⟩ := messageEnd_of_idle idle
  rw [ended, decoded]
  exact ⟨⟨_, session.draft, entity⟩, rfl⟩

/-- There is no such subject whenever one of some calls passes on a part of the
message. -/
def LacksDuring (entity : Option EntityHandle) (slot : Option Slot) :
    Session World → List (Call World) → Prop
  | _, [] => True
  | session, call :: rest =>
    (call.ofMessage = true → session.LacksSubject entity slot) ∧
      LacksDuring entity slot (session.perform call) rest

theorem unheard_of_aimed {session : Session World}
    {bound : Option MessageKind} {entity : Option EntityHandle}
    {slot : Option Slot} {call : Call World} {rest : List (Call World)}
    (aimed : session.inFlight? = some (bound, slot))
    (named : session.subjectEntity = entity)
    (unheard : ∀ kind ∈ bound, aboutSubject kind = true ∧
      LacksDuring entity slot session (call :: rest))
    (part : call.ofMessage = true) : session.Unheard := by
  intro context current kind known
  rw [inFlight?, show session.decoder.context = some context from current,
    Option.map_some, Option.some_inj] at aimed
  obtain ⟨rfl, rfl⟩ := Prod.mk.inj aimed
  obtain ⟨about, lacks, _⟩ := unheard kind known
  rw [named]
  exact ⟨about, lacks part⟩

/-- The calls without those that pass on parts of messages. -/
def others (calls : List (Call World)) : List (Call World) :=
  calls.filter (!·.ofMessage)

theorem perform_of_unheard {session : Session World} {reading : Reading}
    {call : Call World} (inside : call.boundsMessage = false)
    (unheard : call.ofMessage = true →
      (session.withReading reading).Unheard) :
    ∃ next, (session.withReading reading).perform call =
        (session.run (others [call])).withReading next ∧
      next.subjectEntity = reading.subjectEntity := by
  cases part : call.ofMessage with
  | false =>
      rw [others, List.filter_cons_of_pos (by simp [part]), List.filter_nil]
      exact ⟨reading, session.perform_withReading reading part, rfl⟩
  | true =>
      rw [others, List.filter_cons_of_neg (by simp [part]), List.filter_nil]
      cases call with
      | messageField value =>
          exact messageField_of_unheard (unheard part) value
      | messageBegin id subject => contradiction
      | messageEnd => contradiction
      | _ => contradiction

instance (session : Session World) (entity : Option EntityHandle)
    (slot : Option Slot) : Decidable (session.LacksSubject entity slot) :=
  inferInstanceAs (Decidable (∀ _ ∈ _, ∀ _ ∈ _, ¬(_ ∧ _)))

instance decidableLacksDuring (entity : Option EntityHandle)
    (slot : Option Slot) :
    (session : Session World) → DecidablePred (LacksDuring entity slot session)
  | _, [] => .isTrue trivial
  | session, call :: rest =>
    have := decidableLacksDuring entity slot (session.perform call) rest
    inferInstanceAs (Decidable
      ((call.ofMessage = true → session.LacksSubject entity slot) ∧
        LacksDuring entity slot (session.perform call) rest))

/-- What comes after the start of a message that goes unheard. -/
theorem run_of_unheard {session : Session World} {reading : Reading}
    {bound : Option MessageKind} {entity : Option EntityHandle}
    {slot : Option Slot} {body : List (Call World)}
    (inside : ∀ call ∈ body, call.boundsMessage = false)
    (aimed : (session.withReading reading).inFlight? = some (bound, slot))
    (named : reading.subjectEntity = entity)
    (unheard : ∀ kind ∈ bound, aboutSubject kind = true ∧
      LacksDuring entity slot (session.withReading reading)
        (body ++ [.messageEnd])) :
    ∃ later, (session.withReading reading).run (body ++ [.messageEnd]) =
      (session.run (others body)).withReading later := by
  induction body generalizing session reading with
  | nil => exact messageEnd_of_unheard (unheard_of_aimed aimed named unheard rfl)
  | cons call rest ih =>
      obtain ⟨first, later⟩ := List.forall_mem_cons.mp inside
      obtain ⟨next, performed, kept⟩ :=
        perform_of_unheard first (unheard_of_aimed aimed named unheard)
      have still := (inFlight?_perform first).trans aimed
      rw [performed] at still
      have split : others (call :: rest) = others [call] ++ others rest :=
        List.filter_append [call] rest
      rw [split, session.run_append, List.cons_append, run, List.foldl_cons,
        ← run, performed]
      refine ih later still (kept.trans named) fun kind known => ?_
      obtain ⟨about, _, lacks⟩ := unheard kind known
      rw [performed] at lacks
      exact ⟨about, lacks⟩

/-- A message changes nothing, and what comes during it does the same as without
it, if its number is not bound or out of range, or if the message is about a
player and, whenever a field or the end of it comes, its subject is no player,
or one who is not connected or not in the game, or its entity does not exist any
more.  So if only fields come, all is as before.  Nothing of the message shows
in the next one. -/
theorem unheard_message_ignored (config : Config) (world : World)
    (points : PointTable) (before : List (Call World)) {id : Int32}
    {subject : Option EntityHandle} {body : List (Call World)}
    (inside : ∀ call ∈ body, call.boundsMessage = false)
    (unheard :
      let session := (new config world points).run before
      IsMessageId id →
      ∀ kind ∈ session.decoder.registry.kindOf? id,
        aboutSubject kind = true ∧
        LacksDuring subject
          (subject.bind (GameWorld.playerOf session.world))
          (session.perform (.messageBegin id subject))
          (body ++ [.messageEnd])) :
    let session := (new config world points).run before
    let after := session.run (.messageBegin id subject :: body ++ [.messageEnd])
    (session.run (others body)).SameButReading after ∧
    ((∀ call ∈ body, call.ofMessage = true) →
      session.SameButReading after) ∧
    ∀ next aimed, after.perform (.messageBegin next aimed) =
      (session.run (others body)).perform (.messageBegin next aimed) := by
  intro session after
  let slot := subject.bind (GameWorld.playerOf session.world)
  let bound := session.decoder.registry.kindOf? id
  let reading : Reading :=
    { context := some { kind := bound, subject := slot, position := 0 }
      draft := {}
      subjectEntity := subject }
  have heard : ∀ kind ∈ bound, aboutSubject kind = true ∧
      LacksDuring subject slot (session.withReading reading)
        (body ++ [.messageEnd]) := by
    intro kind known
    exact unheard (Registry.isMessageId_of_kindOf? known) kind known
  have aimed : (session.withReading reading).inFlight? = some (bound, slot) :=
    rfl
  have named : reading.subjectEntity = subject := rfl
  obtain ⟨later, ended⟩ := run_of_unheard inside aimed named heard
  have same : after = (session.run (others body)).withReading later := ended
  rw [same]
  refine ⟨.of_withReading _ later, fun fields => ?_, fun next aimed => rfl⟩
  have none_other : others body = [] :=
    List.filter_eq_nil_iff.mpr fun call member => by simp [fields call member]
  rw [none_other]
  exact .of_withReading session later

/-- The entity at which a field of view is aimed is freed before the field
comes. -/
theorem freed_subject_unheard :
    let ghost : Slot := { index := 0 }
    let entity : EntityHandle := { index := 1, generation := 0 }
    let before : List (Call ScriptedWorld) :=
      [.register "SetFOV" 70,
        .changeWorld fun world => (world.join ghost 1).2,
        .connect ghost "ghost" "u1"]
    let free : Call ScriptedWorld := .changeWorld (·.free entity)
    let session := (new {} ScriptedWorld.empty PointTable.blank).run before
    session.decoder.registry.kindOf? 70 = some .setFov ∧
    GameWorld.playerOf session.world entity = some ghost ∧
    (session.run [free]).SameButReading
      (session.run
        [.messageBegin 70 (some entity), free, .messageField (.int 20),
          .messageEnd]) := by
  intro ghost entity before free session
  have inside : ∀ call ∈ [free, .messageField (.int 20)],
      call.boundsMessage = false := by
    decide
  refine ⟨by decide +kernel, by decide +kernel, ?_⟩
  exact (unheard_message_ignored {} ScriptedWorld.empty PointTable.blank before
    inside (fun _ => by decide +kernel)).1

end Session

end Fragboard.Match
