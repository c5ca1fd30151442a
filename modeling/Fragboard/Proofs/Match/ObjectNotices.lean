import Fragboard.Match.ScriptedWorld
import Fragboard.Proofs.Match.MessagesInFlight
import Fragboard.Proofs.Match.PlayerChanges

/-!
# Objects taken up and dropped

A field notes an object for its player, and the end of a message takes up or
drops what is noted.  `Session.pickup_noted` finds the field behind every report
of an object: the last that noted one for the player, with nothing taken up or
dropped since.

The note belongs to the player and not to the message, so it outlives a message
that never takes effect.  The report is due to a field of its own message exactly
if no message was started since the field; otherwise the field's message was
abandoned or ended without a live subject
(`Session.pickup_of_earlier_message`).
-/

namespace Fragboard.Match

open Message (FieldMeaning FieldValue EndAction MessageKind)

namespace Session

variable {World : Type} [GameWorld World]

/-- The call notes an object for a player: its field comes while the player is
the live subject and carries an object or is near one. -/
def notesObject (player : Slot) (session : Session World)
    (call : Call World) : Prop :=
  (∃ subject value, session.delivers call .objectName subject value ∧
    session.liveSubject subject = some player) ∧
  ((session.player player).carrying = true ∨
    (GameWorld.objectNear session.world player).isSome = true)

/-- The call takes up or drops what is noted for a player. -/
def togglesObject (player : Slot) (session : Session World)
    (call : Call World) : Prop :=
  call = .messageEnd ∧ session.closing? = some (.objectToggle, player)

/-- After the call nothing is noted for a player any more, or noted anew. -/
def settlesObject (player : Slot) (session : Session World)
    (call : Call World) : Prop :=
  call.turnsOver player = true ∨ session.togglesObject player call ∨
  session.notesObject player call

theorem toggle_of_sent {session : Session World} {call : Call World}
    {player : Slot} {object : EntityHandle} {position : Position}
    {carrying : Bool}
    (sent : .objectPickup player object position carrying ∈
      session.sent call) :
    session.togglesObject player call ∧
    (session.player player).objectForward = true := by
  obtain ⟨rfl, slot, closing⟩ := closing?_of_ending (origin?_of_sent sent)
  simp only [Session.sent, closing, Option.elim_some, endEvents] at sent
  split at sent
  · exact absurd sent List.not_mem_nil
  · next noted =>
    obtain ⟨taken, _, same⟩ := List.mem_map.mp sent
    obtain ⟨rfl, _⟩ := Event.objectPickup.inj same
    exact ⟨⟨rfl, closing⟩, by simpa using noted⟩

theorem noted_of_apply {state : PlayerState} {change : PlayerState.Change}
    (noted : (state.apply change).objectForward = true) :
    (∃ near, change = .note near ∧
      (state.carrying = true ∨ near.isSome = true)) ∨
    state.objectForward = true ∧ change.turnsOver = false ∧
      change ≠ .toggle := by
  cases change with
  | connect name unique => contradiction
  | leave => contradiction
  | note near =>
      by_cases carrying : state.carrying = true
      · exact .inl ⟨near, rfl, .inl carrying⟩
      · cases near with
        | none =>
            simp only [PlayerState.apply, if_neg carrying] at noted
            exact .inr ⟨noted, rfl, by simp⟩
        | some object => exact .inl ⟨some object, rfl, .inr rfl⟩
  | toggle =>
      simp only [PlayerState.apply] at noted
      split at noted
      · next idle => simp [noted] at idle
      · contradiction
  | _ => exact .inr ⟨noted, rfl, by simp⟩

/-- An object is noted for a connected player. -/
def noted (player : Slot) (session : Session World) : Prop :=
  (session.player player).connected = true ∧
  (session.player player).objectForward = true

theorem noted_perform {player : Slot} (session : Session World)
    (call : Call World) (noted : (session.perform call).noted player) :
    session.notesObject player call ∨
    session.noted player ∧ ¬session.settlesObject player call := by
  by_cases notes : session.notesObject player call
  · exact .inl notes
  rcases stood_of_perform (·.objectForward) (fun _ _ => rfl) noted_of_apply
      noted.1 noted.2 with
    ⟨change, makes, near, rfl, within⟩ | ⟨stood, stays, untoggled⟩
  · obtain ⟨subject, value, delivered, live, rfl⟩ := makes
    exact .inl ⟨⟨subject, value, delivered, live⟩, within⟩
  · refine .inr ⟨stood, ?_⟩
    rintro (turned | toggled | again)
    · rw [stays] at turned
      contradiction
    · exact untoggled toggled
    · exact notes again

theorem kind_of_objectName {kind : MessageKind} {position : Nat}
    (named : kind.schema.fields[position]? = some .objectName) :
    kind = .object := by
  have member := List.mem_of_getElem? named
  revert member
  cases kind <;> decide

theorem inFlight?_of_notes {session : Session World} {player : Slot}
    {call : Call World} (notes : session.notesObject player call) :
    call.boundsMessage = false ∧
    session.inFlight? = some (some .object, some player) := by
  obtain ⟨⟨subject, value, ⟨rfl, delivered⟩, live⟩, _⟩ := notes
  refine ⟨rfl, ?_⟩
  cases current : session.decoder.context with
  | none =>
      rw [(Message.Decoder.answers_of_idle current).1] at delivered
      contradiction
  | some context =>
      rw [Message.Decoder.field_of_context current] at delivered
      obtain ⟨meaning, found, same⟩ := Option.map_eq_some_iff.mp delivered
      obtain ⟨rfl, rfl⟩ := Message.Call.mk.inj same
      obtain ⟨kind, known, named⟩ := Option.bind_eq_some_iff.mp found
      rw [inFlight?, current, Option.map_some, known,
        kind_of_objectName named, (subject_of_live live).1]

/-- The end of a message about an object takes up or drops it, unless its
subject is no longer live. -/
theorem closing?_of_object {session : Session World} {player : Slot}
    (flying : session.inFlight? = some (some .object, some player)) :
    session.closing? = none ∨
    session.closing? = some (.objectToggle, player) := by
  obtain ⟨context, current, same⟩ := Option.map_eq_some_iff.mp flying
  obtain ⟨kind, subject⟩ := Prod.mk.inj same
  have ended : session.decoder.finish.1 =
      some { meaning := .objectToggle, subject := some player } := by
    rw [Message.Decoder.finish_of_context current, kind, subject]
    rfl
  rw [closing?, ended, Option.bind_some]
  cases live : session.liveSubject (some player) with
  | none => exact .inl rfl
  | some slot =>
      obtain rfl := Option.some.inj (subject_of_live live).1
      exact .inr rfl

theorem flying_of_closing {session : Session World} {action : EndAction}
    {slot : Slot} (closing : session.closing? = some (action, slot)) :
    session.inFlight?.isSome = true := by
  obtain ⟨call, ended, _⟩ := Option.bind_eq_some_iff.mp closing
  cases current : session.decoder.context with
  | none =>
      rw [(Message.Decoder.answers_of_idle current).2] at ended
      contradiction
  | some context =>
      rw [inFlight?, current]
      rfl

section Places

variable {start : Session World} {calls : List (Call World)} {player : Slot}

/-- Where no message was started since the last note, it is a field of the
message in flight. -/
theorem exists_note_in_message (message : MessageBegun start calls)
    (note : Since start (notesObject player) (settlesObject player) calls)
    (unstarted : ∀ next ∈ note.between, next.startsMessage = false) :
    ∃ first field rest, message.between = first ++ field :: rest ∧
      (start.run (message.before ++ message.call :: first)).notesObject player
        field := by
  have starts : message.call.startsMessage = true := message.set
  rcases places_cases (message.split.symm.trans note.split) with
    ⟨more, before, between⟩ | ⟨_, same, _⟩ | ⟨more, _, between⟩
  · exact ⟨more, note.call, note.between, between, before ▸ note.set⟩
  · have unbounded := (inFlight?_of_notes note.set).1
    rw [← same, Call.boundsMessage_of_starts starts] at unbounded
    contradiction
  · have inside : message.call ∈ note.between := by
      rw [between]
      exact List.mem_append_right _ List.mem_cons_self
    rw [unstarted _ inside] at starts
    contradiction

/-- After a field of the message in flight that notes an object no message was
started, and so none after the last note. -/
theorem unstarted_of_note_in_message (message : MessageBegun start calls)
    (note : Since start (notesObject player) (settlesObject player) calls)
    {first rest : List (Call World)} {field : Call World}
    (between : message.between = first ++ field :: rest)
    (notes : (start.run (message.before ++ message.call :: first)).notesObject
      player field) :
    ∀ next ∈ note.between, next.startsMessage = false := by
  have unbounded : ∀ next ∈ message.between, ¬next.boundsMessage = true :=
    message.forall_between fun _ _ bounds => bounds
  have later (next : Call World) (after : next ∈ rest) :
      next.startsMessage = false := by
    refine Bool.eq_false_iff.mpr fun starts => ?_
    refine unbounded next ?_ (Call.boundsMessage_of_starts starts)
    rw [between]
    exact List.mem_append_right _ (List.mem_cons_of_mem _ after)
  have split := message.split
  rw [between, ← List.cons_append, ← List.append_assoc] at split
  rcases places_cases (split.symm.trans note.split) with
    ⟨more, _, after⟩ | ⟨_, _, same⟩ | ⟨more, before, after⟩
  · intro next member
    refine later next ?_
    rw [after]
    exact List.mem_append_right _ (List.mem_cons_of_mem _ member)
  · rw [← same]
    exact later
  · rw [before] at notes
    exact absurd (.inr (.inr notes)) (note.kept more field rest after)

/-- The message of the last note was abandoned or ended without a live subject,
if it was cut off at all. -/
theorem cut_of_bounded
    (note : Since start (notesObject player) (settlesObject player) calls)
    {first rest : List (Call World)} {next : Call World}
    (between : note.between = first ++ next :: rest)
    (inside : ∀ other ∈ first, other.boundsMessage = false)
    (bounds : next.boundsMessage = true) :
    next.startsMessage = true ∨
    next = .messageEnd ∧
      (start.run (note.before ++ note.call :: first)).closing? = none := by
  cases next with
  | messageBegin id subject => exact .inl rfl
  | messageEnd =>
      refine .inr ⟨rfl, ?_⟩
      obtain ⟨unbounded, noted⟩ := inFlight?_of_notes note.set
      have flying : (start.run (note.before ++ note.call :: first)).inFlight? =
          some (some .object, some player) := by
        rw [run_append, inFlight?_run
          (List.forall_mem_cons.mpr ⟨unbounded, inside⟩), noted]
      refine (closing?_of_object flying).resolve_right fun closing => ?_
      exact note.kept first .messageEnd rest between
        (.inr (.inl ⟨rfl, closing⟩))
  | _ => exact absurd bounds Bool.false_ne_true

end Places

/-- Every report of an object is sent by the end of a message, and goes back to
the last field that noted an object for the player; nothing has been taken up or
dropped since.  The message at whose end the report is sent contains such a
field exactly if no message was started since the last one.  If one was, the
message of the last one was abandoned or ended without a live subject. -/
theorem pickup_noted (config : Config) (world : World) (points : PointTable)
    {calls : List (Call World)} {call : Call World} {player : Slot}
    {object : EntityHandle} {position : Position} {carrying : Bool}
    (sent : .objectPickup player object position carrying ∈
      ((Session.new config world points).run calls).sent call) :
    let start := Session.new config world points
    (start.run calls).togglesObject player call ∧
    ∃ (message : MessageBegun start calls)
      (note : Since start (notesObject player) (settlesObject player) calls),
      ((∃ first field rest, message.between = first ++ field :: rest ∧
          (start.run
            (message.before ++ message.call :: first)).notesObject player
              field) ↔
        ∀ next ∈ note.between, next.startsMessage = false) ∧
      ∀ first next rest, note.between = first ++ next :: rest →
        (∀ other ∈ first, other.boundsMessage = false) →
        next.boundsMessage = true →
        next.startsMessage = true ∨
        next = .messageEnd ∧
          (start.run (note.before ++ note.call :: first)).closing? = none := by
  intro start
  obtain ⟨toggles, forward⟩ := toggle_of_sent sent
  have closing := toggles.2
  have unnoted : ¬start.noted player := by
    rintro ⟨connected, _⟩
    rw [show start.player player = {} from player_new _ _ _ _] at connected
    contradiction
  obtain ⟨message⟩ :=
    exists_messageBegun config world points (flying_of_closing closing)
  obtain ⟨note⟩ := exists_since (noted player) unnoted
    (fun _ call => noted_perform _ call)
    ⟨connected_of_closing closing, forward⟩
  refine ⟨toggles, message, note, ⟨?_, exists_note_in_message message note⟩, ?_⟩
  · rintro ⟨first, field, rest, between, notes⟩
    exact unstarted_of_note_in_message message note between notes
  · intro first next rest between inside bounds
    exact cut_of_bounded note between inside bounds

/-- An object is placed within reach of the player on the first slot. -/
def objectInReach : List (Call ScriptedWorld) :=
  let slot : Slot := { index := 0 }
  [.register "Object" 73, .changeWorld fun world => (world.join slot 1).2,
    .connect slot "ann" "id:ann",
    .changeWorld fun world => (world.placeObject slot Position.origin).2]

/-- The engine starts a message about objects for that player. -/
def objectMessage : Call ScriptedWorld :=
  .messageBegin 73 (some { index := 1, generation := 0 })

/-- A message with a field about an object within reach takes it up. -/
theorem pickup_of_own_message :
    let slot : Slot := { index := 0 }
    let object : EntityHandle := { index := 33, generation := 0 }
    let calls := objectInReach ++ [objectMessage, .messageField (.text "flag")]
    let start := Session.new {} ScriptedWorld.empty PointTable.blank
    .objectPickup slot object Position.origin true ∈
      (start.run calls).sent .messageEnd ∧
    ∃ (message : MessageBegun start calls)
      (first rest : List (Call ScriptedWorld)) (field : Call ScriptedWorld),
      message.between = first ++ field :: rest ∧
      (start.run (message.before ++ message.call :: first)).notesObject slot
        field := by
  intro slot object calls start
  have sent : .objectPickup slot object Position.origin true ∈
      (start.run calls).sent .messageEnd := by
    decide +kernel
  obtain ⟨_, message, note, own, _⟩ :=
    pickup_noted {} ScriptedWorld.empty PointTable.blank sent
  have unstarted : ∀ next ∈ note.between, next.startsMessage = false := by
    rcases List.eq_nil_or_concat note.between with none | ⟨front, last, grown⟩
    · rw [none]
      exact fun _ member => absurd member List.not_mem_nil
    · obtain ⟨⟨_, value, ⟨field, _⟩, _⟩, _⟩ := note.set
      have split := note.split
      rw [grown, List.concat_eq_append, ← List.cons_append,
        ← List.append_assoc] at split
      have earlier : calls.dropLast = note.before ++ note.call :: front :=
        (congrArg List.dropLast split).trans List.dropLast_concat
      have member : .messageField value ∈ calls.dropLast := by
        rw [earlier, ← field]
        exact List.mem_append_right _ List.mem_cons_self
      simp [calls, objectInReach, objectMessage] at member
  obtain ⟨first, field, rest, between, notes⟩ := own.mpr unstarted
  exact ⟨sent, message, first, rest, field, between, notes⟩

/-- A message notes an object and ends while the player is out of the game.  The
next message takes the object up, though its own field finds nothing carried and
nothing within reach.  It is the same after a message that another one cuts off
before its end; then there need not be a field at all. -/
theorem pickup_of_earlier_message :
    let slot : Slot := { index := 0 }
    let object : EntityHandle := { index := 33, generation := 0 }
    let taken := Event.objectPickup slot object Position.origin true
    let field : Call ScriptedWorld := .messageField (.text "flag")
    let start := Session.new {} ScriptedWorld.empty PointTable.blank
    let ended := objectInReach ++ [objectMessage, field,
      .changeWorld (·.setInGame slot false)]
    let later := ended ++ [.messageEnd, .changeWorld (·.setInGame slot true),
      .changeWorld (·.setNear slot none), objectMessage]
    let abandoned := objectInReach ++ [objectMessage, field,
      .changeWorld (·.setNear slot none), objectMessage]
    (start.run ended).closing? = none ∧
    ((start.run later).player slot).carrying = false ∧
    GameWorld.objectNear (start.run later).world slot = none ∧
    (start.run (later ++ [field])).sent .messageEnd = [taken] ∧
    (start.run abandoned).sent .messageEnd = [taken] := by
  decide +kernel

end Session

end Fragboard.Match
