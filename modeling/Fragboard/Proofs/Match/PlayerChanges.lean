import Fragboard.Proofs.Match.SessionEvents

/-!
# What a call changes of a player

A call changes what is noted of at most one player.  `Session.playerChange?` is
that change, and `Session.sameNotes_perform` says that there is no other.  The
row noted of a player is left out: it moves whenever a life is entered.

`Session.Makes` tells which calls make a change, and `Session.stood_of_perform`
where a note that stands after a call comes from.  A `Session.Connection` is what
came since a player sat down; the player's notes were blank then
(`Session.Since.player_seated`).
-/

namespace Fragboard.Match

open Message (FieldMeaning FieldValue EndAction)

/-- A change of what is noted of a player. -/
inductive PlayerState.Change where
  | connect (name unique : String)
  | leave
  | rename (name : String)
  /-- A score is written; a change of it is announced when due, if ever. -/
  | score (written : Int32) (due : Option Float32)
  | announce
  | look (fieldOfView : Int32)
  | zoom
  /-- The object within reach, or the one carried, is noted for a later end. -/
  | note (near : Option EntityHandle)
  | toggle

namespace PlayerState

/-- Somebody sits down or leaves. -/
def Change.turnsOver : Change → Bool
  | .connect _ _ | .leave => true
  | _ => false

def apply (state : PlayerState) : Change → PlayerState
  | .connect name unique =>
    { connected := true, name := name, unique := unique }
  | .leave => {}
  | .rename name => { state with name := name }
  | .score written due =>
    let delta := written - state.savedScore
    { state with
      lastDelta := delta
      savedScore := written
      announceAt :=
        if delta ≠ 0 ∧ due.isSome then due else state.announceAt }
  | .announce => { state with announceAt := none }
  | .look fieldOfView => { state with fieldOfView := fieldOfView }
  | .zoom => { state with zoomed := !Session.isPlainView state.fieldOfView }
  | .note near =>
    if state.carrying then { state with objectForward := true }
    else
      match near with
      | none => state
      | some object =>
        { state with object := some object, objectForward := true }
  | .toggle =>
    if !state.objectForward then state
    else
      { state with
        objectForward := false
        carrying := !state.carrying
        object := if !state.carrying then state.object else none }

/-- The same notes, up to the row. -/
def SameNotes (before after : PlayerState) : Prop :=
  ∃ kept, after = { before with rankId := kept }

theorem SameNotes.of_eq {before after : PlayerState} (same : after = before) :
    before.SameNotes after :=
  ⟨before.rankId, same⟩

theorem SameNotes.trans {first second third : PlayerState}
    (upper : first.SameNotes second) (lower : second.SameNotes third) :
    first.SameNotes third := by
  obtain ⟨_, rfl⟩ := upper
  obtain ⟨kept, rfl⟩ := lower
  exact ⟨kept, rfl⟩

/-- Changes do not look at the row. -/
theorem SameNotes.apply {before after : PlayerState}
    (same : before.SameNotes after) (change : Change) :
    (before.apply change).SameNotes (after.apply change) := by
  obtain ⟨kept, rfl⟩ := same
  cases change with
  | connect name unique => exact ⟨none, rfl⟩
  | leave => exact ⟨none, rfl⟩
  | note near =>
      refine ⟨kept, ?_⟩
      simp only [PlayerState.apply]
      split
      · rfl
      · split <;> rfl
  | toggle =>
      refine ⟨kept, ?_⟩
      simp only [PlayerState.apply]
      split <;> rfl
  | _ => exact ⟨kept, rfl⟩

end PlayerState

namespace Session

variable {World : Type}

theorem player_new (config : Config) (world : World) (points : PointTable)
    (slot : Slot) : (new config world points).player slot = {} :=
  Cells.get_fill _ _

theorem player_emitAll (session : Session World) (events : List Event)
    (slot : Slot) :
    (session.emitAll events).player slot = session.player slot := by
  induction events generalizing session with
  | nil => rfl
  | cons event events ih => exact ih (session.emit event)

theorem player_resetAllStats (session : Session World) (slot : Slot) :
    session.resetAllStats.player slot = session.player slot :=
  resetAllStats_part (·.player slot) (fun _ _ => rfl) session

/-- What is noted of a player after a change of some player, if there is
one. -/
def changed (session : Session World) (slot : Slot)
    (change? : Option (Slot × PlayerState.Change)) : PlayerState :=
  change?.elim (session.player slot) fun (other, change) =>
    if other = slot then (session.player other).apply change
    else session.player slot

theorem changed_some (session : Session World) (other slot : Slot)
    (change : PlayerState.Change) :
    session.changed slot (some (other, change)) =
      if other = slot then (session.player other).apply change
      else session.player slot :=
  rfl

theorem player_of_kept (session : Session World) (changed slot : Slot) :
    session.player slot =
      if changed = slot then session.player changed
      else session.player slot := by
  split
  · next here => rw [here]
  · rfl

theorem player_endScopeCheck (session : Session World) (checked slot : Slot) :
    (session.endScopeCheck checked).player slot =
      session.changed slot (some (checked, .zoom)) := by
  unfold endScopeCheck
  rw [changed_some, PlayerState.apply]
  dsimp only
  split
  · next same =>
    rw [same]
    exact session.player_of_kept checked slot
  · exact player_setPlayer _ _ _ _

variable [GameWorld World]

/-- When a change of score is to be announced; never while the match is
paused. -/
def scoreDue? (session : Session World) : Option Float32 :=
  if session.config.paused then none
  else some (GameWorld.now session.world + session.config.scoreNotifyDelay)

/-- Whom a field changes, and how. -/
def fieldChange? (session : Session World) (meaning : FieldMeaning)
    (subject : Option Slot) (int : Option Int32) :
    Option (Slot × PlayerState.Change) :=
  match meaning, int with
  | .scoreValue, some score =>
    (session.draft.scorePlayer.filter fun slot =>
      (session.player slot).connected).map (·, .score score session.scoreDue?)
  | .fieldOfView, some value => subject.map (·, .look value)
  | .objectName, _ =>
    subject.map fun slot =>
      (slot, .note (GameWorld.objectNear session.world slot))
  | _, _ => none

/-- What an end changes of its player. -/
def endChange? : EndAction → Option PlayerState.Change
  | .scopeCheck => some .zoom
  | .objectToggle => some .toggle
  | _ => none

/-- Whom a call changes, and how. -/
def playerChange? (session : Session World) :
    Call World → Option (Slot × PlayerState.Change)
  | .connect slot name unique => some (slot, .connect name unique)
  | .disconnect slot =>
    if (session.player slot).connected then some (slot, .leave) else none
  | .rename slot name =>
    if (session.player slot).connected then some (slot, .rename name) else none
  | .messageField value =>
    session.decoder.field.1.bind fun call =>
      session.fieldChange? call.meaning (session.liveSubject call.subject)
        value.asInt
  | .messageEnd =>
    session.closing?.bind fun (action, slot) =>
      (endChange? action).map (slot, ·)
  | .think slot =>
    if session.isPlaying slot ∧
        (session.player slot).announceAt.any
          (fun due => due ≤ GameWorld.now session.world) then
      some (slot, .announce)
    else
      none
  | _ => none

theorem player_objectiveScore (session : Session World) (scorer slot : Slot)
    (score : Int32) :
    (session.objectiveScore scorer score).player slot =
      session.changed slot
        (if (session.player scorer).connected then
          some (scorer, .score score session.scoreDue?)
        else none) := by
  unfold objectiveScore
  dsimp only
  by_cases connected : (session.player scorer).connected = true
  · rw [if_neg (by simp [connected]), if_pos connected, changed_some,
      PlayerState.apply]
    by_cases announced : score - (session.player scorer).savedScore ≠ 0 ∧
        (!session.config.paused) = true
    · have due : session.scoreDue? = some
          (GameWorld.now session.world + session.config.scoreNotifyDelay) := by
        simpa [scoreDue?] using announced.2
      have armed : score - (session.player scorer).savedScore ≠ 0 ∧
          session.scoreDue?.isSome = true :=
        ⟨announced.1, by rw [due]; rfl⟩
      rw [if_pos announced, if_pos armed, due]
      exact player_setPlayer _ _ _ _
    · have kept : ¬(score - (session.player scorer).savedScore ≠ 0 ∧
          session.scoreDue?.isSome = true) := by
        simpa [scoreDue?] using announced
      rw [if_neg announced, if_neg kept]
      exact player_setPlayer _ _ _ _
  · rw [if_pos (by simpa using connected), if_neg connected]
    rfl

theorem player_noteObject (session : Session World) (noted slot : Slot) :
    (session.noteObject noted).player slot =
      session.changed slot
        (some (noted, .note (GameWorld.objectNear session.world noted))) := by
  unfold noteObject
  rw [changed_some]
  dsimp only
  by_cases carrying : (session.player noted).carrying = true
  · simp only [PlayerState.apply, if_pos carrying]
    exact player_setPlayer _ _ _ _
  · simp only [PlayerState.apply, if_neg carrying]
    cases GameWorld.objectNear session.world noted with
    | none => exact session.player_of_kept noted slot
    | some object => exact player_setPlayer _ _ _ _

theorem player_applyField (session : Session World) (meaning : FieldMeaning)
    (subject : Option Slot) (int : Option Int32) (slot : Slot) :
    (session.applyField meaning subject int).player slot =
      session.changed slot (session.fieldChange? meaning subject int) := by
  cases meaning with
  | scoreValue =>
      simp only [applyField]
      cases int with
      | none => cases session.draft.scorePlayer <;> rfl
      | some score =>
          simp only [fieldChange?]
          cases session.draft.scorePlayer with
          | none => rfl
          | some scorer =>
              refine (session.player_objectiveScore scorer slot score).trans ?_
              rw [Option.filter_some]
              split <;> rfl
  | roundState =>
      simp only [applyField]
      split <;> rfl
  | teamScore =>
      simp only [applyField]
      split
      · unfold setTeamScore
        split <;> rfl
      · rfl
  | ammoAmount =>
      simp only [applyField]
      split
      · unfold setAmmo
        dsimp only
        split <;> rfl
      · rfl
  | fieldOfView =>
      cases int with
      | none => cases subject <;> rfl
      | some value =>
          cases subject with
          | none => rfl
          | some viewer => exact player_setPlayer _ _ _ _
  | objectName =>
      cases subject with
      | none => rfl
      | some noted => exact session.player_noteObject noted slot
  | statusPlayer =>
      simp only [applyField]
      split <;> rfl
  | _ => rfl

theorem player_endObjectToggle (session : Session World)
    (toggled slot : Slot) :
    (session.endObjectToggle toggled).player slot =
      session.changed slot (some (toggled, .toggle)) := by
  unfold endObjectToggle
  rw [changed_some, PlayerState.apply]
  dsimp only
  by_cases idle : (!(session.player toggled).objectForward) = true
  · rw [if_pos idle, if_pos idle]
    exact session.player_of_kept toggled slot
  · rw [if_neg idle, if_neg idle]
    split
    · exact player_setPlayer _ _ _ _
    · exact player_setPlayer _ _ _ _

theorem player_applyEnd (session : Session World) (action : EndAction)
    (closed slot : Slot) :
    (session.applyEnd action closed).player slot =
      session.changed slot ((endChange? action).map (closed, ·)) := by
  cases action with
  | weaponSwitch =>
      simp only [applyEnd, endWeaponSwitch]
      split
      · rfl
      · exact player_emitAll _ _ slot
  | damage =>
      simp only [applyEnd, endDamage]
      split
      · rfl
      · exact player_emitAll _ _ slot
  | lifeReset => rfl
  | scopeCheck => exact session.player_endScopeCheck closed slot
  | objectToggle => exact session.player_endObjectToggle closed slot

theorem sameNotes_flushLife (session : Session World) (flushed slot : Slot) :
    (session.player slot).SameNotes
      ((session.flushLife flushed).player slot) :=
  session.flushLife_player flushed slot

theorem sameNotes_closing (session : Session World) (closing : List Slot)
    (slot : Slot) :
    (session.player slot).SameNotes
      ((closing.foldl closeLife session).player slot) := by
  induction closing generalizing session with
  | nil => exact .of_eq rfl
  | cons closed closing ih =>
      have first : (session.player slot).SameNotes
          ((session.closeLife closed).player slot) :=
        session.sameNotes_flushLife closed slot
      exact first.trans (ih _)

theorem sameNotes_disconnect (session : Session World)
    (leaving slot : Slot) :
    (session.changed slot
        (session.playerChange? (.disconnect leaving))).SameNotes
      ((session.disconnect leaving).player slot) := by
  simp only [disconnect, playerChange?]
  split
  · rw [changed_some, player_setPlayer]
    split
    · exact .of_eq rfl
    · exact session.sameNotes_flushLife leaving slot
  · exact .of_eq rfl

theorem sameNotes_rename (session : Session World) (renamed slot : Slot)
    (name : String) :
    (session.changed slot
        (session.playerChange? (.rename renamed name))).SameNotes
      ((session.rename renamed name).player slot) := by
  simp only [rename, playerChange?]
  by_cases connected : (session.player renamed).connected = true
  · rw [if_pos connected, changed_some, PlayerState.apply]
    by_cases same : (!(session.player renamed).connected ||
        (session.player renamed).name == name) = true
    · have kept : (session.player renamed).name = name := by
        simpa [connected] using same
      rw [if_pos same, ← kept]
      exact .of_eq (session.player_of_kept renamed slot)
    · rw [if_neg same]
      cases session.config.rankBy with
      | name =>
          rw [player_setPlayer]
          split
          · exact ⟨none, rfl⟩
          · exact .of_eq rfl
      | unique => exact .of_eq (player_setPlayer _ _ _ _)
  · rw [if_neg connected, if_pos (by simp [connected])]
    exact .of_eq rfl

theorem player_announceScore (session : Session World) (polled slot : Slot) :
    (session.announceScore polled).player slot =
      session.changed slot
        (if (session.player polled).announceAt.any
            (fun due => due ≤ GameWorld.now session.world) then
          some (polled, .announce)
        else none) := by
  unfold announceScore
  dsimp only
  split
  · exact player_setPlayer _ _ _ _
  · rfl

theorem sameNotes_think (session : Session World) (polled slot : Slot) :
    (session.changed slot (session.playerChange? (.think polled))).SameNotes
      ((session.think polled).player slot) := by
  simp only [think, playerChange?]
  cases playing : session.isPlaying polled with
  | false => exact .of_eq rfl
  | true =>
      let taken := session.mapTally fun tally =>
        (tally.takeDue polled (GameWorld.now session.world)).2
      let due := (session.tally.takeDue polled (GameWorld.now session.world)).1
      let settled := taken.applyDue polled due
      have world : settled.world = session.world :=
        (taken.sameStage_applyDue polled due).world
      have same (any : Slot) :
          (session.player any).SameNotes (settled.player any) :=
        taken.applyDue_player polled any due
      have announceAt : (settled.player polled).announceAt =
          (session.player polled).announceAt := by
        obtain ⟨kept, state⟩ := same polled
        rw [state]
      have announced :
          (session.changed slot
              (if (session.player polled).announceAt.any
                  (fun due => due ≤ GameWorld.now session.world) then
                some (polled, .announce)
              else none)).SameNotes
            ((settled.announceScore polled).player slot) := by
        rw [player_announceScore, announceAt, world]
        split
        · rw [changed_some, changed_some]
          split
          · exact (same polled).apply .announce
          · exact same slot
        · exact same slot
      simp only [Bool.not_true, Bool.false_eq_true, if_false, true_and]
      exact announced

/-- A call makes its change, and up to the row it does nothing else to any
player. -/
theorem sameNotes_perform (session : Session World) (call : Call World)
    (slot : Slot) :
    (session.changed slot (session.playerChange? call)).SameNotes
      ((session.perform call).player slot) := by
  cases call with
  | register name id => exact .of_eq rfl
  | connect joined name unique => exact .of_eq (player_setPlayer _ _ _ _)
  | disconnect leaving => exact session.sameNotes_disconnect leaving slot
  | rename renamed name => exact session.sameNotes_rename renamed slot name
  | messageField value =>
      refine .of_eq ?_
      simp only [perform, messageField, playerChange?]
      cases session.decoder.field.1 with
      | none => rfl
      | some call =>
          exact player_applyField
            { session with decoder := session.decoder.field.2 } call.meaning
            (session.liveSubject call.subject) value.asInt slot
  | messageEnd =>
      refine .of_eq ?_
      simp only [perform, playerChange?]
      cases closing : session.closing? with
      | none =>
          obtain ⟨subject, ended⟩ := messageEnd_of_idle closing
          rw [ended]
          rfl
      | some closed =>
          rw [messageEnd_of_closing closing]
          exact player_applyEnd _ closed.1 closed.2 slot
  | projectileTrace owner projectile className position =>
      refine .of_eq ?_
      simp only [perform, projectileTrace]
      split
      · rfl
      · exact player_emitAll _ _ slot
  | think polled => exact session.sameNotes_think polled slot
  | resetPlayerStats reset =>
      refine .of_eq ?_
      simp only [perform, resetPlayerStats]
      split <;> rfl
  | resetAllStats => exact .of_eq (session.player_resetAllStats slot)
  | flushAllStats => exact .of_eq (session.player_emitAll _ slot)
  | teardown tree => exact session.sameNotes_closing session.playing slot
  | teardownBackground saver =>
      exact session.sameNotes_closing session.playing slot
  | _ => exact .of_eq rfl

/-- The field that a call delivers, with its value. -/
def delivers (session : Session World) (call : Call World)
    (meaning : FieldMeaning) (subject : Option Slot)
    (value : FieldValue) : Prop :=
  call = .messageField value ∧
  session.decoder.field.1 = some { meaning := meaning, subject := subject }

/-- The calls that make a change, and when they make it. -/
def Makes (session : Session World) (call : Call World) (slot : Slot) :
    PlayerState.Change → Prop
  | .connect name unique => call = .connect slot name unique
  | .leave =>
    call = .disconnect slot ∧ (session.player slot).connected = true
  | .rename name =>
    call = .rename slot name ∧ (session.player slot).connected = true
  | .score written due =>
    ∃ subject value, session.delivers call .scoreValue subject value ∧
      session.draft.scorePlayer = some slot ∧
      (session.player slot).connected = true ∧
      value.asInt = some written ∧ due = session.scoreDue?
  | .announce =>
    call = .think slot ∧ session.isPlaying slot = true ∧
    (session.player slot).announceAt.any
      (fun due => due ≤ GameWorld.now session.world) = true
  | .look fieldOfView =>
    ∃ subject value, session.delivers call .fieldOfView subject value ∧
      session.liveSubject subject = some slot ∧
      value.asInt = some fieldOfView
  | .zoom =>
    call = .messageEnd ∧ session.closing? = some (.scopeCheck, slot)
  | .note near =>
    ∃ subject value, session.delivers call .objectName subject value ∧
      session.liveSubject subject = some slot ∧
      near = GameWorld.objectNear session.world slot
  | .toggle =>
    call = .messageEnd ∧ session.closing? = some (.objectToggle, slot)

theorem makes_of_fieldChange {session : Session World} {value : FieldValue}
    {meaning : FieldMeaning} {subject : Option Slot} {slot : Slot}
    {change : PlayerState.Change}
    (delivered : session.decoder.field.1 =
      some { meaning := meaning, subject := subject })
    (made : session.fieldChange? meaning (session.liveSubject subject)
      value.asInt = some (slot, change)) :
    session.Makes (.messageField value) slot change := by
  cases meaning with
  | scoreValue =>
      cases scored : value.asInt with
      | none =>
          rw [scored] at made
          contradiction
      | some score =>
          rw [scored] at made
          obtain ⟨scorer, counted, same⟩ := Option.map_eq_some_iff.mp made
          obtain ⟨named, connected⟩ := Option.filter_eq_some_iff.mp counted
          obtain ⟨rfl, rfl⟩ := Prod.mk.inj same
          exact ⟨subject, value, ⟨rfl, delivered⟩, named, connected, scored,
            rfl⟩
  | fieldOfView =>
      cases viewed : value.asInt with
      | none =>
          rw [viewed] at made
          contradiction
      | some fieldOfView =>
          rw [viewed] at made
          obtain ⟨viewer, live, same⟩ := Option.map_eq_some_iff.mp made
          obtain ⟨rfl, rfl⟩ := Prod.mk.inj same
          exact ⟨subject, value, ⟨rfl, delivered⟩, live, viewed⟩
  | objectName =>
      obtain ⟨noted, live, same⟩ := Option.map_eq_some_iff.mp made
      obtain ⟨rfl, rfl⟩ := Prod.mk.inj same
      exact ⟨subject, value, ⟨rfl, delivered⟩, live, rfl⟩
  | _ => contradiction

theorem playerChange?_eq_some_iff {session : Session World}
    {call : Call World} {slot : Slot} {change : PlayerState.Change} :
    session.playerChange? call = some (slot, change) ↔
      session.Makes call slot change := by
  constructor
  · intro made
    cases call with
    | connect joined name unique =>
        obtain ⟨rfl, rfl⟩ := Prod.mk.inj (Option.some.inj made)
        rfl
    | disconnect leaving =>
        obtain ⟨connected, same⟩ := Option.ite_none_right_eq_some.mp made
        obtain ⟨rfl, rfl⟩ := Prod.mk.inj (Option.some.inj same)
        exact ⟨rfl, connected⟩
    | rename renamed name =>
        obtain ⟨connected, same⟩ := Option.ite_none_right_eq_some.mp made
        obtain ⟨rfl, rfl⟩ := Prod.mk.inj (Option.some.inj same)
        exact ⟨rfl, connected⟩
    | messageField value =>
        obtain ⟨_, delivered, noted⟩ := Option.bind_eq_some_iff.mp made
        exact makes_of_fieldChange delivered noted
    | messageEnd =>
        obtain ⟨⟨action, closed⟩, closing, ended⟩ :=
          Option.bind_eq_some_iff.mp made
        obtain ⟨done, asked, same⟩ := Option.map_eq_some_iff.mp ended
        obtain ⟨rfl, rfl⟩ := Prod.mk.inj same
        cases action with
        | scopeCheck =>
            obtain rfl := Option.some.inj asked
            exact ⟨rfl, closing⟩
        | objectToggle =>
            obtain rfl := Option.some.inj asked
            exact ⟨rfl, closing⟩
        | _ => contradiction
    | think polled =>
        obtain ⟨⟨playing, due⟩, same⟩ :=
          Option.ite_none_right_eq_some.mp made
        obtain ⟨rfl, rfl⟩ := Prod.mk.inj (Option.some.inj same)
        exact ⟨rfl, playing, due⟩
    | _ => contradiction
  · intro makes
    cases change with
    | connect name unique =>
        obtain rfl := makes
        rfl
    | leave =>
        obtain ⟨rfl, connected⟩ := makes
        exact if_pos connected
    | rename name =>
        obtain ⟨rfl, connected⟩ := makes
        exact if_pos connected
    | score written due =>
        obtain ⟨subject, value, ⟨rfl, delivered⟩, named, connected,
          scored, rfl⟩ := makes
        simp [playerChange?, delivered, fieldChange?, scored, named, connected]
    | announce =>
        obtain ⟨rfl, playing, due⟩ := makes
        exact if_pos ⟨playing, due⟩
    | look fieldOfView =>
        obtain ⟨subject, value, ⟨rfl, delivered⟩, live, viewed⟩ := makes
        simp [playerChange?, delivered, fieldChange?, live, viewed]
    | zoom =>
        obtain ⟨rfl, closing⟩ := makes
        rw [playerChange?, closing]
        rfl
    | note near =>
        obtain ⟨subject, value, ⟨rfl, delivered⟩, live, rfl⟩ := makes
        simp [playerChange?, delivered, fieldChange?, live]
    | toggle =>
        obtain ⟨rfl, closing⟩ := makes
        rw [playerChange?, closing]
        rfl

/-- What a call can do to a player. -/
theorem player_perform_cases (session : Session World) (call : Call World)
    (slot : Slot) :
    (∃ change, session.Makes call slot change ∧
      ((session.player slot).apply change).SameNotes
        ((session.perform call).player slot)) ∨
    (∀ change, ¬session.Makes call slot change) ∧
      (session.player slot).SameNotes
        ((session.perform call).player slot) := by
  have performed := session.sameNotes_perform call slot
  simp only [← playerChange?_eq_some_iff]
  cases made : session.playerChange? call with
  | none =>
      rw [made] at performed
      exact .inr ⟨fun change => by simp, performed⟩
  | some noted =>
      obtain ⟨other, change⟩ := noted
      rw [made, changed_some] at performed
      by_cases here : other = slot
      · subst here
        rw [if_pos rfl] at performed
        exact .inl ⟨change, rfl, performed⟩
      · rw [if_neg here] at performed
        refine .inr ⟨fun made same => here ?_, performed⟩
        exact congrArg Prod.fst (Option.some.inj same)

theorem subject_of_live {session : Session World} {subject : Option Slot}
    {slot : Slot} (live : session.liveSubject subject = some slot) :
    subject = some slot ∧ (session.player slot).connected = true := by
  unfold liveSubject at live
  split at live
  · contradiction
  · obtain ⟨same, playing⟩ := Option.filter_eq_some_iff.mp live
    simp only [isPlaying, Bool.and_eq_true] at playing
    exact ⟨same, playing.2.1⟩

theorem connected_of_closing {session : Session World} {action : EndAction}
    {slot : Slot} (closing : session.closing? = some (action, slot)) :
    (session.player slot).connected = true := by
  obtain ⟨ended, _, subject⟩ := Option.bind_eq_some_iff.mp closing
  obtain ⟨closed, live, same⟩ := Option.map_eq_some_iff.mp subject
  obtain ⟨_, rfl⟩ := Prod.mk.inj same
  exact (subject_of_live live).2

/-- Whoever is changed was connected, unless by connecting. -/
theorem Makes.connected {session : Session World} {call : Call World}
    {slot : Slot} {change : PlayerState.Change}
    (makes : session.Makes call slot change)
    (stays : change.turnsOver = false) :
    (session.player slot).connected = true := by
  cases change with
  | connect name unique => contradiction
  | leave => contradiction
  | rename name => exact makes.2
  | score written due =>
      obtain ⟨_, _, _, _, connected, _⟩ := makes
      exact connected
  | announce =>
      have playing := makes.2.1
      rw [isPlaying, Bool.and_eq_true] at playing
      exact playing.1
  | look fieldOfView =>
      obtain ⟨_, _, _, live, _⟩ := makes
      exact (subject_of_live live).2
  | zoom => exact connected_of_closing makes.2
  | note near =>
      obtain ⟨_, _, _, live, _⟩ := makes
      exact (subject_of_live live).2
  | toggle => exact connected_of_closing makes.2

theorem Makes.turnsOver {session : Session World} {call : Call World}
    {slot : Slot} {change : PlayerState.Change}
    (makes : session.Makes call slot change) :
    call.turnsOver slot = change.turnsOver := by
  cases change with
  | connect name unique =>
      obtain rfl := makes
      exact decide_eq_true rfl
  | leave =>
      obtain ⟨rfl, _⟩ := makes
      exact decide_eq_true rfl
  | rename name =>
      obtain ⟨rfl, _⟩ := makes
      rfl
  | score written due =>
      obtain ⟨_, _, ⟨rfl, _⟩, _⟩ := makes
      rfl
  | announce =>
      obtain ⟨rfl, _⟩ := makes
      rfl
  | look fieldOfView =>
      obtain ⟨_, _, ⟨rfl, _⟩, _⟩ := makes
      rfl
  | zoom =>
      obtain ⟨rfl, _⟩ := makes
      rfl
  | note near =>
      obtain ⟨_, _, ⟨rfl, _⟩, _⟩ := makes
      rfl
  | toggle =>
      obtain ⟨rfl, _⟩ := makes
      rfl

/-- A call makes at most one change. -/
theorem Makes.unique {session : Session World} {call : Call World}
    {slot : Slot} {first second : PlayerState.Change}
    (one : session.Makes call slot first)
    (other : session.Makes call slot second) : first = second := by
  have both := playerChange?_eq_some_iff.mpr other
  rw [playerChange?_eq_some_iff.mpr one, Option.some_inj] at both
  exact congrArg Prod.snd both

/-- While somebody sits on a slot, nobody sits down on it or leaves it but by a
change. -/
theorem turnsOver_of_unchanged {session : Session World} {call : Call World}
    {slot : Slot} (connected : (session.player slot).connected = true)
    (unchanged : ∀ change, ¬session.Makes call slot change) :
    call.turnsOver slot = false := by
  cases call with
  | connect joined name unique =>
      refine decide_eq_false ?_
      rintro rfl
      exact unchanged (.connect name unique) rfl
  | disconnect leaving =>
      refine decide_eq_false ?_
      rintro rfl
      exact unchanged .leave ⟨rfl, connected⟩
  | _ => rfl

/-- A note of somebody connected that stands after a call was raised by the
call, or it stood before and the call neither lowered it nor turned the slot
over. -/
theorem stood_of_perform (flag : PlayerState → Bool)
    {raises : PlayerState → PlayerState.Change → Prop}
    {lowering : PlayerState.Change}
    (same : ∀ state kept, flag { state with rankId := kept } = flag state)
    (apply : ∀ {state change}, flag (state.apply change) = true →
      raises state change ∨
      flag state = true ∧ change.turnsOver = false ∧ change ≠ lowering)
    {session : Session World} {call : Call World} {slot : Slot}
    (connected : ((session.perform call).player slot).connected = true)
    (stands : flag ((session.perform call).player slot) = true) :
    (∃ change, session.Makes call slot change ∧
      raises (session.player slot) change) ∨
    ((session.player slot).connected = true ∧
      flag (session.player slot) = true) ∧
    call.turnsOver slot = false ∧ ¬session.Makes call slot lowering := by
  rcases session.player_perform_cases call slot with
    ⟨change, makes, kept, noted⟩ | ⟨unchanged, kept, noted⟩
  · rw [noted, same] at stands
    rcases apply stands with raised | ⟨stood, stays, other⟩
    · exact .inl ⟨change, makes, raised⟩
    · refine .inr ⟨⟨makes.connected stays, stood⟩, ?_, ?_⟩
      · rw [makes.turnsOver, stays]
      · exact fun lowers => other (makes.unique lowers)
  · rw [noted] at connected
    rw [noted, same] at stands
    exact .inr ⟨⟨connected, stands⟩,
      turnsOver_of_unchanged connected unchanged, unchanged lowering⟩

/-- Somebody sits down on a slot. -/
def seats (player : Slot) (_ : Session World) (call : Call World) : Prop :=
  ∃ name unique, call = .connect player name unique

/-- The present connection of a player: who sits on the slot sat down, and
since then the slot was not turned over. -/
abbrev Connection (start : Session World) (player : Slot)
    (calls : List (Call World)) :=
  Since start (seats player) (fun _ call => call.turnsOver player = true) calls

theorem connected_of_apply {state : PlayerState} {change : PlayerState.Change}
    (connected : (state.apply change).connected = true) :
    (∃ name unique, change = .connect name unique) ∨
    state.connected = true ∧ change.turnsOver = false ∧ change ≠ .leave := by
  cases change with
  | connect name unique => exact .inl ⟨name, unique, rfl⟩
  | leave => contradiction
  | note near =>
      refine .inr ⟨?_, rfl, by simp⟩
      simp only [PlayerState.apply] at connected
      split at connected
      · exact connected
      · split at connected
        · exact connected
        · exact connected
  | toggle =>
      refine .inr ⟨?_, rfl, by simp⟩
      simp only [PlayerState.apply] at connected
      split at connected
      · exact connected
      · exact connected
  | _ => exact .inr ⟨connected, rfl, by simp⟩

theorem exists_connection (config : Config) (world : World)
    (points : PointTable) {calls : List (Call World)} {player : Slot}
    (connected :
      (((new config world points).run calls).player player).connected =
        true) :
    Nonempty (Connection (new config world points) player calls) := by
  have fresh : ¬((new config world points).player player).connected = true := by
    rw [player_new]
    exact Bool.false_ne_true
  refine exists_since (fun session => (session.player player).connected = true)
    fresh ?_ connected
  intro before call stands
  rcases stood_of_perform (·.connected) (fun _ _ => rfl) connected_of_apply
      stands stands with
    ⟨change, makes, name, unique, rfl⟩ | ⟨⟨stood, _⟩, stays, _⟩
  · exact .inl ⟨name, unique, makes⟩
  · exact .inr ⟨stood, by rw [stays]; exact Bool.false_ne_true⟩

/-- The notes of who has just sat down are blank. -/
theorem Since.player_seated {start : Session World} {player : Slot}
    {calls : List (Call World)} (connection : Connection start player calls) :
    ∃ name unique,
      (start.run (connection.before ++ [connection.call])).player player =
        { connected := true, name := name, unique := unique } := by
  obtain ⟨name, unique, seated⟩ := connection.set
  refine ⟨name, unique, ?_⟩
  rw [run_concat, seated]
  exact player_setPlayer_self _ _ _

theorem Since.unturned {start : Session World} {player : Slot}
    {calls : List (Call World)} (connection : Connection start player calls) :
    ∀ next ∈ connection.between, next.turnsOver player = false := by
  intro next member
  have stays := connection.forall_between (fun _ _ turned => turned) next member
  exact Bool.eq_false_iff.mpr stays

end Session

end Fragboard.Match
