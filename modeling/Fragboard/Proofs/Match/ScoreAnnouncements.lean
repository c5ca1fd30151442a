import Fragboard.Match.ScriptedWorld
import Fragboard.Proofs.Match.PlayerChanges

/-!
# Announcements of scores

A changed score is announced some time after the change, and what is announced
is the state of the score by then.  `Session.scores` are the scores that were
written for a player since it connected.  An announcement tells the last of them
and by how much it differs from the one before it (`Session.announced_scores`).

It goes back to a change of the score, but the score may have been written again
since.  Written anew without a change, it is announced with a difference of zero
(`Session.unchanged_score_announced`).
-/

namespace Fragboard.Match

open Message (FieldMeaning)

namespace PlayerState

/-- What the player's scores are after a change, the latest first. -/
def Change.scores (scores : List Int32) : Change → List Int32
  | .connect _ _ | .leave => []
  | .score written _ => written :: scores
  | _ => scores

/-- What is noted of a player tells the last score and its difference to the one
before it. -/
structure Tells (state : PlayerState) (scores : List Int32) : Prop where
  total : state.savedScore = scores.headD 0
  delta : state.lastDelta = scores.headD 0 - scores.tail.headD 0
  absent : state.connected = false → scores = []

variable {state : PlayerState} {scores : List Int32}

theorem Tells.sameNotes {after : PlayerState} (tells : state.Tells scores)
    (same : state.SameNotes after) : after.Tells scores := by
  obtain ⟨kept, rfl⟩ := same
  exact ⟨tells.total, tells.delta, tells.absent⟩

theorem Tells.of_fresh (total : state.savedScore = 0)
    (delta : state.lastDelta = 0) : state.Tells [] where
  total := total
  delta := delta.trans (by decide)
  absent := fun _ => rfl

theorem Tells.apply (tells : state.Tells scores) {change : Change}
    (connected : change.turnsOver = false → state.connected = true) :
    (state.apply change).Tells (change.scores scores) := by
  cases change with
  | connect name unique => exact .of_fresh rfl rfl
  | leave => exact .of_fresh rfl rfl
  | score written due =>
      refine ⟨rfl, ?_, fun absent => ?_⟩
      · exact congrArg (written - ·) tells.total
      · rw [PlayerState.apply, connected rfl] at absent
        contradiction
  | note near =>
      simp only [PlayerState.apply, Change.scores]
      split
      · exact ⟨tells.total, tells.delta, tells.absent⟩
      · split
        · exact tells
        · exact ⟨tells.total, tells.delta, tells.absent⟩
  | toggle =>
      simp only [PlayerState.apply, Change.scores]
      split
      · exact tells
      · exact ⟨tells.total, tells.delta, tells.absent⟩
  | _ => exact ⟨tells.total, tells.delta, tells.absent⟩

end PlayerState

namespace Session

variable {World : Type} [GameWorld World]

/-- The score that a call writes for a player. -/
def scoreWritten? (session : Session World) (player : Slot) :
    Call World → Option Int32
  | .messageField value =>
    if session.decoder.field.1.map (·.meaning) = some .scoreValue ∧
        session.draft.scorePlayer = some player ∧
        (session.player player).connected then
      value.asInt
    else
      none
  | _ => none

/-- What the scores of a player are after a call, the latest first. -/
def scoresAfter (session : Session World) (player : Slot)
    (scores : List Int32) (call : Call World) : List Int32 :=
  if call.turnsOver player then []
  else (session.scoreWritten? player call).toList ++ scores

/-- The scores written for a player by some calls, before those that there were
already. -/
def scoresSince (session : Session World) (player : Slot)
    (scores : List Int32) : List (Call World) → List Int32
  | [] => scores
  | call :: rest =>
    (session.perform call).scoresSince player
      (session.scoresAfter player scores call) rest

/-- The scores written for a player in the present connection, the latest
first. -/
def scores (start : Session World) (player : Slot)
    (calls : List (Call World)) : List Int32 :=
  start.scoresSince player [] calls

theorem scoresSince_append (session : Session World) (player : Slot)
    (scores : List Int32) (calls later : List (Call World)) :
    session.scoresSince player scores (calls ++ later) =
      (session.run calls).scoresSince player
        (session.scoresSince player scores calls) later := by
  induction calls generalizing session scores with
  | nil => rfl
  | cons call rest ih => exact ih _ _

/-- In one connection scores are only added. -/
theorem scoresSince_of_kept (session : Session World) {player : Slot}
    (scores : List Int32) {calls : List (Call World)}
    (kept : ∀ call ∈ calls, call.turnsOver player = false) :
    ∃ later, session.scoresSince player scores calls = later ++ scores := by
  induction calls generalizing session scores with
  | nil => exact ⟨[], rfl⟩
  | cons call rest ih =>
      obtain ⟨stays, others⟩ := List.forall_mem_cons.mp kept
      obtain ⟨later, written⟩ := ih (session.perform call)
        (session.scoresAfter player scores call) others
      refine ⟨later ++ (session.scoreWritten? player call).toList, ?_⟩
      rw [scoresSince, written, scoresAfter, stays]
      simp

theorem scoreWritten?_eq_some_iff {session : Session World} {player : Slot}
    {call : Call World} {score : Int32} :
    session.scoreWritten? player call = some score ↔
      session.Makes call player (.score score session.scoreDue?) := by
  constructor
  · intro written
    cases call with
    | messageField value =>
        obtain ⟨⟨delivered, named, connected⟩, scored⟩ :=
          Option.ite_none_right_eq_some.mp written
        obtain ⟨⟨meaning, subject⟩, decoded, rfl⟩ :=
          Option.map_eq_some_iff.mp delivered
        exact ⟨subject, value, ⟨rfl, decoded⟩, named, connected, scored, rfl⟩
    | _ => contradiction
  · rintro ⟨subject, value, ⟨rfl, delivered⟩, named, connected, scored, _⟩
    rw [scoreWritten?, delivered, if_pos ⟨rfl, named, connected⟩, scored]

theorem scoresAfter_of_makes {session : Session World} {player : Slot}
    {call : Call World} {change : PlayerState.Change}
    (makes : session.Makes call player change) (scores : List Int32) :
    session.scoresAfter player scores call = change.scores scores := by
  rw [scoresAfter, makes.turnsOver]
  have other (unwritten : ∀ score due, change ≠ .score score due) :
      session.scoreWritten? player call = none := by
    refine Option.eq_none_iff_forall_ne_some.mpr ?_
    intro score written
    exact unwritten _ _ (makes.unique (scoreWritten?_eq_some_iff.mp written))
  cases change with
  | connect name unique => rfl
  | leave => rfl
  | score written due =>
      obtain ⟨_, _, _, _, _, _, rfl⟩ := id makes
      rw [scoreWritten?_eq_some_iff.mpr makes]
      rfl
  | _ =>
      rw [other (by intros; simp)]
      rfl

theorem tells_perform {session : Session World} {player : Slot}
    {scores : List Int32} (tells : (session.player player).Tells scores)
    (call : Call World) :
    ((session.perform call).player player).Tells
      (session.scoresAfter player scores call) := by
  rcases session.player_perform_cases call player with
    ⟨change, makes, same⟩ | ⟨unchanged, same⟩
  · rw [scoresAfter_of_makes makes]
    exact (tells.apply makes.connected).sameNotes same
  · have unwritten : session.scoreWritten? player call = none := by
      refine Option.eq_none_iff_forall_ne_some.mpr ?_
      intro score written
      exact unchanged _ (scoreWritten?_eq_some_iff.mp written)
    have kept : session.scoresAfter player scores call = scores := by
      rw [scoresAfter, unwritten]
      cases connected : (session.player player).connected with
      | false =>
          rw [tells.absent connected]
          split <;> rfl
      | true =>
          rw [turnsOver_of_unchanged connected unchanged]
          rfl
    rw [kept]
    exact tells.sameNotes same

theorem tells_run {session : Session World} {player : Slot}
    {scores : List Int32} (tells : (session.player player).Tells scores)
    (calls : List (Call World)) :
    ((session.run calls).player player).Tells
      (session.scoresSince player scores calls) := by
  induction calls generalizing session scores with
  | nil => exact tells
  | cons call rest ih => exact ih (tells_perform tells call)

/-- A score that is written stands below all that are written later. -/
theorem scores_of_written (start : Session World) {player : Slot}
    {before between : List (Call World)} {call : Call World} {score : Int32}
    (written : (start.run before).scoreWritten? player call = some score)
    (stays : ∀ next ∈ between, ¬next.turnsOver player = true) :
    ∃ later, start.scores player (before ++ call :: between) =
      later ++ score :: start.scores player before := by
  have first := scoresAfter_of_makes (scoreWritten?_eq_some_iff.mp written)
    (start.scores player before)
  obtain ⟨later, added⟩ :=
    ((start.run before).perform call).scoresSince_of_kept
      (score :: start.scores player before)
      fun next member => Bool.eq_false_iff.mpr (stays next member)
  refine ⟨later, ?_⟩
  rw [← added, scores, scoresSince_append, scoresSince]
  exact congrArg (fun scores => scoresSince _ player scores between) first

/-- The call changes the score of a player, and the change is to be
announced. -/
def changesScore (player : Slot) (session : Session World)
    (call : Call World) : Prop :=
  ∃ score, session.scoreWritten? player call = some score ∧
    score ≠ (session.player player).savedScore ∧
    session.config.paused = false

/-- After the call there is nothing left to announce for a player, or another
change. -/
def settlesScore (player : Slot) (session : Session World)
    (call : Call World) : Prop :=
  call.turnsOver player = true ∨
  (∃ delta total, .score player delta total ∈ session.sent call) ∨
  session.changesScore player call

theorem announce_of_sent {session : Session World} {call : Call World}
    {player : Slot} {delta total : Int32}
    (sent : .score player delta total ∈ session.sent call) :
    session.Makes call player .announce ∧
    delta = (session.player player).lastDelta ∧
    total = (session.player player).savedScore := by
  obtain ⟨polled, rfl⟩ := think_of_poll (origin?_of_sent sent)
  simp only [Session.sent] at sent
  split at sent
  · next announced =>
    obtain ⟨rfl, rfl, rfl⟩ := Event.score.inj (List.mem_singleton.mp sent)
    rw [Bool.and_eq_true] at announced
    exact ⟨⟨rfl, announced⟩, rfl, rfl⟩
  · exact absurd sent List.not_mem_nil

theorem armed_of_apply {state : PlayerState} {change : PlayerState.Change}
    (armed : (state.apply change).announceAt.isSome = true) :
    (∃ written due, change = .score written due ∧
      written ≠ state.savedScore ∧ due.isSome = true) ∨
    state.announceAt.isSome = true ∧ change.turnsOver = false ∧
      change ≠ .announce := by
  cases change with
  | connect name unique => contradiction
  | leave => contradiction
  | announce => contradiction
  | score written due =>
      by_cases announced : written - state.savedScore ≠ 0 ∧ due.isSome = true
      · refine .inl ⟨written, due, rfl, ?_, announced.2⟩
        rintro rfl
        exact announced.1 (Int32.sub_self _)
      · rw [PlayerState.apply, if_neg announced] at armed
        exact .inr ⟨armed, rfl, by simp⟩
  | note near =>
      refine .inr ⟨?_, rfl, by simp⟩
      simp only [PlayerState.apply] at armed
      split at armed
      · exact armed
      · split at armed
        · exact armed
        · exact armed
  | toggle =>
      refine .inr ⟨?_, rfl, by simp⟩
      simp only [PlayerState.apply] at armed
      split at armed
      · exact armed
      · exact armed
  | _ => exact .inr ⟨armed, rfl, by simp⟩

/-- A score of a connected player is to be announced. -/
def armed (player : Slot) (session : Session World) : Prop :=
  (session.player player).connected = true ∧
  (session.player player).announceAt.isSome = true

theorem armed_perform {player : Slot} (session : Session World)
    (call : Call World) (armed : (session.perform call).armed player) :
    session.changesScore player call ∨
    session.armed player ∧ ¬session.settlesScore player call := by
  by_cases changes : session.changesScore player call
  · exact .inl changes
  rcases stood_of_perform (·.announceAt.isSome) (fun _ _ => rfl)
      armed_of_apply armed.1 armed.2 with
    ⟨change, makes, written, due, rfl, changed, unpaused⟩ |
    ⟨stood, stays, silent⟩
  · obtain ⟨_, _, _, _, _, _, rfl⟩ := id makes
    refine .inl ⟨written, scoreWritten?_eq_some_iff.mpr makes, changed, ?_⟩
    simpa [scoreDue?] using unpaused
  · refine .inr ⟨stood, ?_⟩
    rintro (turned | ⟨delta, total, sent⟩ | again)
    · rw [stays] at turned
      contradiction
    · exact silent (announce_of_sent sent).1
    · exact changes again

/-- After a change the difference comes to zero if the score is written again
as it stands, and in no other way. -/
theorem difference_eq_zero_iff {later stood : List Int32}
    {changed total : Int32} (changes : changed ≠ stood.headD 0)
    (last : (later ++ changed :: stood).head? = some total) :
    total - (later ++ changed :: stood).tail.headD 0 = 0 ↔
      later ≠ [] ∧ (later ++ changed :: stood).tail.head? = some total := by
  rw [Int32.sub_eq_iff_eq_add, Int32.zero_add]
  cases later with
  | nil =>
      obtain rfl := Option.some.inj last
      simpa using changes
  | cons written others =>
      obtain rfl := Option.some.inj last
      cases others with
      | nil => simp [eq_comm]
      | cons next rest => simp [eq_comm]

/-- Every announcement tells the last score that was written for the player in
the present connection, and by how much it differs from the one before it.  It
goes back to a change of the score, since when nothing was announced.  The
difference is zero exactly if the score was written again after that change, at
last without changing it. -/
theorem announced_scores (config : Config) (world : World)
    (points : PointTable) {calls : List (Call World)} {call : Call World}
    {player : Slot} {delta total : Int32}
    (sent : .score player delta total ∈
      ((Session.new config world points).run calls).sent call) :
    let start := Session.new config world points
    let scores := start.scores player calls
    call = .think player ∧
    scores.head? = some total ∧ delta = total - scores.tail.headD 0 ∧
    ∃ (change : Since start (changesScore player) (settlesScore player) calls)
      (changed : Int32) (later : List Int32),
      let stood := start.scores player change.before
      (start.run change.before).scoreWritten? player change.call =
        some changed ∧
      changed ≠ stood.headD 0 ∧
      scores = later ++ changed :: stood ∧
      (delta = 0 ↔ later ≠ [] ∧ scores.tail.head? = some total) := by
  intro start scores
  have fresh : (start.player player).Tells [] := by
    rw [show start.player player = {} from player_new _ _ _ _]
    exact .of_fresh rfl rfl
  have tells : ((start.run calls).player player).Tells scores :=
    tells_run fresh calls
  obtain ⟨makes, difference, sum⟩ := announce_of_sent sent
  have unarmed : ¬start.armed player := by
    rintro ⟨connected, _⟩
    rw [show start.player player = {} from player_new _ _ _ _] at connected
    contradiction
  have waits : (start.run calls).armed player := by
    exact ⟨makes.connected rfl, Option.isSome_of_any makes.2.2⟩
  obtain ⟨change⟩ := exists_since (armed player) unarmed
    (fun _ call => armed_perform _ call) waits
  obtain ⟨changed, written, differs, _⟩ := change.set
  have changes : changed ≠ (start.scores player change.before).headD 0 := by
    have told : ((start.run change.before).player player).Tells
        (start.scores player change.before) :=
      tells_run fresh change.before
    rw [← told.total]
    exact differs
  obtain ⟨later, grown⟩ : ∃ later, scores =
      later ++ changed :: start.scores player change.before := by
    have stays := change.forall_between fun _ _ turned => Or.inl turned
    obtain ⟨later, grown⟩ := start.scores_of_written written stays
    rw [← change.split] at grown
    exact ⟨later, grown⟩
  have last : scores.head? = some total := by
    rw [sum, tells.total, grown]
    cases later <;> rfl
  have apart : delta = total - scores.tail.headD 0 := by
    rw [difference, tells.delta, sum, tells.total]
  refine ⟨makes.1, last, apart, change, changed, later, written, changes,
    grown, ?_⟩
  rw [apart, grown]
  exact difference_eq_zero_iff changes (grown ▸ last)

/-- The engine writes a score for the player on the first slot. -/
def writesScore (score : Int32) : List (Call ScriptedWorld) :=
  [.messageBegin 65 none, .messageField (.int 1), .messageField (.int score),
    .messageEnd]

/-- Two changes that come soon after one another are announced at once, with the
second one's difference. -/
theorem changes_announced_at_once :
    let slot : Slot := { index := 0 }
    let calls : List (Call ScriptedWorld) :=
      [.register "ObjScore" 65,
        .changeWorld fun world => (world.join slot 1).2,
        .connect slot "ann" "id:ann"] ++
      writesScore 5 ++ writesScore 7 ++ [.changeWorld (·.advance 1)]
    let start := Session.new {} ScriptedWorld.empty PointTable.blank
    .score slot 2 7 ∈ (start.run calls).sent (.think slot) ∧
    ∃ (change : Since start (changesScore slot) (settlesScore slot) calls)
      (changed : Int32) (later : List Int32),
      (start.run change.before).scoreWritten? slot change.call =
        some changed ∧
      later ++ changed :: start.scores slot change.before = [7, 5] := by
  intro slot calls start
  have sent : .score slot 2 7 ∈ (start.run calls).sent (.think slot) := by
    decide +kernel
  have written : start.scores slot calls = [7, 5] := by decide +kernel
  obtain ⟨_, _, _, change, changed, later, set, _, grown, _⟩ :=
    announced_scores {} ScriptedWorld.empty PointTable.blank sent
  exact ⟨sent, change, changed, later, set, grown.symm.trans written⟩

/-- The score is written again as it stands before its change is announced: the
announcement tells a difference of zero. -/
theorem unchanged_score_announced :
    let slot : Slot := { index := 0 }
    let calls : List (Call ScriptedWorld) :=
      [.register "ObjScore" 65,
        .changeWorld fun world => (world.join slot 1).2,
        .connect slot "ann" "id:ann"] ++
      writesScore 5 ++ writesScore 5 ++ [.changeWorld (·.advance 1)]
    let start := Session.new {} ScriptedWorld.empty PointTable.blank
    start.scores slot calls = [5, 5] ∧
    (start.run calls).sent (.think slot) = [.score slot 0 5] := by
  decide +kernel

end Session

end Fragboard.Match
