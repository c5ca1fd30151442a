import Fragboard.Proofs.Match.MessagesInFlight
import Fragboard.Proofs.Match.ScoreAnnouncements
import Fragboard.Proofs.Match.SessionTally
import Fragboard.Proofs.Match.WeaponTotals

/-!
# Points for objectives

A score that is written for a player counts with its difference to the one
before it, and while the match is paused it does not count at all.  So the
points that a player was given in objective messages are the sum of such
differences (`earned`), and as long as the match is not paused the sum is the
last score (`earned_of_unpaused`).

The points are measured by what each call of an objective message changes in a
counter of a scope, so it does not matter when a scope is cleared.
-/

namespace Fragboard.Match

open Message (Decoder FieldMeaning FieldValue MessageKind)

/-- A score that is written for a player. -/
structure ScoreWrite where
  score : Int32
  /-- The match is paused, so that the score is noted but does not count. -/
  paused : Bool
deriving DecidableEq

/-- What the scores count together, each against the one before it. -/
def earned (previous : Int32) : List ScoreWrite → Int
  | [] => 0
  | write :: rest =>
    (if write.paused then 0 else write.score.toInt - previous.toInt) +
      earned write.score rest

/-- The last score written, or else the one before. -/
def lastScore (previous : Int32) (writes : List ScoreWrite) : Int32 :=
  (writes.getLast?.map ScoreWrite.score).getD previous

theorem lastScore_cons (previous : Int32) (write : ScoreWrite)
    (rest : List ScoreWrite) :
    lastScore previous (write :: rest) = lastScore write.score rest := by
  rw [lastScore, List.getLast?_cons, lastScore]
  cases rest.getLast? <;> rfl

theorem earned_append (previous : Int32) (first rest : List ScoreWrite) :
    earned previous (first ++ rest) =
      earned previous first + earned (lastScore previous first) rest := by
  induction first generalizing previous with
  | nil => exact (Int.zero_add _).symm
  | cons write others ih =>
      rw [List.cons_append, earned, earned, ih, lastScore_cons, Int.add_assoc]

/-- The differences of scores that all count add up to the last score. -/
theorem earned_of_unpaused {previous : Int32} {writes : List ScoreWrite}
    (unpaused : ∀ write ∈ writes, write.paused = false) :
    earned previous writes =
      (lastScore previous writes).toInt - previous.toInt := by
  induction writes generalizing previous with
  | nil => exact (Int.sub_self _).symm
  | cons write rest ih =>
      obtain ⟨counts, others⟩ := List.forall_mem_cons.mp unpaused
      rw [earned, ih others, lastScore_cons, counts]
      simp only [Bool.false_eq_true, if_false]
      omega

theorem points_award_zero (points : Int32) :
    (StatBlock.zero.award points).get .points = points := by
  rw [StatBlock.award, StatBlock.get_add, if_pos rfl, StatBlock.get_zero,
    zero_satAdd]

/-- What is measured in a scope grows by the points that are noted in it. -/
def ScopeTally.SumsPoints (measure : ScopeTally → Int) : Prop :=
  ∀ (tally : ScopeTally) (recording : Recording),
    tally.NotesExactly recording →
    measure (tally.note recording) =
      measure tally + (recording.counts.get .points).toInt

theorem ScopeTally.sumsPoints_total :
    SumsPoints fun tally => (tally.total.get .points).toInt :=
  fun _ _ exact => exact.total.toInt_get .points

theorem ScopeTally.sumsPoints_weaponTotal :
    SumsPoints (·.weaponTotal .points) :=
  fun _ _ exact => weaponTotal_note exact.row .points

theorem scoreValue_mem_iff (kind : MessageKind) :
    .scoreValue ∈ kind.schema.fields ↔ kind = .objectiveScore := by
  cases kind <;> decide

namespace Session

variable {World : Type}

/-- The call goes on with an objective message, or ends it. -/
def inObjective (session : Session World) : Call World → Bool
  | .messageField _ | .messageEnd =>
    session.inFlight?.map Prod.fst = some (some .objectiveScore)
  | _ => false

theorem exists_context_of_inObjective {session : Session World}
    {call : Call World} (within : session.inObjective call = true) :
    ∃ context, session.decoder.context = some context ∧
      context.kind = some .objectiveScore := by
  have flying : session.inFlight?.map Prod.fst =
      some (some .objectiveScore) := by
    cases call with
    | messageField value => exact of_decide_eq_true within
    | messageEnd => exact of_decide_eq_true within
    | _ => contradiction
  rw [inFlight?, Option.map_map] at flying
  exact Option.map_eq_some_iff.mp flying

theorem field_of_inObjective {session : Session World} {value : FieldValue}
    (within : session.inObjective (.messageField value) = true) :
    ∀ field ∈ session.decoder.field.1,
      field.meaning = .scorePlayer ∨ field.meaning = .scoreValue := by
  intro field delivered
  obtain ⟨context, current, objective⟩ := exists_context_of_inObjective within
  rw [Decoder.field_of_context current, objective] at delivered
  obtain ⟨meaning, placed, rfl⟩ := Option.map_eq_some_iff.mp delivered
  have member : meaning ∈ MessageKind.objectiveScore.schema.fields :=
    List.mem_of_getElem? placed
  simpa [MessageKind.schema] using member

/-- What is recorded for a player with a new score. -/
def counted? (session : Session World) (player : Slot) (score : Int32) :
    Option Recording :=
  let delta := score - (session.player player).savedScore
  if (session.player player).connected ∧ delta ≠ 0 ∧
      !session.config.paused then
    some ⟨(session.tally.player player).held, StatBlock.zero.award delta⟩
  else
    none

theorem counted?_of_unpaused {session : Session World} {player : Slot}
    {score : Int32}
    (connected : (session.player player).connected = true)
    (unpaused : session.config.paused = false) :
    session.counted? player score =
      if score = (session.player player).savedScore then none
      else
        some ⟨(session.tally.player player).held,
          StatBlock.zero.award
            (score - (session.player player).savedScore)⟩ := by
  have unchanged : score - (session.player player).savedScore = 0 ↔
      score = (session.player player).savedScore := by
    rw [Int32.sub_eq_iff_eq_add, Int32.zero_add]
  simp [counted?, connected, unpaused, unchanged]

theorem scope_objectiveCalls (session : Session World) (slot : Slot)
    (score : Int32) (player : Slot) (scope : Scope) :
    ((session.tally.run (session.objectiveCalls slot score)).player
        player).scope scope =
      ((session.tally.player player).scope scope).noteAny
        (if slot = player then session.counted? player score else none) := by
  unfold objectiveCalls
  dsimp only
  split
  · next counts =>
    rw [Tally.run, List.foldl_cons, List.foldl_nil, Tally.perform,
      Tally.scope_awardObjective, Tally.recording?]
    split
    · next here =>
      obtain rfl := here
      rw [counted?, if_pos counts]
    · rfl
  · next idle =>
    rw [Tally.run_nil]
    split
    · next here =>
      obtain rfl := here
      rw [counted?, if_neg idle]
      rfl
    · rfl

variable [GameWorld World]

/-- The score that a call writes for a player, and whether it counts. -/
def scoreWrite? (session : Session World) (player : Slot)
    (call : Call World) : Option ScoreWrite :=
  (session.scoreWritten? player call).map fun score =>
    { score := score, paused := session.config.paused }

/-- The scores that some calls write for a player, the earliest first. -/
def scoreWrites (session : Session World) (player : Slot) :
    List (Call World) → List ScoreWrite
  | [] => []
  | call :: rest =>
    (session.scoreWrite? player call).toList ++
      (session.perform call).scoreWrites player rest

theorem scoresSince_eq (session : Session World) {player : Slot}
    (scores : List Int32) {calls : List (Call World)}
    (kept : ∀ call ∈ calls, call.turnsOver player = false) :
    session.scoresSince player scores calls =
      ((session.scoreWrites player calls).map ScoreWrite.score).reverse ++
        scores := by
  induction calls generalizing session scores with
  | nil => rfl
  | cons call rest ih =>
      obtain ⟨stays, others⟩ := List.forall_mem_cons.mp kept
      rw [scoresSince, ih _ _ others, scoresAfter, stays, scoreWrites,
        scoreWrite?]
      cases session.scoreWritten? player call <;> simp

theorem savedScore_run {session : Session World} {player : Slot}
    {scores : List Int32} (tells : (session.player player).Tells scores)
    {calls : List (Call World)}
    (kept : ∀ call ∈ calls, call.turnsOver player = false) :
    ((session.run calls).player player).savedScore =
      lastScore (session.player player).savedScore
        (session.scoreWrites player calls) := by
  rw [(tells_run tells calls).total, scoresSince_eq session scores kept,
    tells.total, List.headD_eq_head?_getD, List.head?_append,
    List.head?_reverse, List.getLast?_map, lastScore]
  cases (session.scoreWrites player calls).getLast? <;> simp

theorem inObjective_of_written {session : Session World} {player : Slot}
    {call : Call World} {score : Int32}
    (written : session.scoreWritten? player call = some score) :
    session.inObjective call = true := by
  obtain ⟨subject, value, ⟨rfl, delivered⟩, _⟩ :=
    scoreWritten?_eq_some_iff.mp written
  refine decide_eq_true ?_
  rw [inFlight?, Option.map_map]
  cases current : session.decoder.context with
  | none =>
      rw [(Decoder.answers_of_idle current).1] at delivered
      contradiction
  | some context =>
      rw [Decoder.field_of_context current] at delivered
      obtain ⟨meaning, field, same⟩ := Option.map_eq_some_iff.mp delivered
      obtain ⟨rfl, _⟩ := Message.Call.mk.inj same
      obtain ⟨kind, known, placed⟩ := Option.bind_eq_some_iff.mp field
      have objective := (scoreValue_mem_iff kind).mp
        (List.mem_of_getElem? placed)
      simp [known, objective]

/-- An objective message records what is due for a score and nothing else. -/
theorem scope_perform_of_inObjective {session : Session World}
    {call : Call World} (within : session.inObjective call = true)
    (player : Slot) (scope : Scope) :
    ((session.perform call).tally.player player).scope scope =
      ((session.tally.player player).scope scope).noteAny
        ((session.scoreWritten? player call).bind
          (session.counted? player)) := by
  rw [tally_perform]
  cases call with
  | messageEnd =>
      obtain ⟨context, current, objective⟩ :=
        exists_context_of_inObjective within
      have idle : session.closing? = none := by
        rw [closing?, Decoder.finish_of_context current, objective]
        rfl
      rw [tallyCalls, idle]
      rfl
  | messageField value =>
      simp only [tallyCalls, scoreWritten?]
      cases delivered : session.decoder.field.1 with
      | none => rfl
      | some field =>
          obtain ⟨meaning, subject⟩ := field
          rcases field_of_inObjective within _ delivered with rfl | rfl
          · rfl
          · simp only [Option.elim_some, fieldCalls, Option.map_some, true_and]
            cases named : session.draft.scorePlayer with
            | none => rfl
            | some slot =>
                cases scored : value.asInt with
                | none => simp [Tally.run_nil, ScopeTally.noteAny]
                | some score =>
                    rw [scope_objectiveCalls]
                    congr 1
                    by_cases here : slot = player
                    · obtain rfl := here
                      cases connected : (session.player slot).connected with
                      | false => simp [counted?, connected]
                      | true => simp
                    · simp [here]
  | _ => contradiction

/-- A score that counts differs from the one before it by what fits a word, and
the points of no scope stop at a bound. -/
def CountsExactly (session : Session World) (player : Slot)
    (call : Call World) : Prop :=
  ∀ score ∈ session.scoreWritten? player call,
    session.config.paused = false →
    (lowest ≤ score.toInt - (session.player player).savedScore.toInt ∧
      score.toInt - (session.player player).savedScore.toInt ≤ highest) ∧
    ∀ recording ∈ session.counted? player score, ∀ scope ∈ Scope.all,
      ((session.tally.player player).scope scope).NotesExactly recording

instance (session : Session World) (player : Slot) :
    DecidablePred (session.CountsExactly player) :=
  fun call => Option.decidableForallMem (session.scoreWritten? player call)

def AllCountExactly (session : Session World) (player : Slot) :
    List (Call World) → Prop
  | [] => True
  | call :: rest =>
    session.CountsExactly player call ∧
      (session.perform call).AllCountExactly player rest

instance decidableAllCountExactly :
    (session : Session World) → (player : Slot) →
      DecidablePred (session.AllCountExactly player)
  | _, _, [] => .isTrue trivial
  | session, player, call :: rest =>
    have := decidableAllCountExactly (session.perform call) player rest
    inferInstanceAs (Decidable (session.CountsExactly player call ∧
      (session.perform call).AllCountExactly player rest))

/-- What a call of an objective message adds to what is measured in a scope of a
player. -/
def objectiveGain (session : Session World) (player : Slot) (scope : Scope)
    (measure : ScopeTally → Int) (call : Call World) : Int :=
  if session.inObjective call then
    measure (((session.perform call).tally.player player).scope scope) -
      measure ((session.tally.player player).scope scope)
  else 0

def objectiveGains (session : Session World) (player : Slot) (scope : Scope)
    (measure : ScopeTally → Int) : List (Call World) → Int
  | [] => 0
  | call :: rest =>
    session.objectiveGain player scope measure call +
      (session.perform call).objectiveGains player scope measure rest

section Gains

variable {session : Session World} {player : Slot} {scope : Scope}
  {measure : ScopeTally → Int}

theorem objectiveGain_of_written (sums : ScopeTally.SumsPoints measure)
    {call : Call World} {score : Int32}
    (written : session.scoreWritten? player call = some score)
    (exact : session.CountsExactly player call) :
    session.objectiveGain player scope measure call =
      if session.config.paused then 0
      else score.toInt - (session.player player).savedScore.toInt := by
  have connected : (session.player player).connected = true :=
    (scoreWritten?_eq_some_iff.mp written).connected rfl
  have within := inObjective_of_written written
  rw [objectiveGain, if_pos within, scope_perform_of_inObjective within,
    written, Option.bind_some]
  cases paused : session.config.paused with
  | true => simp [counted?, paused, ScopeTally.noteAny]
  | false =>
      obtain ⟨⟨above, below⟩, notes⟩ := exact score written paused
      rw [counted?_of_unpaused connected paused] at notes ⊢
      by_cases same : score = (session.player player).savedScore
      · simp [same, ScopeTally.noteAny]
      · rw [if_neg same] at notes ⊢
        have points := sums _ _ (notes _ rfl scope scope.mem_all)
        rw [points_award_zero, toInt_sub_of_fits above below] at points
        simp only [ScopeTally.noteAny, points, Bool.false_eq_true, if_false]
        omega

theorem objectiveGain_eq_earned (sums : ScopeTally.SumsPoints measure)
    {call : Call World} (exact : session.CountsExactly player call) :
    session.objectiveGain player scope measure call =
      earned (session.player player).savedScore
        (session.scoreWrite? player call).toList := by
  rw [scoreWrite?]
  cases written : session.scoreWritten? player call with
  | none =>
      rw [objectiveGain]
      split
      · next within =>
        rw [scope_perform_of_inObjective within, written]
        exact Int.sub_self _
      · rfl
  | some score =>
      rw [objectiveGain_of_written sums written exact]
      exact (Int.add_zero _).symm

theorem objectiveGains_eq_earned (sums : ScopeTally.SumsPoints measure)
    {scores : List Int32} (tells : (session.player player).Tells scores)
    {calls : List (Call World)}
    (exact : session.AllCountExactly player calls)
    (kept : ∀ call ∈ calls, call.turnsOver player = false) :
    session.objectiveGains player scope measure calls =
      earned (session.player player).savedScore
        (session.scoreWrites player calls) := by
  induction calls generalizing session scores with
  | nil => rfl
  | cons call rest ih =>
      obtain ⟨first, others⟩ := List.forall_mem_cons.mp kept
      have saved : ((session.run [call]).player player).savedScore = _ :=
        savedScore_run tells (List.forall_mem_singleton.mpr first)
      rw [scoreWrites, scoreWrites, List.append_nil] at saved
      rw [objectiveGains, objectiveGain_eq_earned sums exact.1,
        ih (tells_perform tells call) exact.2 others, scoreWrites,
        earned_append, ← saved]
      rfl

end Gains

/-- For whoever is connected at the end of any calls, the saved score is the
last one that was written since the player connected, or zero.  What objective
messages added since then to the points of a scope, in its total and over its
weapon rows, is what the scores count against each other while the match is not
paused; and if it never was, that is the saved score. -/
theorem objective_points_telescope (config : Config) (world : World)
    (points : PointTable) {calls : List (Call World)} {player : Slot}
    (connected :
      (((new config world points).run calls).player player).connected =
        true) :
    let start := new config world points
    let saved := ((start.run calls).player player).savedScore
    Nonempty (Connection start player calls) ∧
    ∀ connection : Connection start player calls,
      let seated := start.run (connection.before ++ [connection.call])
      let writes := seated.scoreWrites player connection.between
      saved = (writes.getLast?.map ScoreWrite.score).getD 0 ∧
      (seated.AllCountExactly player connection.between → ∀ scope,
        (seated.objectiveGains player scope
            (fun tally => (tally.total.get .points).toInt)
            connection.between = earned 0 writes ∧
          seated.objectiveGains player scope (·.weaponTotal .points)
            connection.between = earned 0 writes) ∧
        ((∀ write ∈ writes, write.paused = false) →
          earned 0 writes = saved.toInt)) := by
  intro start saved
  refine ⟨exists_connection config world points connected, ?_⟩
  intro connection seated writes
  obtain ⟨name, unique, blank⟩ := connection.player_seated
  have fresh : (seated.player player).savedScore = 0 := by
    rw [show seated.player player = _ from blank]
  have tells : (seated.player player).Tells [] := by
    rw [show seated.player player = _ from blank]
    exact .of_fresh rfl rfl
  have whole : start.run calls = seated.run connection.between := by
    conv => lhs; rw [connection.split]
    rw [← List.singleton_append, ← List.append_assoc, run_append]
  have last : saved = lastScore 0 writes := by
    rw [← fresh, ← savedScore_run tells connection.unturned, ← whole]
  refine ⟨last, fun exact scope => ⟨⟨?_, ?_⟩, fun unpaused => ?_⟩⟩
  · rw [← fresh]
    exact objectiveGains_eq_earned ScopeTally.sumsPoints_total tells exact
      connection.unturned
  · rw [← fresh]
    exact objectiveGains_eq_earned ScopeTally.sumsPoints_weaponTotal tells
      exact connection.unturned
  · rw [earned_of_unpaused unpaused, last]
    exact Int.sub_zero _

/-- The score of 20 is written while the match is paused: it does not count, and
the next one counts against it. -/
theorem points_of_paused_score :
    let slot : Slot := { index := 0 }
    let before : List (Call ScriptedWorld) :=
      [.register "ObjScore" 65,
        .changeWorld fun world => (world.join slot 1).2]
    let between :=
      writesScore 5 ++ [.resetPlayerStats slot, .setPaused true] ++
        writesScore 20 ++ [.setPaused false] ++ writesScore 18
    let calls := before ++ .connect slot "ann" "id:ann" :: between
    let start := Session.new {} ScriptedWorld.empty PointTable.blank
    let seated := start.run (before ++ [.connect slot "ann" "id:ann"])
    ((start.run calls).player slot).connected = true ∧
    Nonempty (Connection start slot calls) ∧
    seated.AllCountExactly slot between ∧
    ((start.run calls).player slot).savedScore = 18 ∧
    seated.objectiveGains slot .session
      (fun tally => (tally.total.get .points).toInt) between = 3 := by
  intro slot before between calls start seated
  have connected : ((start.run calls).player slot).connected = true := by
    decide +kernel
  have exact : seated.AllCountExactly slot between := by decide +kernel
  have stays : ∀ call ∈ between, call.turnsOver slot = false := by
    decide +kernel
  let connection : Connection start slot calls :=
    { before := before
      call := .connect slot "ann" "id:ann"
      between := between
      split := rfl
      set := ⟨"ann", "id:ann", rfl⟩
      kept := fun first next rest split turned => by
        have member : next ∈ between := by
          rw [split]
          exact List.mem_append_right first List.mem_cons_self
        exact Bool.eq_false_iff.mp (stays next member) turned }
  have written : seated.scoreWrites slot between =
      [⟨5, false⟩, ⟨20, true⟩, ⟨18, false⟩] := by
    decide +kernel
  obtain ⟨seats, telescope⟩ := objective_points_telescope {}
    ScriptedWorld.empty PointTable.blank connected
  obtain ⟨saved, counted⟩ := telescope connection
  refine ⟨connected, seats, exact, ?_, ?_⟩
  · rw [saved, show seated.scoreWrites slot between = _ from written]
    rfl
  · rw [((counted exact .session).1).1, written]
    decide

end Session

end Fragboard.Match
