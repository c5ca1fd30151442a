import Fragboard.Proofs.Match.DeathCounts
import Fragboard.Proofs.Match.ScriptedMatch
import Fragboard.Proofs.Match.SessionTally

/-!
# What is reported of damage and what is recorded of it

Damage that waits for a player is reported at most once, a death right after the
damage that brought it, and a death counts exactly where it is reported
(`Session.notices_match_records`).
-/

namespace Fragboard.Match

namespace Event

def isDamageTo (victim : Slot) : Event → Bool
  | .damage _ hurt _ _ _ _ => hurt = victim
  | _ => false

def isDeathOf (victim : Slot) : Event → Bool
  | .death _ dead _ _ _ => dead = victim
  | _ => false

/-- The report says that a player took the damage of a report of the world. -/
def Announces (event : Event) (victim : Slot) (report : DamageReport) : Prop :=
  ∃ attacker weapon region teamkill,
    event = .damage attacker victim report.amount weapon region teamkill

end Event

namespace Session

section Calls

variable {World : Type} [GameWorld World] {session : Session World}
  {call : Call World} {blow : Blow World} {slot : Slot}

theorem damageEvent_announces (session : Session World) (blow : Blow World) :
    (session.resolution blow).damageEvent.Announces blow.victim blow.report :=
  ⟨_, _, _, _, rfl⟩

theorem killed_resolution (session : Session World) (blow : Blow World) :
    (session.resolution blow).killed =
      !GameWorld.isAlive blow.world blow.victim :=
  rfl

/-- What the end of a message that records damage reports of damage. -/
theorem damages_of_blow (found : session.blow? = some blow) (slot : Slot) :
    (session.sent .messageEnd).filter (·.isDamageTo slot) =
      if blow.victim = slot then [(session.resolution blow).damageEvent]
      else [] := by
  have death : ((session.resolution blow).deathEvent?.toList).filter
      (·.isDamageTo slot) = [] := by
    unfold Resolution.deathEvent?
    split <;> rfl
  have damage : (session.resolution blow).damageEvent.isDamageTo slot =
      decide (blow.victim = slot) := rfl
  rw [sent_of_blow found, Resolution.events, List.filter_cons, death, damage]
  simp only [decide_eq_true_eq]

theorem damages_of_unstruck
    (unstruck : ∀ blow, call = .messageEnd → session.blow? = some blow →
      blow.victim ≠ slot) :
    (session.sent call).filter (·.isDamageTo slot) = [] := by
  apply List.filter_eq_nil_iff.mpr
  intro event member damage
  have combat : event.isCombat = true := by
    cases event with
    | damage attacker victim amount weapon region teamkill => rfl
    | _ => contradiction
  obtain ⟨rfl, blow, found⟩ := exists_blow_of_combat member combat
  have quiet := damages_of_blow found slot
  rw [if_neg (unstruck blow rfl found)] at quiet
  exact List.filter_eq_nil_iff.mp quiet event member damage

/-- A death is reported at the end of a message that records damage to a player
who is not alive. -/
theorem reports_death_iff :
    (session.sent call).any (·.isDeathOf slot) = true ↔
      ∃ blow, call = .messageEnd ∧ session.blow? = some blow ∧
        blow.victim = slot ∧ GameWorld.isAlive blow.world slot = false := by
  constructor
  · intro reported
    obtain ⟨event, member, death⟩ := List.any_eq_true.mp reported
    have combat : event.isCombat = true := by
      cases event with
      | death killer victim weapon region teamkill => rfl
      | _ => contradiction
    obtain ⟨rfl, blow, found⟩ := exists_blow_of_combat member combat
    rw [sent_of_blow found, Resolution.events] at member
    rcases List.mem_cons.mp member with rfl | later
    · contradiction
    · unfold Resolution.deathEvent? at later
      split at later
      · next killed =>
        rw [killed_resolution, Bool.not_eq_true'] at killed
        rw [Option.toList_some, List.mem_singleton] at later
        subst later
        obtain rfl : blow.victim = slot := of_decide_eq_true death
        exact ⟨blow, rfl, found, rfl, killed⟩
      · exact absurd later List.not_mem_nil
  · rintro ⟨blow, rfl, found, rfl, dead⟩
    have killed : (session.resolution blow).killed = true := by
      rw [killed_resolution, dead]
      rfl
    rw [sent_of_blow found, Resolution.events, Resolution.deathEvent?,
      if_pos killed]
    exact List.any_eq_true.mpr
      ⟨_, List.mem_cons_of_mem _ List.mem_cons_self, decide_eq_true rfl⟩

theorem kills_of_killCalls {world : World} {tally : Tally} {victim : Slot}
    {culprit : Culprit} {asked : Tally.Call}
    (member : asked ∈ killCalls world tally victim culprit) (slot : Slot) :
    GameWorld.isAlive world victim = false ∧
    asked.kills slot = decide (victim = slot) := by
  unfold killCalls at member
  dsimp only at member
  split at member
  · exact absurd member List.not_mem_nil
  · next dead =>
    rw [List.mem_singleton.mp member]
    exact ⟨eq_false_of_ne_true dead, rfl⟩

theorem kills_of_notKill {asked : Tally.Call} (spared : asked.isKill = false)
    (slot : Slot) : asked.kills slot = false := by
  cases asked with
  | recordKill attacker victim weapon headshot teamkill => contradiction
  | _ => rfl

/-- No death counts that is not reported. -/
theorem unkilled_of_unreported
    (unreported : (session.sent call).any (·.isDeathOf slot) = false) :
    ∀ asked ∈ session.tallyCalls call, asked.kills slot = false := by
  intro asked member
  rcases asked_cases member with
    clerical | ⟨_, _, _, _, rfl⟩ | ⟨_, spared | ⟨blow, rfl, found, kill⟩⟩
  · cases asked with
    | recordKill attacker victim weapon headshot teamkill => contradiction
    | _ => rfl
  · rfl
  · exact kills_of_notKill spared slot
  · obtain ⟨dead, kills⟩ := kills_of_killCalls kill slot
    rw [kills]
    apply decide_eq_false
    intro here
    subst here
    rw [reports_death_iff.mpr ⟨blow, rfl, found, rfl, dead⟩] at unreported
    contradiction

theorem strokes_keep {asked : Tally.Call}
    (member : asked ∈ strokeCalls blow.world session.tally blow.victim
      (session.culprit blow) blow.report.amount) (slot : Slot) :
    asked.handles slot = false ∧
    ∀ scope, asked.clears slot scope = false := by
  unfold strokeCalls at member
  dsimp only at member
  rcases List.mem_append.mp member with shot | hit
  · split at shot
    · split at shot
      · rw [List.mem_singleton.mp shot]
        exact ⟨rfl, fun _ => rfl⟩
      · exact absurd shot List.not_mem_nil
    · exact absurd shot List.not_mem_nil
  · split at hit
    · exact absurd hit List.not_mem_nil
    · rw [List.mem_singleton.mp hit]
      exact ⟨rfl, fun _ => rfl⟩

/-- The death is the last that a reported death asks of the tally. -/
theorem tallyCalls_of_reported
    (reported : (session.sent call).any (·.isDeathOf slot) = true) :
    ∃ strokes kill, session.tallyCalls call = strokes ++ [kill] ∧
      kill.kills slot = true ∧
      ∀ asked ∈ strokes, asked.kills slot = false ∧
        asked.handles slot = false ∧
        ∀ scope, asked.clears slot scope = false := by
  obtain ⟨blow, rfl, found, rfl, dead⟩ := reports_death_iff.mp reported
  obtain ⟨victim, damaged, waiting⟩ := Option.bind_eq_some_iff.mp found
  obtain ⟨closing, unpaused⟩ := closing?_of_damaged damaged
  obtain ⟨kill, calls, kills⟩ : ∃ kill,
      killCalls blow.world session.tally blow.victim
        (session.culprit blow) = [kill] ∧
      kill.kills blow.victim = true := by
    unfold killCalls
    dsimp only
    rw [if_neg (by simp [dead])]
    exact ⟨_, rfl, decide_eq_true rfl⟩
  have asked : session.tallyCalls .messageEnd =
      strokeCalls blow.world session.tally blow.victim
        (session.culprit blow) blow.report.amount ++ [kill] := by
    rw [tallyCalls, closing, Option.elim_some]
    simp only [endCalls, unpaused, waiting, Option.elim_some, blowCalls, calls,
      Bool.false_eq_true, if_false]
  refine ⟨_, kill, asked, kills, fun asked member => ?_⟩
  obtain ⟨handles, clears⟩ := strokes_keep member blow.victim
  exact ⟨kills_of_notKill (notKill_of_strokeCalls member) blow.victim,
    handles, clears⟩

/-- A reported death counts in the total and under the weapon in hand. -/
theorem deaths_of_reported
    (reported : (session.sent call).any (·.isDeathOf slot) = true)
    (scope : Scope) (row : Option Weapon) :
    (session.perform call).tally.deaths slot scope row =
      if row.all (· = (session.tally.player slot).held) then
        min highest (session.tally.deaths slot scope row + 1)
      else session.tally.deaths slot scope row := by
  obtain ⟨strokes, kill, asked, kills, apart⟩ :=
    tallyCalls_of_reported reported
  have ended : (session.perform call).tally =
      (session.tally.run strokes).perform kill := by
    rw [tally_perform, asked, Tally.run_append]
    rfl
  have counted : (session.tally.run strokes).deaths slot scope row =
      session.tally.deaths slot scope row :=
    Tally.deaths_run_of_kept (fun asked member => (apart asked member).1)
      fun asked member => (apart asked member).2.2 scope
  have armed : ((session.tally.run strokes).player slot).held =
      (session.tally.player slot).held :=
    congrArg Prod.fst
      (session.tally.arms_run fun asked member => (apart asked member).2.1)
  rw [ended, Tally.deaths_perform_of_killed kills, counted, armed]

/-- Short of the bound, deaths grow by one and exactly where one is reported. -/
theorem deaths_grow_iff {scope : Scope} {row : Option Weapon}
    (counted : 0 ≤ session.tally.deaths slot scope row)
    (below : session.tally.deaths slot scope row < highest) :
    let deaths := session.tally.deaths slot scope row
    let deathsAfter := (session.perform call).tally.deaths slot scope row
    (deaths < deathsAfter ↔
      (session.sent call).any (·.isDeathOf slot) = true ∧
      row.all (· = (session.tally.player slot).held) = true) ∧
    (deaths < deathsAfter → deathsAfter = deaths + 1) := by
  intro deaths deathsAfter
  cases reported : (session.sent call).any (·.isDeathOf slot) with
  | true =>
      have grown : deathsAfter = _ := deaths_of_reported reported scope row
      split at grown
      · next held =>
        have raised : deathsAfter = deaths + 1 := by omega
        exact ⟨⟨fun _ => ⟨rfl, held⟩, fun _ => by omega⟩, fun _ => raised⟩
      · next other =>
        have same : deathsAfter = deaths := grown
        exact ⟨⟨fun _ => by omega, fun both => absurd both.2 other⟩,
          fun _ => by omega⟩
  | false =>
      have kept : deathsAfter = deaths ∨ deathsAfter = 0 := by
        simp only [deathsAfter, tally_perform]
        exact Tally.deaths_run_of_unkilled (unkilled_of_unreported reported)
      exact ⟨⟨fun _ => by omega, fun both => absurd both.1 (by simp)⟩,
        fun _ => by omega⟩

end Calls

section Waiting

variable {session : Session ScriptedWorld} {victim : Slot}

theorem waiting?_of_blow {blow : Blow ScriptedWorld}
    (found : session.blow? = some blow) :
    session.world.waiting? blow.victim = some blow.report := by
  obtain ⟨victim, _, waiting⟩ := Option.bind_eq_some_iff.mp found
  obtain ⟨rfl, _, taken, _⟩ := waitingBlow?_cases waiting
  exact taken

theorem waiting?_messageEnd (session : Session ScriptedWorld)
    (victim : Slot) :
    session.messageEnd.world.waiting? victim =
      if session.damaged? = some victim then none
      else session.world.waiting? victim := by
  rw [world_messageEnd]
  cases session.damaged? with
  | none => rfl
  | some damaged =>
      rw [Option.elim_some]
      by_cases here : damaged = victim
      · subst here
        rw [if_pos rfl]
        exact session.world.waiting?_takeDamage damaged
      · rw [if_neg fun same => here (Option.some.inj same)]
        have elsewhere : (session.world.perform (.takeDamage damaged)).waiting?
            victim = _ :=
          session.world.waiting?_perform (decide_eq_false here)
        exact elsewhere

theorem waiting?_step (session : Session ScriptedWorld) (step : Step)
    (unhurt : step.hurts victim = false) :
    (session.perform step.call).world.waiting? victim =
      session.world.waiting? victim ∨
    (session.perform step.call).world.waiting? victim = none := by
  cases step with
  | host call => exact session.world.waiting?_perform_of_unhurt unhurt
  | own call isOwn =>
      by_cases ended : call = .messageEnd
      · subst ended
        have waiting := session.waiting?_messageEnd victim
        split at waiting
        · exact .inr waiting
        · exact .inl waiting
      · exact .inl (congrArg (ScriptedWorld.waiting? · victim)
          (session.world_perform isOwn ended))

/-- Nothing waits for a player who is not hurt. -/
theorem unwaiting_play {session : Session ScriptedWorld} {steps : List Step}
    (unhurt : ∀ step ∈ steps, step.hurts victim = false)
    (nothing : session.world.waiting? victim = none) :
    (session.play steps).world.waiting? victim = none := by
  induction steps generalizing session with
  | nil => exact nothing
  | cons step rest ih =>
      obtain ⟨first, later⟩ := List.forall_mem_cons.mp unhurt
      refine @ih (session.perform step.call) later ?_
      rcases session.waiting?_step step first with kept | gone
      · exact kept.trans nothing
      · exact gone

/-- The step that records the damage takes it. -/
theorem unwaiting_of_blow {blow : Blow ScriptedWorld}
    (found : session.blow? = some blow) :
    (session.perform .messageEnd).world.waiting? blow.victim = none := by
  obtain ⟨victim, damaged, waiting⟩ := Option.bind_eq_some_iff.mp found
  obtain ⟨rfl, _⟩ := waitingBlow?_cases waiting
  rw [perform, waiting?_messageEnd, if_pos damaged]

theorem damages_of_unwaiting (nothing : session.world.waiting? victim = none)
    (call : Call ScriptedWorld) :
    (session.sent call).filter (·.isDamageTo victim) = [] := by
  refine damages_of_unstruck fun blow _ found => ?_
  rintro rfl
  rw [waiting?_of_blow found] at nothing
  contradiction

/-- Until the player is hurt again, one report of damage at most is made, and it
is about the damage that waits. -/
theorem damages_of_unhurt (session : Session ScriptedWorld) {steps : List Step}
    (unhurt : ∀ step ∈ steps, step.hurts victim = false) :
    (session.feed steps).filter (·.isDamageTo victim) = [] ∨
    ∃ report event, session.world.waiting? victim = some report ∧
      event.Announces victim report ∧
      (session.feed steps).filter (·.isDamageTo victim) = [event] := by
  induction steps generalizing session with
  | nil => exact .inl rfl
  | cons step rest ih =>
      obtain ⟨first, later⟩ := List.forall_mem_cons.mp unhurt
      have next := @ih (session.perform step.call) later
      rw [feed_cons, List.filter_append]
      by_cases struck : ∃ blow, step.call = .messageEnd ∧
          session.blow? = some blow ∧ blow.victim = victim
      · obtain ⟨blow, ended, found, rfl⟩ := struck
        have quiet : ((session.perform step.call).feed rest).filter
            (·.isDamageTo blow.victim) = [] := by
          rcases next with none | ⟨report, event, still, _⟩
          · exact none
          · rw [ended, unwaiting_of_blow found] at still
            contradiction
        refine .inr ⟨blow.report, _, waiting?_of_blow found,
          session.damageEvent_announces blow, ?_⟩
        rw [quiet, ended, damages_of_blow found, if_pos rfl]
        rfl
      · have quiet : (session.sent step.call).filter
            (·.isDamageTo victim) = [] :=
          damages_of_unstruck fun blow ended found here =>
            struck ⟨blow, ended, found, here⟩
        rw [quiet, List.nil_append]
        rcases next with none | ⟨report, event, still, announced, one⟩
        · exact .inl none
        · refine .inr ⟨report, event, ?_, announced, one⟩
          rcases session.waiting?_step step first with kept | gone
          · exact kept ▸ still
          · rw [gone] at still
            contradiction

end Waiting

section Streams

variable {World : Type} [GameWorld World]

theorem damage_before_death_sent {session : Session World} {call : Call World}
    {before after : List Event} {killer victim : Slot} {weapon : Weapon}
    {region : Option BodyRegion} {teamkill : Bool}
    (sent : session.sent call =
      before ++ .death killer victim weapon region teamkill :: after) :
    ∃ amount,
      before = [.damage killer victim amount weapon region teamkill] := by
  have member : Event.death killer victim weapon region teamkill ∈
      session.sent call := by
    rw [sent]
    exact List.mem_append_right _ List.mem_cons_self
  obtain ⟨rfl, blow, found⟩ := exists_blow_of_combat member rfl
  rw [sent_of_blow found, Resolution.events] at sent
  cases before with
  | nil => exact Event.noConfusion (List.cons.inj sent).1
  | cons first others =>
      obtain ⟨rfl, rest⟩ := List.cons.inj sent
      unfold Resolution.deathEvent? at rest
      split at rest
      · cases others with
        | nil =>
            obtain ⟨rfl, rfl, rfl, rfl, rfl⟩ :=
              Event.death.inj (List.cons.inj rest).1
            exact ⟨_, rfl⟩
        | cons second others => simp at rest
      · simp at rest

/-- A death is reported right after the damage that brought it. -/
theorem damage_before_death (session : Session World)
    (calls : List (Call World)) {before after : List Event}
    {killer victim : Slot} {weapon : Weapon} {region : Option BodyRegion}
    {teamkill : Bool}
    (split : session.stream calls =
      before ++ .death killer victim weapon region teamkill :: after) :
    ∃ earlier amount, before =
      earlier ++ [.damage killer victim amount weapon region teamkill] := by
  induction calls generalizing session before with
  | nil => exact absurd split.symm (by simp [stream])
  | cons call rest ih =>
      rcases List.append_eq_append_iff.mp split with
        ⟨more, rfl, later⟩ | ⟨more, sent, later⟩
      · obtain ⟨earlier, amount, rfl⟩ := ih _ later
        exact ⟨session.sent call ++ earlier, amount,
          (List.append_assoc _ _ _).symm⟩
      · cases more with
        | nil =>
            obtain ⟨earlier, amount, none⟩ := @ih _ [] later.symm
            exact absurd none.symm (by simp)
        | cons death others =>
            obtain ⟨rfl, _⟩ := List.cons.inj later
            obtain ⟨amount, rfl⟩ := damage_before_death_sent sent
            exact ⟨[], amount, rfl⟩

end Streams

theorem deaths_nonneg (config : Config) (world : ScriptedWorld)
    (points : PointTable) (steps : List Step) (slot : Slot) (scope : Scope)
    (row : Option Weapon) :
    0 ≤ ((Session.new config world points).play steps).tally.deaths slot scope
      row := by
  obtain ⟨asked, reached⟩ :=
    (Session.new config world points).tally_run (steps.map Step.call)
  have start : 0 ≤ (Tally.new points).deaths slot scope row :=
    Int.le_of_eq (Tally.deaths_new points).symm
  rw [play, reached]
  exact Tally.deaths_nonneg_run start

/-- In every match in a scripted world the following holds.

Observers receive what is reported, in order.  Whenever a player was hurt, the
damage is reported once or never until the player is hurt again, and none is
reported that nobody was hurt by.  A death is reported right after damage that
agrees with it.  And the deaths of a player, unless they stopped at the bound,
grow in a step exactly if it reports a death of the player: by one in every
scope, in the total and under the weapon in hand. -/
theorem notices_match_records (config : Config) (world : ScriptedWorld)
    (points : PointTable) :
    let start := Session.new config world points
    (∀ steps,
      start.received (steps.map Step.call) ++
        (start.play steps).events.queued = start.feed steps) ∧
    (∀ before victim inflictor amount after,
      (∀ step ∈ after, step.hurts victim = false) →
      let struck :=
        start.play (before ++ [.host (.hurt victim inflictor amount)])
      (struck.feed after).filter (·.isDamageTo victim) = [] ∨
      ∃ event : Event, event.Announces victim ⟨inflictor, amount⟩ ∧
        (struck.feed after).filter (·.isDamageTo victim) = [event]) ∧
    (∀ steps victim, (∀ step ∈ steps, step.hurts victim = false) →
      world.waiting? victim = none →
      (start.feed steps).filter (·.isDamageTo victim) = []) ∧
    (∀ steps before killer victim weapon region teamkill after,
      start.feed steps =
        before ++ .death killer victim weapon region teamkill :: after →
      ∃ earlier amount, before =
        earlier ++ [.damage killer victim amount weapon region teamkill]) ∧
    ∀ steps (step : Step) slot scope row,
      let session := start.play steps
      let deaths := session.tally.deaths slot scope row
      let deathsAfter :=
        (session.perform step.call).tally.deaths slot scope row
      deaths < highest →
      (deaths < deathsAfter ↔
        (session.sent step.call).any (·.isDeathOf slot) = true ∧
        row.all (· = (session.tally.player slot).held) = true) ∧
      (deaths < deathsAfter → deathsAfter = deaths + 1) := by
  intro start
  refine ⟨?_, ?_, ?_, ?_, ?_⟩
  · intro steps
    exact start.received_append_queued (steps.map Step.call)
  · intro before victim inflictor amount after unhurt struck
    rcases struck.damages_of_unhurt unhurt with
      none | ⟨report, event, waiting, announced, one⟩
    · exact .inl none
    · have queued : struck.world.waiting? victim =
          ((start.play before).world.player? victim).map fun _ =>
            { inflictor := inflictor, amount := amount } := by
        rw [show struck = _ from start.play_append before _]
        exact (start.play before).world.waiting?_hurt victim inflictor amount
      rw [queued] at waiting
      obtain ⟨_, _, rfl⟩ := Option.map_eq_some_iff.mp waiting
      exact .inr ⟨event, announced, one⟩
  · intro steps victim unhurt nothing
    rcases start.damages_of_unhurt unhurt with
      none | ⟨report, event, waiting, _⟩
    · exact none
    · exact absurd (nothing.symm.trans waiting) (by simp)
  · intro steps before killer victim weapon region teamkill after split
    exact start.damage_before_death (steps.map Step.call) split
  · intro steps step slot scope row session deaths deathsAfter below
    exact deaths_grow_iff (deaths_nonneg config world points steps slot scope
      row) below

/-- Two messages end after one blow: one report of the damage, then the death,
which counts once. -/
theorem death_counts_once :
    let ann : Slot := { index := 0 }
    let bob : Slot := { index := 1 }
    let inflictor : EntityHandle := { index := 1, generation := 0 }
    let before : List Step :=
      [.own (.register "Health" 67) rfl, .host (.join ann 1),
        .own (.connect ann "ann" "id:ann") rfl, .host (.join bob 2),
        .own (.connect bob "bob" "id:bob") rfl,
        .host (.edit bob fun player => { player with alive := false })]
    let named : Step :=
      .own (.messageBegin 67 (some { index := 2, generation := 0 })) rfl
    let ended : Step := .own .messageEnd rfl
    let start := Session.new {} ScriptedWorld.empty PointTable.blank
    let steps := before ++ [.host (.hurt bob inflictor 60)]
    let struck := start.play steps
    (∃ event : Event, event.Announces bob ⟨inflictor, 60⟩ ∧
      (struck.feed [named, ended, named, ended]).filter
        (·.isDamageTo bob) = [event]) ∧
    (∃ earlier amount, [.damage ann bob 60 Weapon.unarmed none false] =
      earlier ++ [Event.damage ann bob amount Weapon.unarmed none false]) ∧
    (start.play (steps ++ [named])).tally.deaths bob .round none = 0 ∧
    ((start.play (steps ++ [named])).perform ended.call).tally.deaths bob
      .round none = 1 := by
  intro ann bob inflictor before named ended start steps struck
  obtain ⟨_, once, _, preceded, grows⟩ :=
    notices_match_records {} ScriptedWorld.empty PointTable.blank
  refine ⟨?_, ?_, ?_⟩
  · have unhurt : ∀ step ∈ [named, ended, named, ended],
        step.hurts bob = false := by decide
    refine (once before bob inflictor 60 _ unhurt).resolve_left ?_
    decide +kernel
  · refine preceded (steps ++ [named, ended]) [_] ann bob Weapon.unarmed none
      false [] ?_
    decide +kernel
  · have unborn : (start.play (steps ++ [named])).tally.deaths bob .round
        none = 0 := by decide +kernel
    have reported : ((start.play (steps ++ [named])).sent ended.call).any
        (·.isDeathOf bob) = true := by decide +kernel
    obtain ⟨iff, one⟩ := grows (steps ++ [named]) ended bob .round none
      (unborn ▸ by decide)
    have grown := one (iff.mpr ⟨reported, rfl⟩)
    rw [unborn] at grown
    exact ⟨unborn, grown⟩

end Session

end Fragboard.Match
