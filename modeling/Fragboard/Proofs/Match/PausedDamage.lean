import Fragboard.Proofs.Match.DamageNotices
import Fragboard.Proofs.Match.SparedWorlds

/-!
# Damage at a pause

The end of a message during a pause leaves the damage that waits for the player
where it is.  Whether it ever counts depends on the first step to dispose of it:
the player may be hurt anew or rejoin, the host may take the damage, or a message
about the player ends after the pause and records it
(`Session.dropped_iff_uncredited`).
-/

namespace Fragboard.Match

namespace Session

/-- The session in the world where the damage that waited for a player has been
dropped. -/
def pardon (session : Session ScriptedWorld) (victim : Slot) :
    Session ScriptedWorld :=
  session.inWorld (session.world.spare victim)

/-- After the step the damage that waited for a player is gone. -/
def Step.disposes (victim : Slot) (session : Session ScriptedWorld) :
    Step → Bool
  | .host call => call.disposes victim
  | .own .messageEnd _ => session.damaged? = some victim
  | .own _ _ => false

/-- The step records the damage that waited for a player. -/
def Step.credits (victim : Slot) (session : Session ScriptedWorld) :
    Step → Bool
  | .own .messageEnd _ => session.blow?.any (·.victim = victim)
  | _ => false

/-- The first step to dispose of the damage that waits for a player records
it. -/
def credited (victim : Slot) (session : Session ScriptedWorld) :
    List Step → Bool
  | [] => false
  | step :: rest =>
    step.credits victim session ||
      !step.disposes victim session &&
        (session.perform step.call).credited victim rest

section Steps

variable {session : Session ScriptedWorld} {victim : Slot} {step : Step}

/-- As long as the damage waits, a step takes no notice of it. -/
theorem perform_pardon (kept : step.disposes victim session = false) :
    (session.pardon victim).perform step.call =
      (session.perform step.call).pardon victim := by
  have alike := session.world.alike_spare victim
  cases step with
  | host call =>
      exact congrArg session.inWorld (session.world.perform_spare kept)
  | own call isOwn =>
      have stays (untouched : (session.perform call).world = session.world)
          (undamaged : call = .messageEnd → session.damaged? = none) :
          (session.pardon victim).perform call =
            (session.perform call).pardon victim := by
        rw [pardon, pardon, untouched]
        exact perform_inWorld alike isOwn undamaged
      by_cases ended : call = .messageEnd
      · subst ended
        have missed : session.damaged? ≠ some victim := of_decide_eq_false kept
        cases damaged : session.damaged? with
        | none =>
            refine stays ?_ fun _ => damaged
            rw [perform, world_messageEnd, damaged]
            rfl
        | some slot =>
            have apart : slot ≠ victim := fun here => missed (here ▸ damaged)
            have taken : session.messageEnd.world =
                session.world.perform (.takeDamage slot) := by
              rw [world_messageEnd, damaged]
              rfl
            have dropped :
                (session.world.spare victim).perform (.takeDamage slot) = _ :=
              session.world.perform_spare (decide_eq_false apart)
            have same := messageEnd_inWorld_of_damaged alike damaged
              (session.world.sameDamage_spare apart)
            simp only [Step.call, perform, pardon]
            rw [taken, ← dropped]
            exact same
      · exact stays (session.world_perform isOwn ended)
          fun same => absurd same ended

theorem blow_of_credits (credits : step.credits victim session = true) :
    step.call = .messageEnd ∧
    ∃ blow, session.blow? = some blow ∧ blow.victim = victim := by
  cases step with
  | host call => contradiction
  | own call isOwn =>
      cases call with
      | messageEnd =>
          obtain ⟨blow, found, same⟩ := (Option.any_eq_true _ _).mp credits
          exact ⟨rfl, blow, found, of_decide_eq_true same⟩
      | _ => contradiction

/-- A step that disposes of the damage without recording it does the same if the
damage has been dropped before. -/
theorem perform_pardon_of_disposed
    (disposed : step.disposes victim session = true)
    (uncredited : step.credits victim session = false) :
    (session.pardon victim).perform step.call = session.perform step.call := by
  cases step with
  | host call =>
      exact congrArg session.inWorld
        (session.world.perform_spare_of_disposed disposed)
  | own call isOwn =>
      cases call with
      | messageEnd =>
          let closed : Session ScriptedWorld :=
            { session with
              decoder := session.decoder.finish.2
              subjectEntity := none }
          have damaged : session.damaged? = some victim :=
            of_decide_eq_true disposed
          have alsoDamaged : (session.pardon victim).damaged? = some victim :=
            (damaged?_inWorld (session.world.alike_spare victim)).trans damaged
          have dropped : waitingBlow? session.world victim = none := by
            cases waiting : waitingBlow? session.world victim with
            | none => rfl
            | some blow =>
                have found : session.blow? = some blow := by
                  rw [blow?, damaged]
                  exact waiting
                simp [Step.credits, found, (waitingBlow?_cases waiting).1]
                  at uncredited
          have nothing : waitingBlow? (session.world.spare victim) victim =
              none := by
            have taken := session.world.waiting?_takeDamage victim
            exact Option.bind_eq_none_iff.mpr fun report waiting =>
              absurd (taken.symm.trans waiting) (by simp)
          have taking : (ScriptedWorld.Call.takeDamage victim).disposes
              victim = true := decide_eq_true rfl
          have twice := session.world.perform_spare_of_disposed taking
          have ended := messageEnd_of_dropped damaged dropped
          have endedToo := messageEnd_of_dropped alsoDamaged nothing
          simp only [Step.call, perform, ended, endedToo]
          exact congrArg closed.inWorld twice
      | _ => contradiction

theorem sent_pardon (uncredited : step.credits victim session = false) :
    (session.pardon victim).sent step.call = session.sent step.call := by
  cases disposed : step.disposes victim session with
  | false => exact sent_inWorld (perform_pardon disposed)
  | true =>
      have same : (session.pardon victim).perform step.call =
          (session.perform step.call).inWorld
            (session.perform step.call).world :=
        perform_pardon_of_disposed disposed uncredited
      exact sent_inWorld same

theorem waiting?_of_kept (kept : step.disposes victim session = false) :
    (session.perform step.call).world.waiting? victim =
      session.world.waiting? victim := by
  cases step with
  | host call => exact session.world.waiting?_perform kept
  | own call isOwn =>
      by_cases ended : call = .messageEnd
      · subst ended
        have missed : session.damaged? ≠ some victim := of_decide_eq_false kept
        exact (session.waiting?_messageEnd victim).trans (if_neg missed)
      · exact congrArg (ScriptedWorld.waiting? · victim)
          (session.world_perform isOwn ended)

theorem waiting?_pardon (session : Session ScriptedWorld) (victim : Slot) :
    (session.pardon victim).world.waiting? victim = none :=
  session.world.waiting?_takeDamage victim

/-- The damage is reported where it is recorded, and nothing of the kind if it
has been dropped. -/
theorem sent_pardon_ne (credits : step.credits victim session = true) :
    (session.pardon victim).sent step.call ≠ session.sent step.call := by
  obtain ⟨ended, blow, found, rfl⟩ := blow_of_credits credits
  intro same
  have none := damages_of_unwaiting (session.waiting?_pardon blow.victim)
    step.call
  rw [same, ended, damages_of_blow found, if_pos rfl] at none
  contradiction

end Steps

/-- Up to any point both matches report the same, and but for the world they
stand the same. -/
def SameMatch (first second : Session ScriptedWorld) (steps : List Step) :
    Prop :=
  ∀ before after, steps = before ++ after →
    first.feed before = second.feed before ∧
    ∃ world, first.play before = (second.play before).inWorld world

theorem SameMatch.refl (session : Session ScriptedWorld) (steps : List Step) :
    session.SameMatch session steps :=
  fun before _ _ => ⟨rfl, (session.play before).world, rfl⟩

theorem SameMatch.cons {first second : Session ScriptedWorld} {step : Step}
    {rest : List Step} (world : ScriptedWorld)
    (now : first = second.inWorld world)
    (sent : first.sent step.call = second.sent step.call)
    (later : (first.perform step.call).SameMatch (second.perform step.call)
      rest) : first.SameMatch second (step :: rest) := by
  intro before after split
  cases before with
  | nil => exact ⟨rfl, world, now⟩
  | cons head others =>
      obtain ⟨rfl, tail⟩ := List.cons.inj split
      obtain ⟨reports, same⟩ := later others after tail
      refine ⟨?_, same⟩
      rw [feed_cons, feed_cons, sent, reports]

theorem sameMatch_of_uncredited {session : Session ScriptedWorld}
    {victim : Slot} {steps : List Step}
    (uncredited : session.credited victim steps = false) :
    (session.pardon victim).SameMatch session steps := by
  induction steps generalizing session with
  | nil =>
      intro before after split
      obtain ⟨rfl, rfl⟩ := List.append_eq_nil_iff.mp split.symm
      exact ⟨rfl, _, rfl⟩
  | cons step rest ih =>
      rw [credited, Bool.or_eq_false_iff] at uncredited
      obtain ⟨now, later⟩ := uncredited
      refine .cons _ rfl (sent_pardon now) ?_
      cases disposed : step.disposes victim session with
      | true =>
          rw [perform_pardon_of_disposed disposed now]
          exact .refl _ rest
      | false =>
          rw [perform_pardon disposed]
          refine ih ?_
          simpa [disposed] using later

theorem SameMatch.head {first second : Session ScriptedWorld} {step : Step}
    {rest : List Step} (same : first.SameMatch second (step :: rest)) :
    first.sent step.call = second.sent step.call := by
  have reports := (same [step] rest rfl).1
  have first (session : Session ScriptedWorld) :
      session.feed [step] = session.sent step.call := List.append_nil _
  rwa [first, first] at reports

theorem SameMatch.tail {first second : Session ScriptedWorld} {step : Step}
    {rest : List Step} (same : first.SameMatch second (step :: rest)) :
    (first.perform step.call).SameMatch (second.perform step.call) rest := by
  intro before after split
  obtain ⟨reports, stand⟩ := same (step :: before) after (congrArg _ split)
  rw [feed_cons, feed_cons, same.head] at reports
  exact ⟨List.append_cancel_left reports, stand⟩

theorem uncredited_of_sameMatch {session : Session ScriptedWorld}
    {victim : Slot} {steps : List Step}
    (same : (session.pardon victim).SameMatch session steps) :
    session.credited victim steps = false := by
  induction steps generalizing session with
  | nil => rfl
  | cons step rest ih =>
      have now : step.credits victim session = false := by
        cases credits : step.credits victim session with
        | false => rfl
        | true => exact absurd same.head (sent_pardon_ne credits)
      rw [credited, now, Bool.false_or]
      cases disposed : step.disposes victim session with
      | true => rfl
      | false =>
          have later := same.tail
          rw [perform_pardon disposed] at later
          exact ih later

/-- The damage is reported where it is recorded. -/
theorem exists_announced_of_credited {session : Session ScriptedWorld}
    {victim : Slot} {report : DamageReport} {steps : List Step}
    (waiting : session.world.waiting? victim = some report)
    (credits : session.credited victim steps = true) :
    ∃ before step after event, steps = before ++ step :: after ∧
      step.call = .messageEnd ∧ event.Announces victim report ∧
      event ∈ (session.play before).sent step.call := by
  induction steps generalizing session with
  | nil => contradiction
  | cons step rest ih =>
      rw [credited, Bool.or_eq_true, Bool.and_eq_true] at credits
      rcases credits with now | ⟨kept, later⟩
      · obtain ⟨ended, blow, found, rfl⟩ := blow_of_credits now
        obtain rfl := Option.some.inj
          ((waiting?_of_blow found).symm.trans waiting)
        refine ⟨[], step, rest, _, rfl, ended,
          session.damageEvent_announces blow, ?_⟩
        rw [ended]
        exact (sent_of_blow found).symm ▸ List.mem_cons_self
      · have still := (waiting?_of_kept (Bool.not_eq_true' _ ▸ kept)).trans
          waiting
        obtain ⟨before, ending, after, event, rfl, found⟩ := ih still later
        exact ⟨step :: before, ending, after, event, rfl, found⟩

/-- A message about a player's health ends while the match is paused and damage
waits for the player.  Nothing is reported or recorded, but the damage is not
taken either.  From then on the match goes as if it had been dropped, whatever
follows, exactly if the first step to dispose of it does not record it; and
whoever records it reports it. -/
theorem dropped_iff_uncredited {session : Session ScriptedWorld}
    {victim : Slot} {report : DamageReport}
    (closing : session.closing? = some (.damage, victim))
    (paused : session.config.paused = true)
    (waiting : session.world.waiting? victim = some report)
    (steps : List Step) :
    let ended := session.perform .messageEnd
    (session.sent .messageEnd = [] ∧ ended.tally = session.tally ∧
      ended.board = session.board ∧ ended.world = session.world) ∧
    ((ended.pardon victim).SameMatch ended steps ↔
      ended.credited victim steps = false) ∧
    (ended.credited victim steps = true →
      ∃ before step after event, steps = before ++ step :: after ∧
        step.call = .messageEnd ∧ event.Announces victim report ∧
        event ∈ (ended.play before).sent step.call) := by
  intro ended
  have idle : ended =
      { session with
        decoder := session.decoder.finish.2
        subjectEntity := none } := by
    have applied : ended = _ := messageEnd_of_closing closing
    rw [applied, applyEnd, endDamage, if_pos paused]
  have silent : session.sent .messageEnd = [] := by
    simp [sent, closing, endEvents, paused]
  have still : ended.world.waiting? victim = some report := by
    rw [idle]
    exact waiting
  exact ⟨⟨silent, by rw [idle], by rw [idle], by rw [idle]⟩,
    ⟨uncredited_of_sameMatch, sameMatch_of_uncredited⟩,
    exists_announced_of_credited still⟩

/-- The damage of the pause is never credited if the player is hurt anew before
the pause is over. -/
theorem paused_damage_replaced :
    let ann : Slot := { index := 0 }
    let bob : Slot := { index := 1 }
    let named : Step :=
      .own (.messageBegin 67 (some { index := 2, generation := 0 })) rfl
    let ended : Step := .own .messageEnd rfl
    let inflictor : EntityHandle := { index := 1, generation := 0 }
    let before : List Step :=
      [.own (.register "Health" 67) rfl, .host (.join ann 1),
        .own (.connect ann "ann" "id:ann") rfl, .host (.join bob 2),
        .own (.connect bob "bob" "id:bob") rfl,
        .own (.setPaused true) rfl, .host (.hurt bob inflictor 50), named]
    let after : List Step :=
      [.host (.edit bob fun player => { player with alive := false }),
        .host (.hurt bob inflictor 7), .own (.setPaused false) rfl, named,
        ended]
    let session :=
      (Session.new {} ScriptedWorld.empty PointTable.blank).play before
    let later := session.perform .messageEnd
    (session.closing? = some (.damage, bob) ∧
      session.config.paused = true ∧
      session.world.waiting? bob = some ⟨inflictor, 50⟩) ∧
    (later.pardon bob).SameMatch later after ∧
    later.feed after =
      [.damage ann bob 7 Weapon.unarmed none false,
        .death ann bob Weapon.unarmed none false] := by
  intro ann bob named ended inflictor before after session later
  have closing : session.closing? = some (.damage, bob) := by decide +kernel
  have paused : session.config.paused = true := by decide +kernel
  have waiting : session.world.waiting? bob = some ⟨inflictor, 50⟩ := by
    decide +kernel
  obtain ⟨_, dropped, _⟩ := dropped_iff_uncredited closing paused waiting after
  exact ⟨⟨closing, paused, waiting⟩, dropped.mpr (by decide +kernel),
    by decide +kernel⟩

/-- A message about the health of a player ends during a pause and reports
nothing.  Another one ends after the pause; nobody was hurt since, and yet the
damage of the pause is reported and counts. -/
theorem paused_damage_credited :
    let ann : Slot := { index := 0 }
    let bob : Slot := { index := 1 }
    let named : Step :=
      .own (.messageBegin 67 (some { index := 2, generation := 0 })) rfl
    let ended : Step := .own .messageEnd rfl
    let inflictor : EntityHandle := { index := 1, generation := 0 }
    let before : List Step :=
      [.own (.register "Health" 67) rfl, .host (.join ann 1),
        .own (.connect ann "ann" "id:ann") rfl, .host (.join bob 2),
        .own (.connect bob "bob" "id:bob") rfl,
        .own (.setPaused true) rfl, .host (.hurt bob inflictor 50), named]
    let session :=
      (Session.new {} ScriptedWorld.empty PointTable.blank).play before
    let after : List Step :=
      [ended, .own (.setPaused false) rfl, named, ended]
    (session.closing? = some (.damage, bob) ∧
      session.config.paused = true ∧
      session.world.waiting? bob = some ⟨inflictor, 50⟩) ∧
    session.feed after = [.damage ann bob 50 Weapon.unarmed none false] ∧
    (((session.play after).tally.player ann).life.total.get .damage).toInt =
      50 := by
  decide +kernel

end Session

end Fragboard.Match
