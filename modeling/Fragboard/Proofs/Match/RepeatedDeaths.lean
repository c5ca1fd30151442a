import Fragboard.Proofs.Match.DamageNotices
import Fragboard.Proofs.Match.SparedWorlds

/-!
# Repeated deaths

Nobody remembers that a player has died.  Whoever is hurt while dead dies again
when the damage is taken in, but of one hurt nobody dies twice
(`Session.hurt_between_deaths`).
-/

namespace Fragboard.Match

namespace Session

/-- A player joins the world anew. -/
def Step.joins (slot : Slot) : Step → Bool
  | .host (.join joined _) => joined = slot
  | _ => false

section Calls

variable {World : Type} [GameWorld World] {session : Session World}
  {call : Call World} {slot : Slot}

/-- A death is reported exactly if one is asked to be counted. -/
theorem reported_iff_kills :
    (session.sent call).any (·.isDeathOf slot) = true ↔
      ∃ asked ∈ session.tallyCalls call, asked.kills slot = true := by
  constructor
  · intro reported
    obtain ⟨strokes, kill, asked, kills, _⟩ := tallyCalls_of_reported reported
    refine ⟨kill, ?_, kills⟩
    rw [asked]
    exact List.mem_append_right _ List.mem_cons_self
  · rintro ⟨asked, member, kills⟩
    cases reported : (session.sent call).any (·.isDeathOf slot) with
    | true => rfl
    | false =>
        have spared := unkilled_of_unreported reported asked member
        exact spared.symm.trans kills

theorem deaths_sent_le_one :
    (session.sent call).countP (·.isDeathOf slot) ≤ 1 := by
  by_cases reported : (session.sent call).any (·.isDeathOf slot) = true
  · obtain ⟨blow, rfl, found, _⟩ := reports_death_iff.mp reported
    have damage : (session.resolution blow).damageEvent.isDeathOf slot ≠
        true := Bool.false_ne_true
    rw [sent_of_blow found, Resolution.events,
      List.countP_cons_of_neg damage]
    refine List.countP_le_length.trans ?_
    unfold Resolution.deathEvent?
    split
    · exact Nat.le_refl 1
    · exact Nat.zero_le 1
  · have none : (session.sent call).countP (·.isDeathOf slot) = 0 := by
      rw [List.countP_eq_zero]
      intro event member death
      exact reported (List.any_eq_true.mpr ⟨event, member, death⟩)
    omega

end Calls

section Scripted

variable {session : Session ScriptedWorld} {victim : Slot}

/-- Damage is recorded exactly if it waits, is not zero and has been dealt by
something that exists. -/
theorem exists_blow_iff :
    (∃ blow, session.blow? = some blow ∧ blow.victim = victim) ↔
      session.damaged? = some victim ∧
      ∃ report, session.world.waiting? victim = some report ∧
        report.amount ≠ 0 ∧
        session.world.entityValid report.inflictor = true := by
  constructor
  · rintro ⟨blow, found, rfl⟩
    obtain ⟨victim, damaged, waiting⟩ := Option.bind_eq_some_iff.mp found
    obtain ⟨rfl, taken, _, counts, valid⟩ := waitingBlow?_cases waiting
    rw [taken] at valid
    exact ⟨damaged, blow.report, waiting?_of_blow found, counts, valid⟩
  · rintro ⟨damaged, report, waiting, counts, valid⟩
    have taken : (GameWorld.takeDamage session.world victim).1 =
        some report := waiting
    have stands : GameWorld.entityValid
        (GameWorld.takeDamage session.world victim).2 report.inflictor =
          true := valid
    refine ⟨⟨victim, report, (GameWorld.takeDamage session.world victim).2⟩,
      ?_, rfl⟩
    rw [blow?, damaged, Option.bind_some]
    simp only [waitingBlow?, taken, Option.bind_some, counts, stands,
      Bool.not_true, Bool.false_eq_true, or_self, if_false]

theorem reports_death_iff_scripted {call : Call ScriptedWorld} :
    (session.sent call).any (·.isDeathOf victim) = true ↔
      call = .messageEnd ∧ session.damaged? = some victim ∧
      GameWorld.isAlive session.world victim = false ∧
      ∃ report, session.world.waiting? victim = some report ∧
        report.amount ≠ 0 ∧
        session.world.entityValid report.inflictor = true := by
  have alive {blow : Blow ScriptedWorld} (found : session.blow? = some blow) :
      GameWorld.isAlive blow.world victim =
        GameWorld.isAlive session.world victim := by
    obtain ⟨slot, _, waiting⟩ := Option.bind_eq_some_iff.mp found
    obtain ⟨_, taken, _⟩ := waitingBlow?_cases waiting
    rw [taken]
    exact congrFun (session.world.alike_spare slot).isAlive victim
  rw [reports_death_iff]
  constructor
  · rintro ⟨blow, ended, found, here, dead⟩
    obtain ⟨damaged, report⟩ := exists_blow_iff.mp ⟨blow, found, here⟩
    exact ⟨ended, damaged, (alive found).symm.trans dead, report⟩
  · rintro ⟨ended, damaged, dead, report⟩
    obtain ⟨blow, found, here⟩ := exists_blow_iff.mpr ⟨damaged, report⟩
    exact ⟨blow, ended, found, here, (alive found).trans dead⟩

end Scripted

/-- In every match in a scripted world a player who has died is hurt anew before
dying again.

A step reports a death of the player exactly if it takes in damage that counts
for a player who is not alive, dead before or not; it reports one death at most,
and the tally is asked to count a death exactly if it does. -/
theorem hurt_between_deaths (config : Config) (world : ScriptedWorld)
    (points : PointTable) :
    let start := Session.new config world points
    (∀ before (first : Step) between (second : Step) victim,
      ((start.play before).sent first.call).any (·.isDeathOf victim) = true →
      ((start.play (before ++ first :: between)).sent second.call).any
        (·.isDeathOf victim) = true →
      ∃ step ∈ between, step.hurts victim = true) ∧
    ∀ steps (step : Step) victim,
      let session := start.play steps
      ((session.sent step.call).any (·.isDeathOf victim) = true ↔
        step.call = .messageEnd ∧ session.damaged? = some victim ∧
        GameWorld.isAlive session.world victim = false ∧
        ∃ report, session.world.waiting? victim = some report ∧
          report.amount ≠ 0 ∧
          session.world.entityValid report.inflictor = true) ∧
      (session.sent step.call).countP (·.isDeathOf victim) ≤ 1 ∧
      ((session.sent step.call).any (·.isDeathOf victim) = true ↔
        ∃ asked ∈ session.tallyCalls step.call,
          asked.kills victim = true) := by
  intro start
  refine ⟨?_, fun steps step victim => ⟨reports_death_iff_scripted,
    deaths_sent_le_one, reported_iff_kills⟩⟩
  intro before first between second victim firstDies secondDies
  by_contra unhurt
  have spared : ∀ step ∈ between, step.hurts victim = false := by
    intro step member
    exact eq_false_of_ne_true fun hurts => unhurt ⟨step, member, hurts⟩
  obtain ⟨blow, ended, found, rfl, _⟩ := reports_death_iff.mp firstDies
  have taken : ((start.play before).perform first.call).world.waiting?
      blow.victim = none := by
    rw [ended]
    exact unwaiting_of_blow found
  have nothing : (start.play (before ++ first :: between)).world.waiting?
      blow.victim = none := by
    have still := unwaiting_play spared taken
    rw [play_append]
    exact still
  obtain ⟨_, _, _, report, waiting, _⟩ :=
    reports_death_iff_scripted.mp secondDies
  rw [nothing] at waiting
  contradiction

/-- Bob dies, is back, and is hurt before he dies again. -/
theorem hurt_in_the_next_life :
    let ann : Slot := { index := 0 }
    let bob : Slot := { index := 1 }
    let inflictor : EntityHandle := { index := 1, generation := 0 }
    let named : Step :=
      .own (.messageBegin 67 (some { index := 2, generation := 0 })) rfl
    let ended : Step := .own .messageEnd rfl
    let alive (here : Bool) : Step :=
      .host (.edit bob fun player => { player with alive := here })
    let before : List Step :=
      [.own (.register "Health" 67) rfl, .host (.join ann 1),
        .own (.connect ann "ann" "id:ann") rfl, .host (.join bob 2),
        .own (.connect bob "bob" "id:bob") rfl,
        .host (.hurt bob inflictor 60), alive false, named]
    let between : List Step :=
      [alive true, .host (.hurt bob inflictor 40), alive false, named]
    let start := Session.new {} ScriptedWorld.empty PointTable.blank
    (((start.play before).sent ended.call).any (·.isDeathOf bob) = true ∧
      ((start.play (before ++ ended :: between)).sent ended.call).any
        (·.isDeathOf bob) = true) ∧
    ∃ step ∈ between, step.hurts bob = true := by
  intro ann bob inflictor named ended alive before between start
  have first : ((start.play before).sent ended.call).any
      (·.isDeathOf bob) = true := by
    decide +kernel
  have second : ((start.play (before ++ ended :: between)).sent
      ended.call).any (·.isDeathOf bob) = true := by
    decide +kernel
  obtain ⟨hurts, _⟩ :=
    hurt_between_deaths {} ScriptedWorld.empty PointTable.blank
  exact ⟨⟨first, second⟩, hurts before ended between ended bob first second⟩

/-- Bob is hurt, dies, and is hurt again as he lies there.  He dies again, at no
moment alive in between, and both deaths count. -/
theorem second_death_of_the_dead :
    let ann : Slot := { index := 0 }
    let bob : Slot := { index := 1 }
    let inflictor : EntityHandle := { index := 1, generation := 0 }
    let named : Step :=
      .own (.messageBegin 67 (some { index := 2, generation := 0 })) rfl
    let ended : Step := .own .messageEnd rfl
    let before : List Step :=
      [.own (.register "Health" 67) rfl, .host (.join ann 1),
        .own (.connect ann "ann" "id:ann") rfl, .host (.join bob 2),
        .own (.connect bob "bob" "id:bob") rfl,
        .host (.hurt bob inflictor 60),
        .host (.edit bob fun player => { player with alive := false }), named]
    let between : List Step := [.host (.hurt bob inflictor 40), named]
    let start := Session.new {} ScriptedWorld.empty PointTable.blank
    let second := start.play (before ++ ended :: between)
    (start.play before).sent ended.call =
      [.damage ann bob 60 Weapon.unarmed none false,
        .death ann bob Weapon.unarmed none false] ∧
    second.sent ended.call =
      [.damage ann bob 40 Weapon.unarmed none false,
        .death ann bob Weapon.unarmed none false] ∧
    (∀ moment < 3,
      let session := start.play (before ++ ended :: between.take moment)
      GameWorld.isAlive session.world bob = false) ∧
    (∀ step ∈ between, step.joins bob = false) ∧
    (second.perform ended.call).tally.deaths bob .life none = 2 := by
  decide +kernel

end Session

end Fragboard.Match
