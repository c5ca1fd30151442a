import Fragboard.Proofs.Match.DuelEntries
import Fragboard.Proofs.Match.WeaponTotals

/-!
# Session totals and victims

What a player's session counts of hits and kills, it counts against some victim,
and the entry for that victim counts the same.  So the session is the sum over
all victims, as long as no counter stops at a bound; for the points, those for
objectives have to be added, which are nobody's loss.
-/

namespace Fragboard.Match

namespace PlayerTally

def countAgainst (player : PlayerTally) (counter : Counter) (victim : Slot) :
    Int :=
  ((player.dealt victim).stats.get counter).toInt

/-- A counter summed over the entries for all victims. -/
def dealtTotal (player : PlayerTally) (counter : Counter) : Int :=
  (Slot.all.map (player.countAgainst counter)).sum

/-- The session is what was dealt to all victims and what objectives brought. -/
structure Decomposes (player : PlayerTally) (objectives : Int) : Prop where
  counts : ∀ counter ∈ Counter.ofDuels,
    (player.session.total.get counter).toInt = player.dealtTotal counter
  points : (player.session.total.get .points).toInt =
    player.dealtTotal .points + objectives

theorem dealtTotal_of_blank {player : PlayerTally}
    (blank : ∀ victim, player.dealt victim = {}) (counter : Counter) :
    player.dealtTotal counter = 0 := by
  have nothing : player.countAgainst counter = fun _ => 0 := by
    funext victim
    simp [countAgainst, blank victim]
  simp [dealtTotal, nothing]

theorem decomposes_empty : ({} : PlayerTally).Decomposes 0 := by
  have blank : ∀ victim, ({} : PlayerTally).dealt victim = {} := fun victim =>
    Cells.get_fill _ _
  have unscored : ∀ counter,
      (({} : PlayerTally).session.total.get counter).toInt = 0 :=
    fun counter => congrArg Int32.toInt (StatBlock.get_zero counter)
  constructor
  · intro counter _
    rw [unscored, dealtTotal_of_blank blank]
  · rw [unscored, dealtTotal_of_blank blank]
    rfl

end PlayerTally

namespace Tally

/-- No counter of an entry for a victim stops at a bound in a call. -/
def StrikesExactly (tally : Tally) (call : Call) : Prop :=
  ∀ attacker victim, ∀ strike ∈ tally.strike? attacker victim call,
    ((tally.player attacker).dealt victim).stats.MergesExactly strike.dealt

instance (tally : Tally) : DecidablePred tally.StrikesExactly := fun call =>
  decidable_of_iff
    (∀ attacker ∈ Slot.all, ∀ victim ∈ Slot.all,
      ∀ strike ∈ tally.strike? attacker victim call,
        ((tally.player attacker).dealt victim).stats.MergesExactly
          strike.dealt)
    ⟨fun each attacker victim =>
      each attacker attacker.mem_all victim victim.mem_all,
      fun exact attacker _ victim _ => exact attacker victim⟩

def DuelsExactly (tally : Tally) : List Call → Prop
  | [] => True
  | call :: rest =>
    tally.StrikesExactly call ∧ (tally.perform call).DuelsExactly rest

instance decidableDuelsExactly :
    (tally : Tally) → DecidablePred tally.DuelsExactly
  | _, [] => .isTrue trivial
  | tally, call :: rest =>
    have := decidableDuelsExactly (tally.perform call) rest
    inferInstanceAs (Decidable (tally.StrikesExactly call ∧
      (tally.perform call).DuelsExactly rest))

/-- The points that a call credits to a player for an objective. -/
def Call.objectiveOf (slot : Slot) : Call → Int
  | .awardObjective awarded points =>
    if awarded = slot then points.toInt else 0
  | _ => 0

def Call.objectivesAfter (slot : Slot) (sum : Int) (call : Call) : Int :=
  if call.clears slot .session then 0 else sum + call.objectiveOf slot

/-- The points for objectives that calls credited to a player since its session
was last cleared. -/
def objectives (slot : Slot) (calls : List Call) : Int :=
  calls.foldl (Call.objectivesAfter slot) 0

section Gains

variable {tally : Tally} {slot : Slot} {call : Call}

/-- What a strike adds to the entry for the victim, the call records for the
attacker. -/
theorem gain_of_struck {victim : Slot} {strike : Strike}
    (struck : tally.strike? slot victim call = some strike)
    (counter : Counter) :
    tally.gain slot counter call = (strike.dealt.get counter).toInt := by
  rcases strike?_cases struck with
    ⟨weapon, damage, region, rfl, rfl⟩ |
    ⟨apart, weapon, headshot, teamkill, rfl, rfl⟩
  · simp [gain, recording?, hitStrike]
  · simp [gain, recording?, killStrike, apart.symm]

theorem objectiveOf_of_struck {victim : Slot} {strike : Strike}
    (struck : tally.strike? slot victim call = some strike) :
    call.objectiveOf slot = 0 := by
  rcases strike?_cases struck with
    ⟨weapon, damage, region, rfl, _⟩ |
    ⟨_, weapon, headshot, teamkill, rfl, _⟩
  · rfl
  · rfl

theorem strike?_of_struck {victim : Slot} {strike : Strike}
    (struck : tally.strike? slot victim call = some strike) {other : Slot}
    (apart : victim ≠ other) : tally.strike? slot other call = none := by
  rcases strike?_cases struck with
    ⟨weapon, damage, region, rfl, _⟩ |
    ⟨_, weapon, headshot, teamkill, rfl, _⟩
  · exact if_neg fun both => apart both.2
  · exact if_neg fun both => apart both.2.1

/-- What a call records for a player who strikes nobody is a shot, a death or
points for an objective. -/
theorem gain_of_unstruck
    (unstruck : ∀ victim, tally.strike? slot victim call = none)
    {counter : Counter} (fired : counter ≠ .shots)
    (alive : counter ≠ .deaths) :
    tally.gain slot counter call =
      if counter = .points then call.objectiveOf slot else 0 := by
  cases call with
  | recordHit attacker victim weapon damage region =>
      have other : attacker ≠ slot := by
        rintro rfl
        simp [strike?] at unstruck
      simp [gain, recording?, other, Call.objectiveOf]
  | recordKill attacker victim weapon headshot teamkill =>
      by_cases dies : victim = slot
      · simp [gain, recording?, dies, StatBlock.recordDeath,
          StatBlock.get_add, alive.symm, Call.objectiveOf]
      · have other : attacker ≠ slot := by
          rintro rfl
          have struck := unstruck victim
          simp [strike?, Ne.symm dies] at struck
        simp [gain, recording?, dies, other, Call.objectiveOf]
  | recordShot shooter weapon =>
      simp only [gain, recording?, Call.objectiveOf, ite_self]
      split
      · rfl
      · next recording noted =>
        obtain ⟨_, same⟩ := Option.ite_none_right_eq_some.mp noted
        obtain rfl := Option.some.inj same
        simp [StatBlock.recordShot, StatBlock.get_add, fired.symm]
  | awardObjective awarded points =>
      simp only [gain, recording?, Call.objectiveOf]
      by_cases mine : awarded = slot
      · by_cases paid : counter = .points
        · simp [mine, paid, StatBlock.award, StatBlock.get_add]
        · simp [mine, paid, Ne.symm paid, StatBlock.award, StatBlock.get_add]
      · simp [mine]
  | _ => simp [gain, recording?, Call.objectiveOf]

end Gains

theorem total_perform {tally : Tally} {call : Call}
    (exact : tally.CallExactly call) (slot : Slot) (scope : Scope)
    (counter : Counter) :
    ((((tally.perform call).player slot).scope scope).total.get
        counter).toInt =
      if call.clears slot scope then 0
      else (((tally.player slot).scope scope).total.get counter).toInt +
        tally.gain slot counter call := by
  rw [scope_perform]
  cases call.clears slot scope with
  | true => exact congrArg Int32.toInt (StatBlock.get_zero counter)
  | false =>
      cases noted : tally.recording? slot call with
      | none => simp [gain, noted, ScopeTally.noteAny]
      | some recording =>
          have summed := (exact slot recording noted scope).total.toInt_get
            counter
          simp only [Bool.false_eq_true, if_false, noted, ScopeTally.noteAny,
            gain]
          exact summed

section Dealing

variable {tally : Tally} {slot : Slot} {call : Call}

theorem dealtTotal_of_cleared
    (cleared : call.clears slot .session = true) (counter : Counter) :
    ((tally.perform call).player slot).dealtTotal counter = 0 := by
  apply PlayerTally.dealtTotal_of_blank
  intro victim
  rw [dealt_perform, cleared, if_pos rfl]

theorem dealtTotal_of_unstruck
    (kept : call.clears slot .session = false)
    (unstruck : ∀ victim, tally.strike? slot victim call = none)
    (counter : Counter) :
    ((tally.perform call).player slot).dealtTotal counter =
      (tally.player slot).dealtTotal counter := by
  have same : ((tally.perform call).player slot).countAgainst counter =
      (tally.player slot).countAgainst counter := by
    funext victim
    simp only [PlayerTally.countAgainst, dealt_perform, kept,
      Bool.false_eq_true, if_false, unstruck victim, Duel.dealAny]
  rw [PlayerTally.dealtTotal, same, PlayerTally.dealtTotal]

theorem dealtTotal_of_struck
    (kept : call.clears slot .session = false)
    (exact : tally.StrikesExactly call) {victim : Slot} {strike : Strike}
    (struck : tally.strike? slot victim call = some strike)
    (counter : Counter) :
    ((tally.perform call).player slot).dealtTotal counter =
      (tally.player slot).dealtTotal counter +
        (strike.dealt.get counter).toInt := by
  have others : ∀ other, victim ≠ other →
      ((tally.perform call).player slot).countAgainst counter other =
        (tally.player slot).countAgainst counter other := by
    intro other apart
    simp only [PlayerTally.countAgainst, dealt_perform, kept,
      Bool.false_eq_true, if_false, strike?_of_struck struck apart,
      Duel.dealAny]
  have here : ((tally.perform call).player slot).countAgainst counter victim =
      (tally.player slot).countAgainst counter victim +
        (strike.dealt.get counter).toInt := by
    simp only [PlayerTally.countAgainst, dealt_perform, kept,
      Bool.false_eq_true, if_false, struck, Duel.dealAny, Duel.deal]
    exact (exact slot victim strike struck).toInt_get counter
  have summed := sum_map_of_one Slot.nodup_all victim.mem_all others
  rw [PlayerTally.dealtTotal, PlayerTally.dealtTotal]
  omega

theorem decomposes_perform {objectives : Int}
    (whole : (tally.player slot).Decomposes objectives)
    (counted : tally.CallExactly call) (dealt : tally.StrikesExactly call) :
    ((tally.perform call).player slot).Decomposes
      (call.objectivesAfter slot objectives) := by
  have session : ∀ counter,
      (((tally.perform call).player slot).session.total.get counter).toInt =
        if call.clears slot .session then 0
        else ((tally.player slot).session.total.get counter).toInt +
          tally.gain slot counter call :=
    total_perform counted slot .session
  have scored := whole.points
  cases cleared : call.clears slot .session with
  | true =>
      simp only [cleared, if_true] at session
      constructor
      · intro counter _
        rw [session, dealtTotal_of_cleared cleared]
      · rw [session, dealtTotal_of_cleared cleared, Call.objectivesAfter,
          if_pos cleared]
        rfl
  | false =>
      simp only [cleared, Bool.false_eq_true, if_false] at session
      have credited : call.objectivesAfter slot objectives =
          objectives + call.objectiveOf slot := by
        rw [Call.objectivesAfter, cleared]
        rfl
      by_cases unstruck : ∀ victim, tally.strike? slot victim call = none
      · have dealtTotal := dealtTotal_of_unstruck cleared unstruck
        constructor
        · intro counter member
          obtain ⟨fired, alive, unpaid⟩ :=
            (Counter.mem_ofDuels_iff counter).mp member
          rw [session, dealtTotal, gain_of_unstruck unstruck fired alive,
            if_neg unpaid, whole.counts counter member, Int.add_zero]
        · rw [session, dealtTotal, credited,
            gain_of_unstruck unstruck (by decide) (by decide), if_pos rfl]
          omega
      · obtain ⟨victim, notNone⟩ := not_forall.mp unstruck
        obtain ⟨strike, struck⟩ := Option.ne_none_iff_exists'.mp notNone
        have dealtTotal := dealtTotal_of_struck cleared dealt struck
        constructor
        · intro counter member
          rw [session, dealtTotal, gain_of_struck struck,
            whole.counts counter member]
        · rw [session, dealtTotal, credited, gain_of_struck struck,
            objectiveOf_of_struck struck]
          omega

end Dealing

theorem decomposes_run {tally : Tally} {slot : Slot} {objectives : Int}
    (whole : (tally.player slot).Decomposes objectives) {calls : List Call}
    (counted : tally.CallsExactly calls) (dealt : tally.DuelsExactly calls) :
    ((tally.run calls).player slot).Decomposes
      (calls.foldl (Call.objectivesAfter slot) objectives) := by
  induction calls generalizing tally objectives with
  | nil => exact whole
  | cons call rest ih =>
      exact ih (decomposes_perform whole counted.1 dealt.1) counted.2 dealt.2

/-- After any calls in which no counter stops at a bound, the hits and kills of
a player's session, with all that is counted of them, are the sums over its
victims.  The points are those that the victims brought and those for objectives
since the session was last cleared. -/
theorem session_eq_sum_over_victims (points : PointTable) {calls : List Call}
    (counted : (Tally.new points).CallsExactly calls)
    (dealt : (Tally.new points).DuelsExactly calls) (slot : Slot) :
    let player := ((Tally.new points).run calls).player slot
    (∀ counter ∈ Counter.ofDuels,
      (player.session.total.get counter).toInt =
        (Slot.all.map fun victim =>
          ((player.victims.get victim.index).stats.get counter).toInt).sum) ∧
    (player.session.total.get .points).toInt =
      (Slot.all.map fun victim =>
        ((player.victims.get victim.index).stats.get .points).toInt).sum +
      objectives slot calls := by
  intro player
  have blank : (Tally.new points).player slot = {} := Cells.get_fill _ _
  have start : ((Tally.new points).player slot).Decomposes 0 := by
    rw [blank]
    exact PlayerTally.decomposes_empty
  have whole := decomposes_run start counted dealt
  exact ⟨whole.counts, whole.points⟩

/-- Two victims, a teamkill and an objective after a full clear; a kill of
oneself and a hit by another change nothing. -/
theorem session_eq_sum_over_two_victims :
    let ann : Slot := { index := 0 }
    let bob : Slot := { index := 1 }
    let cat : Slot := { index := 2 }
    let calls : List Call :=
      [.recordHit ann bob Weapon.piat 40 none, .awardObjective ann 9,
        .restart ann true, .recordHit ann bob Weapon.piat 90 (some .head),
        .recordKill ann bob Weapon.piat true false,
        .recordKill ann cat Weapon.bazooka false true,
        .awardObjective ann (-5), .recordHit ann ann Weapon.piat 7 none,
        .recordKill ann ann Weapon.unarmed false false, .restart ann false,
        .clearRound ann, .recordHit bob ann Weapon.bazooka 25 none]
    let points := PointTable.uniform { kill := 3, hit := 1, teamkill := -2 }
    let player := ((Tally.new points).run calls).player ann
    ((Tally.new points).CallsExactly calls ∧
      (Tally.new points).DuelsExactly calls) ∧
    (player.session.total.get .damage).toInt =
      (Slot.all.map fun victim =>
        ((player.victims.get victim.index).stats.get .damage).toInt).sum ∧
    (player.session.total.get .damage).toInt = 97 ∧
    (player.session.total.get .points).toInt =
      (Slot.all.map fun victim =>
        ((player.victims.get victim.index).stats.get .points).toInt).sum +
      objectives ann calls ∧
    objectives ann calls = -5 := by
  intro ann bob cat calls points
  have counted : (Tally.new points).CallsExactly calls := by decide +kernel
  have dealt : (Tally.new points).DuelsExactly calls := by decide +kernel
  obtain ⟨counts, scored⟩ :=
    session_eq_sum_over_victims points counted dealt ann
  exact ⟨⟨counted, dealt⟩, counts .damage (by decide), by decide +kernel,
    scored, by decide +kernel⟩

end Tally

end Fragboard.Match
