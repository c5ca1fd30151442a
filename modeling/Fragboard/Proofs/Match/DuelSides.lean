import Fragboard.Proofs.Match.DuelEntries

/-!
# The two sides of a duel

What an attacker dealt to a victim is what the victim suffered from the
attacker.  Both entries take the same strikes, so they agree as long as neither
side is cleared alone, even where a counter has stopped at a bound.  Each carries
the name that the other player had at the last hit.
-/

namespace Fragboard

namespace StatBlock

theorem recordHit_idle (damage : Int32) (region : Option BodyRegion)
    {counter : Counter} (idle : counter ∉ Counter.ofDuels) :
    (zero.recordHit damage region).get counter = 0 := by
  cases counter with
  | shots => cases region <;> simp [recordHit, get_add]
  | deaths => cases region <;> simp [recordHit, get_add]
  | points => cases region <;> simp [recordHit, get_add]
  | _ => simp [Counter.mem_ofDuels_iff] at idle

theorem recordKill_idle (headshot teamkill : Bool) {counter : Counter}
    (idle : counter ∉ Counter.ofDuels) :
    (zero.recordKill headshot teamkill).get counter = 0 := by
  cases counter with
  | shots => cases headshot <;> cases teamkill <;> simp [recordKill, get_add]
  | deaths => cases headshot <;> cases teamkill <;> simp [recordKill, get_add]
  | points => cases headshot <;> cases teamkill <;> simp [recordKill, get_add]
  | _ => simp [Counter.mem_ofDuels_iff] at idle

theorem get_award_of_ne (block : StatBlock) (points : Int32)
    {counter : Counter} (unpaid : counter ≠ .points) :
    (block.award points).get counter = block.get counter := by
  rw [award, get_add, if_neg unpaid.symm]

/-- One block counts what the other does, points apart, and the other counts
nothing beyond hits and kills. -/
structure Mirrors (dealt suffered : StatBlock) : Prop where
  same : ∀ counter, counter ≠ .points →
    dealt.get counter = suffered.get counter
  idle : ∀ counter, counter ∉ Counter.ofDuels → suffered.get counter = 0

theorem Mirrors.merge {dealt suffered moreDealt moreSuffered : StatBlock}
    (mirrors : dealt.Mirrors suffered)
    (more : moreDealt.Mirrors moreSuffered) :
    (dealt.merge moreDealt).Mirrors (suffered.merge moreSuffered) := by
  constructor
  · intro counter unpaid
    rw [get_merge, get_merge, mirrors.same counter unpaid,
      more.same counter unpaid]
  · intro counter idle
    rw [get_merge, mirrors.idle counter idle, more.idle counter idle]
    rfl

theorem mirrors_zero : zero.Mirrors zero :=
  { same := fun _ _ => rfl
    idle := fun counter _ => get_zero counter }

end StatBlock

namespace Match

namespace Tally

theorem mirrors_of_struck {tally : Tally} {attacker victim : Slot}
    {call : Call} {strike : Strike}
    (struck : tally.strike? attacker victim call = some strike) :
    strike.dealt.Mirrors strike.suffered := by
  rcases strike?_cases struck with
    ⟨weapon, damage, region, _, rfl⟩ |
    ⟨_, weapon, headshot, teamkill, _, rfl⟩
  · constructor
    · exact fun counter unpaid => StatBlock.get_award_of_ne _ _ unpaid
    · exact fun counter idle => StatBlock.recordHit_idle damage region idle
  · constructor
    · exact fun counter unpaid => StatBlock.get_award_of_ne _ _ unpaid
    · exact fun counter idle =>
        StatBlock.recordKill_idle headshot teamkill idle

/-- Neither side of a duel is cleared by any of the calls. -/
def LeaveDuel (attacker victim : Slot) (calls : List Call) : Prop :=
  ∀ call ∈ calls, call.clears attacker .session = false ∧
    call.clears victim .session = false

instance (attacker victim : Slot) : DecidablePred (LeaveDuel attacker victim) :=
  fun calls => inferInstanceAs (Decidable (∀ call ∈ calls,
    call.clears attacker .session = false ∧
      call.clears victim .session = false))

def Call.isHitOf (attacker victim : Slot) : Call → Bool
  | .recordHit hitter struck _ _ _ => hitter = attacker ∧ struck = victim
  | _ => false

section Runs

variable {tally : Tally} {attacker victim : Slot}

theorem mirrors_perform
    (mirrors : ((tally.player attacker).dealt victim).stats.Mirrors
      ((tally.player victim).suffered attacker).stats)
    {call : Call} (left : call.clears attacker .session = false ∧
      call.clears victim .session = false) :
    (((tally.perform call).player attacker).dealt victim).stats.Mirrors
      (((tally.perform call).player victim).suffered attacker).stats := by
  rw [dealt_perform, suffered_perform, left.1, left.2]
  cases struck : tally.strike? attacker victim call with
  | none => exact mirrors
  | some strike => exact mirrors.merge (mirrors_of_struck struck)

theorem mirrors_run
    (mirrors : ((tally.player attacker).dealt victim).stats.Mirrors
      ((tally.player victim).suffered attacker).stats)
    {calls : List Call} (left : LeaveDuel attacker victim calls) :
    (((tally.run calls).player attacker).dealt victim).stats.Mirrors
      (((tally.run calls).player victim).suffered attacker).stats := by
  induction calls generalizing tally with
  | nil => exact mirrors
  | cons call rest ih =>
      obtain ⟨first, later⟩ := List.forall_mem_cons.mp left
      exact ih (mirrors_perform mirrors first) later

/-- A hit gives both sides the names of the moment. -/
theorem names_hit (tally : Tally) (attacker victim : Slot) (weapon : Weapon)
    (damage : Int32) (region : Option BodyRegion) :
    let struck := tally.perform
      (.recordHit attacker victim weapon damage region)
    ((struck.player attacker).dealt victim).name =
      (tally.player victim).name ∧
    ((struck.player victim).suffered attacker).name =
      (tally.player attacker).name := by
  intro struck
  simp only [struck, dealt_perform, suffered_perform, Call.clears, strike?,
    and_self, if_true, Bool.false_eq_true, if_false, Duel.dealAny, Duel.deal,
    Duel.sufferAny, Duel.suffer, hitStrike]

theorem isHit_of_struck {call : Call} {strike : Strike}
    (struck : tally.strike? attacker victim call = some strike) :
    strike.isHit = call.isHitOf attacker victim := by
  rcases strike?_cases struck with
    ⟨weapon, damage, region, rfl, rfl⟩ |
    ⟨_, weapon, headshot, teamkill, rfl, rfl⟩
  · simp [Call.isHitOf, hitStrike]
  · rfl

theorem names_perform_of_unhit (tally : Tally) {call : Call}
    (unhit : call.isHitOf attacker victim = false)
    (left : call.clears attacker .session = false ∧
      call.clears victim .session = false) :
    (((tally.perform call).player attacker).dealt victim).name =
      ((tally.player attacker).dealt victim).name ∧
    (((tally.perform call).player victim).suffered attacker).name =
      ((tally.player victim).suffered attacker).name := by
  rw [dealt_perform, suffered_perform, left.1, left.2]
  cases struck : tally.strike? attacker victim call with
  | none => exact ⟨rfl, rfl⟩
  | some strike =>
      have noHit : strike.isHit = false := (isHit_of_struck struck).trans unhit
      simp [Duel.dealAny, Duel.deal, Duel.sufferAny, Duel.suffer, noHit]

theorem names_run_of_unhit (tally : Tally) {calls : List Call}
    (unhit : ∀ call ∈ calls, call.isHitOf attacker victim = false)
    (left : LeaveDuel attacker victim calls) :
    (((tally.run calls).player attacker).dealt victim).name =
      ((tally.player attacker).dealt victim).name ∧
    (((tally.run calls).player victim).suffered attacker).name =
      ((tally.player victim).suffered attacker).name := by
  induction calls generalizing tally with
  | nil => exact ⟨rfl, rfl⟩
  | cons call rest ih =>
      obtain ⟨firstUnhit, laterUnhit⟩ := List.forall_mem_cons.mp unhit
      obtain ⟨firstLeft, laterLeft⟩ := List.forall_mem_cons.mp left
      have first := tally.names_perform_of_unhit firstUnhit firstLeft
      have later := ih (tally.perform call) laterUnhit laterLeft
      exact ⟨later.1.trans first.1, later.2.trans first.2⟩

end Runs

/-- Two players, not necessarily different, were neither replaced nor fully
cleared.  Then the attacker's entry for the victim and the victim's entry for
the attacker count the same hits and kills; neither counts shots or deaths, and
only the attacker's has points.  Since the last hit each has the name that the
other player bore at it. -/
theorem duel_sides_agree (points : PointTable) {attacker victim : Slot}
    {calls : List Call} (left : LeaveDuel attacker victim calls) :
    let tally := (Tally.new points).run calls
    let dealt := (tally.player attacker).victims.get victim.index
    let suffered := (tally.player victim).attackers.get attacker.index
    (∀ counter ∈ Counter.ofDuels,
      dealt.stats.get counter = suffered.stats.get counter) ∧
    (∀ duel ∈ [dealt, suffered],
      duel.stats.get .shots = 0 ∧ duel.stats.get .deaths = 0) ∧
    suffered.stats.get .points = 0 ∧
    ∀ before weapon damage region after,
      calls =
        before ++ .recordHit attacker victim weapon damage region :: after →
      (∀ call ∈ after, call.isHitOf attacker victim = false) →
      dealt.name = (((Tally.new points).run before).player victim).name ∧
      suffered.name =
        (((Tally.new points).run before).player attacker).name := by
  intro tally dealt suffered
  have blank : ∀ slot, (Tally.new points).player slot = {} := fun slot =>
    Cells.get_fill _ _
  have start : (((Tally.new points).player attacker).dealt victim).stats.Mirrors
      (((Tally.new points).player victim).suffered attacker).stats := by
    rw [blank, blank, PlayerTally.dealt, PlayerTally.suffered, Cells.get_fill,
      Cells.get_fill]
    exact StatBlock.mirrors_zero
  have mirrors : dealt.stats.Mirrors suffered.stats := mirrors_run start left
  have idle : ∀ counter, counter ≠ .points → counter ∉ Counter.ofDuels →
      dealt.stats.get counter = 0 ∧ suffered.stats.get counter = 0 := by
    intro counter unpaid absent
    have unused := mirrors.idle counter absent
    exact ⟨(mirrors.same counter unpaid).trans unused, unused⟩
  refine ⟨?_, ?_, ?_, ?_⟩
  · intro counter member
    exact mirrors.same counter ((Counter.mem_ofDuels_iff counter).mp member).2.2
  · have shots := idle .shots (by decide) (by decide)
    have deaths := idle .deaths (by decide) (by decide)
    intro duel member
    rcases List.mem_pair.mp member with rfl | rfl
    · exact ⟨shots.1, deaths.1⟩
    · exact ⟨shots.2, deaths.2⟩
  · exact mirrors.idle .points (by decide)
  · intro before weapon damage region after split unhit
    subst split
    have leftAfter : LeaveDuel attacker victim after := fun call member =>
      left call (List.mem_append_right _ (List.mem_cons_of_mem _ member))
    have hit := ((Tally.new points).run before).names_hit attacker victim
      weapon damage region
    have kept := (((Tally.new points).run before).perform
      (.recordHit attacker victim weapon damage region)).names_run_of_unhit
        unhit leftAfter
    have whole : tally = (((Tally.new points).run before).perform
        (.recordHit attacker victim weapon damage region)).run after :=
      List.foldl_append
    rw [← whole] at kept
    exact ⟨kept.1.trans hit.1, kept.2.trans hit.2⟩

/-- The damage stops at its bound on both sides, and both keep the names of the
second hit although the victim is renamed after it. -/
theorem duel_sides_agree_of_renamed :
    let ann : Slot := { index := 0 }
    let bob : Slot := { index := 1 }
    let cat : Slot := { index := 2 }
    let huge : Int32 := 2000000000
    let before : List Call :=
      [.setName ann "ann", .recordHit ann bob Weapon.piat huge none,
        .setName bob "bob"]
    let after : List Call :=
      [.setName bob "rob", .recordKill ann bob Weapon.piat false false,
        .restart bob false, .restart cat true,
        .recordHit bob ann Weapon.bazooka 5 none]
    let calls := before ++
      .recordHit ann bob Weapon.piat huge (some .chest) :: after
    let tally := (Tally.new (PointTable.uniform { hit := 4 })).run calls
    let dealt := (tally.player ann).victims.get bob.index
    let suffered := (tally.player bob).attackers.get ann.index
    LeaveDuel ann bob calls ∧
    dealt.stats.get .damage = suffered.stats.get .damage ∧
    dealt.stats.get .damage = 2147483647 ∧
    dealt.name = "bob" ∧ suffered.name = "ann" := by
  intro ann bob cat huge before after calls
  have left : LeaveDuel ann bob calls := by decide
  obtain ⟨counts, _, _, names⟩ :=
    duel_sides_agree (PointTable.uniform { hit := 4 }) left
  obtain ⟨victimName, attackerName⟩ :=
    names before Weapon.piat huge (some .chest) after rfl (by decide)
  exact ⟨left, counts .damage (by decide), by decide +kernel,
    victimName.trans (by decide +kernel),
    attackerName.trans (by decide +kernel)⟩

end Tally

end Match

end Fragboard
