import Fragboard.Proofs.Match.SessionTally
import Mathlib.Data.List.Induction

/-!
# Reports of clears that have come due

The clear of the life and the clear of the round are scheduled, wait, and are
reported by the first poll at or after their time.  They do so apart from each
other, so both are described at once, by the `Timer` that they run on.

`Tally.pending?_perform` is all that a call does to a pending clear.  So a poll
reports a clear exactly if it was the last one to be scheduled and nothing has
settled it since (`Tally.clears_reported_once`).
-/

namespace Fragboard.Match

/-- The two clears that can be pending for a player. -/
inductive Timer where
  | life
  | round
deriving DecidableEq

/-- What a poll reports of a clear: whether it is a full one.  Those of the
round never are. -/
def DueClears.report? (due : DueClears) : Timer → Option Bool
  | .life => due.life
  | .round => if due.round then some false else none

namespace PlayerTally

def pending? (player : PlayerTally) : Timer → Option PendingClear
  | .life => player.pendingLife
  | .round => player.pendingRound.map fun due => { due := due, full := false }

theorem report?_takeDue (player : PlayerTally) (now : Float32)
    (timer : Timer) :
    (player.takeDue now).1.report? timer =
      ((player.pending? timer).filter fun pending => pending.due ≤ now).map
        PendingClear.full := by
  cases timer with
  | life => rfl
  | round =>
      cases waiting : player.pendingRound with
      | none => simp [takeDue, DueClears.report?, pending?, waiting]
      | some due =>
          by_cases reached : due ≤ now
          · simp [takeDue, DueClears.report?, pending?, waiting, reached,
              Option.filter_some]
          · simp [takeDue, DueClears.report?, pending?, waiting, reached,
              Option.filter_some]

/-- A poll takes away what it reports and nothing else. -/
theorem pending?_takeDue (player : PlayerTally) (now : Float32)
    (timer : Timer) :
    (player.takeDue now).2.pending? timer =
      if ((player.takeDue now).1.report? timer).isSome then none
      else player.pending? timer := by
  rw [report?_takeDue, Option.isSome_map]
  cases timer with
  | life => rfl
  | round =>
      cases waiting : player.pendingRound with
      | none => simp [takeDue, pending?, waiting]
      | some due =>
          by_cases reached : due ≤ now
          · simp [takeDue, pending?, waiting, reached]
          · simp [takeDue, pending?, waiting, reached]

theorem pending?_restart (player : PlayerTally) (full : Bool)
    (timer : Timer) :
    (player.restart full).pending? timer = player.pending? timer := by
  cases full <;> cases timer <;> rfl

end PlayerTally

namespace Tally

/-- The clear that a call schedules for a player. -/
def Call.schedule? (slot : Slot) (timer : Timer) : Call → Option PendingClear
  | .scheduleLife scheduled due full =>
    if scheduled = slot ∧ timer = .life then
      some { due := due, full := full }
    else
      none
  | .scheduleRound scheduled due =>
    if scheduled = slot ∧ timer = .round then
      some { due := due, full := false }
    else
      none
  | _ => none

/-- The call reports the clear of a player, or wipes the slot. -/
def settles (tally : Tally) (slot : Slot) (timer : Timer) : Call → Bool
  | .resetPlayer wiped _ => wiped = slot
  | .takeDue polled now =>
    polled = slot ∧ ((tally.takeDue polled now).1.report? timer).isSome
  | _ => false

section OneCall

variable (tally : Tally) (slot : Slot) (timer : Timer)

theorem pending?_change {changed : Slot} {change : PlayerTally → PlayerTally}
    (kept : ∀ player, (change player).pending? timer = player.pending? timer) :
    ((tally.change changed change).player slot).pending? timer =
      (tally.player slot).pending? timer :=
  tally.part_change_of_kept (·.pending? timer) slot (kept _)

theorem pending?_recordDeath (victim : Slot) :
    ((tally.recordDeath victim).player slot).pending? timer =
      (tally.player slot).pending? timer :=
  tally.pending?_change slot timer fun _ => by cases timer <;> rfl

/-- A call schedules a clear, or settles the pending one, or leaves it as it
is. -/
theorem pending?_perform (call : Call) :
    ((tally.perform call).player slot).pending? timer =
      (call.schedule? slot timer).or
        (if tally.settles slot timer call then none
        else (tally.player slot).pending? timer) := by
  cases call with
  | resetPlayer wiped name =>
      simp only [perform, resetPlayer, player_change, settles,
        decide_eq_true_eq, Call.schedule?, Option.none_or]
      split
      · cases timer <;> rfl
      · rfl
  | scheduleLife scheduled due full =>
      simp only [perform, scheduleLife, player_change, settles,
        Call.schedule?, Bool.false_eq_true, if_false]
      by_cases here : scheduled = slot
      · cases timer <;> simp [here, PlayerTally.pending?]
      · simp [here]
  | scheduleRound scheduled due =>
      simp only [perform, scheduleRound, player_change, settles,
        Call.schedule?, Bool.false_eq_true, if_false]
      by_cases here : scheduled = slot
      · cases timer <;> simp [here, PlayerTally.pending?]
      · simp [here]
  | takeDue polled now =>
      by_cases here : polled = slot
      · subst here
        simp [perform, takeDue, player_change, settles, Call.schedule?,
          PlayerTally.pending?_takeDue]
      · simp [perform, takeDue, player_change, settles, Call.schedule?, here]
  | recordHit attacker victim weapon damage region =>
      rw [perform, recordHit]
      refine (pending?_change _ slot timer ?_).trans
        (pending?_change _ slot timer ?_)
      · exact fun _ => by cases timer <;> rfl
      · exact fun _ => by cases timer <;> rfl
  | recordKill attacker victim weapon headshot teamkill =>
      rw [perform, recordKill]
      split
      · exact tally.pending?_recordDeath slot timer victim
      · dsimp only
        rw [pending?_recordDeath]
        refine (pending?_change _ slot timer ?_).trans
          (pending?_change _ slot timer ?_)
        · exact fun _ => by cases timer <;> rfl
        · exact fun _ => by cases timer <;> rfl
  | restart restarted full =>
      exact tally.pending?_change slot timer
        fun player => player.pending?_restart full timer
  | _ =>
      exact tally.pending?_change slot timer
        fun _ => by cases timer <;> rfl

variable {tally slot timer}

theorem schedule?_of_settles {call : Call}
    (settled : tally.settles slot timer call) :
    call.schedule? slot timer = none := by
  cases call with
  | scheduleLife => cases settled
  | scheduleRound => cases settled
  | _ => rfl

end OneCall

theorem run_concat (tally : Tally) (calls : List Call) (call : Call) :
    tally.run (calls ++ [call]) = (tally.run calls).perform call :=
  List.foldl_concat _ _ _ _

theorem run_append_cons (tally : Tally) (first rest : List Call)
    (call : Call) :
    tally.run (first ++ call :: rest) =
      ((tally.run first).perform call).run rest := by
  rw [run_append, run, List.foldl_cons, ← run]

/-- The clear of a player that was scheduled last in a sequence of calls, if it
has not been settled since. -/
def Scheduled (start : Tally) (slot : Slot) (timer : Timer)
    (calls : List Call) (pending : PendingClear) : Prop :=
  ∃ before call between, calls = before ++ call :: between ∧
    call.schedule? slot timer = some pending ∧
    ∀ first next rest, between = first ++ next :: rest →
      next.schedule? slot timer = none ∧
      (start.run (before ++ call :: first)).settles slot timer next = false

section History

variable {start : Tally} {slot : Slot} {timer : Timer} {calls : List Call}

theorem scheduled_concat_iff {call : Call} {pending : PendingClear} :
    start.Scheduled slot timer (calls ++ [call]) pending ↔
      call.schedule? slot timer = some pending ∨
      (call.schedule? slot timer = none ∧
        (start.run calls).settles slot timer call = false) ∧
      start.Scheduled slot timer calls pending := by
  constructor
  · rintro ⟨before, set, between, split, scheduled, kept⟩
    rcases List.eq_nil_or_concat between with rfl | ⟨others, last, rfl⟩
    · obtain ⟨rfl, last⟩ := List.append_inj' split rfl
      obtain rfl := List.singleton_inj.mp last
      exact .inl scheduled
    · rw [List.concat_eq_append, ← List.cons_append,
        ← List.append_assoc] at split
      obtain ⟨rfl, same⟩ := List.append_inj' split rfl
      obtain rfl := List.singleton_inj.mp same
      refine .inr ⟨kept others call [] List.concat_eq_append, ?_⟩
      refine ⟨before, set, others, rfl, scheduled, ?_⟩
      intro first next rest same
      apply kept first next (rest ++ [call])
      rw [same, List.concat_eq_append, List.append_assoc, List.cons_append]
  · rintro (scheduled | ⟨keeps, before, set, between, rfl, scheduled, kept⟩)
    · exact ⟨calls, call, [], rfl, scheduled, by simp⟩
    · refine ⟨before, set, between ++ [call], by simp, scheduled, ?_⟩
      intro first next rest same
      rcases List.eq_nil_or_concat rest with rfl | ⟨others, last, rfl⟩
      · obtain ⟨rfl, last⟩ := List.append_inj' same rfl
        obtain rfl := List.singleton_inj.mp last
        exact keeps
      · rw [List.concat_eq_append, ← List.cons_append,
          ← List.append_assoc] at same
        exact kept first next others (List.append_inj_left' same rfl)

/-- What is pending after some calls is what they scheduled last, unless it has
been settled. -/
theorem pending?_run_eq_some_iff
    (idle : (start.player slot).pending? timer = none)
    {pending : PendingClear} :
    ((start.run calls).player slot).pending? timer = some pending ↔
      start.Scheduled slot timer calls pending := by
  induction calls using List.reverseRecOn with
  | nil =>
      rw [run, List.foldl_nil, idle]
      simp [Scheduled]
  | append_singleton calls call ih =>
      rw [run_concat, pending?_perform, scheduled_concat_iff, ← ih]
      cases call.schedule? slot timer with
      | some scheduled => simp
      | none => cases (start.run calls).settles slot timer call <;> simp

/-- Calls that schedule nothing leave the pending clear or settle it. -/
theorem pending?_run_of_unscheduled (tally : Tally)
    (unscheduled : ∀ call ∈ calls, call.schedule? slot timer = none) :
    ((tally.run calls).player slot).pending? timer = none ∨
    ((tally.run calls).player slot).pending? timer =
      (tally.player slot).pending? timer := by
  induction calls generalizing tally with
  | nil => exact .inr rfl
  | cons call rest ih =>
      obtain ⟨first, later⟩ := List.forall_mem_cons.mp unscheduled
      have step := tally.pending?_perform slot timer call
      rw [first, Option.none_or] at step
      rcases ih (tally.perform call) later with gone | same
      · exact .inl gone
      · cases settled : tally.settles slot timer call with
        | true => exact .inl (same.trans (by rw [step, settled, if_pos rfl]))
        | false =>
            refine .inr (same.trans ?_)
            rw [step, settled]
            rfl

theorem report?_takeDue (tally : Tally) (now : Float32) :
    (tally.takeDue slot now).1.report? timer =
      (((tally.player slot).pending? timer).filter fun pending =>
        pending.due ≤ now).map PendingClear.full :=
  (tally.player slot).report?_takeDue now timer

theorem report?_eq_some_iff (tally : Tally) {now : Float32} {full : Bool} :
    (tally.takeDue slot now).1.report? timer = some full ↔
      ∃ due, (tally.player slot).pending? timer =
        some { due := due, full := full } ∧ due ≤ now := by
  rw [report?_takeDue, Option.map_eq_some_iff]
  constructor
  · rintro ⟨pending, reached, rfl⟩
    obtain ⟨waiting, reached⟩ := Option.filter_eq_some_iff.mp reached
    exact ⟨pending.due, waiting, of_decide_eq_true reached⟩
  · rintro ⟨due, waiting, reached⟩
    exact ⟨_, Option.filter_eq_some_iff.mpr
      ⟨waiting, decide_eq_true reached⟩, rfl⟩

section Later

variable {first rest : List Call} {next : Call}
  (unscheduled : ∀ later ∈ rest, later.schedule? slot timer = none)

include unscheduled

/-- A clear that was settled is not reported until one is scheduled anew. -/
theorem report?_of_settled
    (settled : (start.run first).settles slot timer next = true)
    (now : Float32) :
    ((start.run (first ++ next :: rest)).takeDue slot now).1.report? timer =
      none := by
  have gone : (((start.run first).perform next).player slot).pending? timer =
      none := by
    rw [pending?_perform, settled, schedule?_of_settles settled]
    rfl
  have stays : ((start.run (first ++ next :: rest)).player slot).pending?
      timer = none := by
    rw [run_append_cons]
    rcases pending?_run_of_unscheduled _ unscheduled with none_left | same
    · exact none_left
    · exact same.trans gone
  rw [report?_takeDue, stays]
  rfl

/-- Of the clears that were scheduled only the last one can be reported. -/
theorem report?_of_scheduled {pending : PendingClear}
    (scheduled : next.schedule? slot timer = some pending) {now : Float32}
    {full : Bool}
    (report : ((start.run (first ++ next :: rest)).takeDue slot
      now).1.report? timer = some full) :
    full = pending.full ∧ pending.due ≤ now := by
  have set : (((start.run first).perform next).player slot).pending? timer =
      some pending := by
    rw [pending?_perform, scheduled]
    rfl
  obtain ⟨due, waiting, reached⟩ := (report?_eq_some_iff _).mp report
  rw [run_append_cons] at waiting
  rcases pending?_run_of_unscheduled _ unscheduled with settled | same
  · cases settled.symm.trans waiting
  · obtain rfl := Option.some.inj ((same.trans set).symm.trans waiting)
    exact ⟨rfl, reached⟩

end Later

end History

/-- After any calls, a poll reports a clear of the life with its flag exactly if
that is the one scheduled last, neither reported nor wiped since, and its time
has come; and it is the same with the round.  So

* once a clear is reported or wiped, none is reported until one is scheduled
  anew;
* of several schedules only the last one is ever reported;
* no other call schedules, moves or cancels what is pending, so neither timer
  disturbs the other one. -/
theorem clears_reported_once (points : PointTable) (calls : List Call)
    (slot : Slot) :
    let start := Tally.new points
    let tally := start.run calls
    (∀ now full, (tally.takeDue slot now).1.life = some full ↔
      ∃ due, start.Scheduled slot .life calls { due := due, full := full } ∧
        due ≤ now) ∧
    (∀ now, (tally.takeDue slot now).1.round = true ↔
      ∃ due, start.Scheduled slot .round calls { due := due, full := false } ∧
        due ≤ now) ∧
    (∀ timer first next rest, calls = first ++ next :: rest →
      (start.run first).settles slot timer next = true →
      (∀ later ∈ rest, later.schedule? slot timer = none) →
      ∀ now, (tally.takeDue slot now).1.report? timer = none) ∧
    (∀ timer first next rest pending, calls = first ++ next :: rest →
      next.schedule? slot timer = some pending →
      (∀ later ∈ rest, later.schedule? slot timer = none) →
      ∀ now full, (tally.takeDue slot now).1.report? timer = some full →
        full = pending.full ∧ pending.due ≤ now) ∧
    ∀ timer call, call.schedule? slot timer = none →
      tally.settles slot timer call = false →
      ((tally.perform call).player slot).pending? timer =
        (tally.player slot).pending? timer := by
  intro start tally
  have idle (timer : Timer) : (start.player slot).pending? timer = none := by
    have blank : start.player slot = {} := Cells.get_fill _ _
    rw [blank]
    cases timer <;> rfl
  have reported (timer : Timer) (now : Float32) (full : Bool) :
      (tally.takeDue slot now).1.report? timer = some full ↔
        ∃ due, start.Scheduled slot timer calls { due := due, full := full } ∧
          due ≤ now := by
    rw [report?_eq_some_iff]
    simp only [pending?_run_eq_some_iff (idle timer), tally]
  refine ⟨reported .life, ?_, ?_, ?_, ?_⟩
  · intro now
    rw [← reported .round now false, DueClears.report?]
    cases (tally.takeDue slot now).1.round <;> simp
  · rintro timer first next rest rfl settled unscheduled now
    exact report?_of_settled unscheduled settled now
  · rintro timer first next rest pending rfl scheduled unscheduled now full
    exact report?_of_scheduled unscheduled scheduled
  · intro timer call unscheduled unsettled
    rw [pending?_perform, unscheduled, unsettled]
    rfl

end Tally

end Fragboard.Match
