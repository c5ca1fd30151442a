import Fragboard.Proofs.Match.TallyCalls

/-!
# Deaths in a tally

A death counts in every scope of the player who dies, in the total and in the row
of the weapon that the player holds.  No other call adds to the deaths of a
player; it leaves them alone or clears them.
-/

namespace Fragboard.Match

namespace Tally

/-- The call counts a death of a player. -/
def Call.kills (victim : Slot) : Call → Bool
  | .recordKill _ killed _ _ _ => killed = victim
  | _ => false

/-- The deaths of a player in a scope: all of them, or those with a certain
weapon in hand. -/
def deaths (tally : Tally) (slot : Slot) (scope : Scope)
    (row : Option Weapon) : Int :=
  ((((tally.player slot).scope scope).block row).get .deaths).toInt

section Deaths

variable {tally : Tally} {call : Call} {slot : Slot} {scope : Scope}
  {row : Option Weapon}

theorem recording?_of_unkilled (unkilled : call.kills slot = false)
    {recording : Recording}
    (noted : tally.recording? slot call = some recording) :
    recording.counts.get .deaths = 0 := by
  cases call with
  | recordShot shooter weapon =>
      obtain ⟨_, same⟩ := Option.ite_none_right_eq_some.mp noted
      obtain rfl := Option.some.inj same
      simp [StatBlock.recordShot, StatBlock.get_add]
  | recordHit attacker victim weapon damage region =>
      obtain ⟨_, same⟩ := Option.ite_none_right_eq_some.mp noted
      obtain rfl := Option.some.inj same
      cases region <;>
        simp [StatBlock.recordHit, StatBlock.award, StatBlock.get_add]
  | recordKill attacker victim weapon headshot teamkill =>
      have apart : victim ≠ slot := of_decide_eq_false unkilled
      rw [recording?, if_neg apart] at noted
      obtain ⟨_, same⟩ := Option.ite_none_right_eq_some.mp noted
      obtain rfl := Option.some.inj same
      cases headshot <;> cases teamkill <;>
        simp [StatBlock.recordKill, StatBlock.award, StatBlock.get_add]
  | awardObjective awarded points =>
      obtain ⟨_, same⟩ := Option.ite_none_right_eq_some.mp noted
      obtain rfl := Option.some.inj same
      simp [StatBlock.award, StatBlock.get_add]
  | _ => contradiction

theorem deaths_perform_of_unkilled (unkilled : call.kills slot = false) :
    (tally.perform call).deaths slot scope row =
      if call.clears slot scope then 0 else tally.deaths slot scope row := by
  rw [deaths, scope_perform]
  cases call.clears slot scope with
  | true =>
      simp only [if_true, ScopeTally.block_empty, StatBlock.get_zero]
      rfl
  | false =>
      cases noted : tally.recording? slot call with
      | none => rfl
      | some recording =>
          have nothing := recording?_of_unkilled unkilled noted
          simp only [Bool.false_eq_true, if_false, ScopeTally.noteAny,
            ScopeTally.block_note]
          split
          · rw [StatBlock.get_merge, nothing, satAdd_zero]
            rfl
          · rfl

/-- A death counts in the total and under the weapon in hand. -/
theorem deaths_perform_of_killed (killed : call.kills slot = true) :
    (tally.perform call).deaths slot scope row =
      if row.all (· = (tally.player slot).held) then
        min highest (tally.deaths slot scope row + 1)
      else tally.deaths slot scope row := by
  cases call with
  | recordKill attacker victim weapon headshot teamkill =>
      have here : victim = slot := of_decide_eq_true killed
      have dies : StatBlock.zero.recordDeath.get .deaths = 1 := by
        simp [StatBlock.recordDeath, StatBlock.get_add]
      have one : (1 : Int32).toInt = 1 := by decide
      have bound := lowest_le_toInt
        ((((tally.player slot).scope scope).block row).get .deaths)
      rw [deaths, scope_perform, recording?, if_pos here]
      simp only [Call.clears, Bool.false_eq_true, if_false,
        ScopeTally.noteAny, ScopeTally.block_note]
      split
      · rw [StatBlock.get_merge, dies, toInt_satAdd, one, deaths]
        simp only [lowest, highest] at *
        omega
      · rfl
  | _ => contradiction

theorem deaths_nonneg_perform (counted : 0 ≤ tally.deaths slot scope row) :
    0 ≤ (tally.perform call).deaths slot scope row := by
  cases killed : call.kills slot with
  | false =>
      rw [deaths_perform_of_unkilled killed]
      split
      · exact Int.le_refl 0
      · exact counted
  | true =>
      rw [deaths_perform_of_killed killed]
      split
      · simp only [highest]
        omega
      · exact counted

end Deaths

section Runs

variable {tally : Tally} {calls : List Call} {slot : Slot} {scope : Scope}
  {row : Option Weapon}

theorem deaths_nonneg_run (counted : 0 ≤ tally.deaths slot scope row) :
    0 ≤ (tally.run calls).deaths slot scope row := by
  induction calls generalizing tally with
  | nil => exact counted
  | cons call rest ih => exact ih (deaths_nonneg_perform counted)

theorem deaths_new (points : PointTable) :
    (Tally.new points).deaths slot scope row = 0 := by
  have blank : (Tally.new points).player slot = {} := Cells.get_fill _ _
  have empty : ({} : PlayerTally).scope scope = {} := by
    cases scope <;> rfl
  rw [deaths, blank, empty, ScopeTally.block_empty, StatBlock.get_zero]
  rfl

theorem deaths_run_of_unkilled
    (unkilled : ∀ call ∈ calls, call.kills slot = false) :
    (tally.run calls).deaths slot scope row = tally.deaths slot scope row ∨
    (tally.run calls).deaths slot scope row = 0 := by
  induction calls generalizing tally with
  | nil => exact .inl rfl
  | cons call rest ih =>
      obtain ⟨first, later⟩ := List.forall_mem_cons.mp unkilled
      have moved : (tally.perform call).deaths slot scope row = _ :=
        deaths_perform_of_unkilled first
      rcases @ih (tally.perform call) later with kept | cleared
      · rw [moved] at kept
        split at kept
        · exact .inr kept
        · exact .inl kept
      · exact .inr cleared

theorem deaths_run_of_kept
    (unkilled : ∀ call ∈ calls, call.kills slot = false)
    (kept : ∀ call ∈ calls, call.clears slot scope = false) :
    (tally.run calls).deaths slot scope row = tally.deaths slot scope row := by
  induction calls generalizing tally with
  | nil => rfl
  | cons call rest ih =>
      obtain ⟨firstUnkilled, laterUnkilled⟩ := List.forall_mem_cons.mp unkilled
      obtain ⟨firstKept, laterKept⟩ := List.forall_mem_cons.mp kept
      have first : (tally.perform call).deaths slot scope row = _ :=
        deaths_perform_of_unkilled firstUnkilled
      rw [firstKept] at first
      exact (ih laterUnkilled laterKept).trans first

end Runs

end Tally

end Fragboard.Match
