import Fragboard.Proofs.Match.TallyCalls

/-!
# Totals and weapons

Whatever is recorded in a scope goes into its total and into one of its weapon
rows, and a clear empties both.  So both hold the same sums, those of what was
recorded since the last clear, as long as no counter stops at a bound.
-/

namespace Fragboard.Match

def Scope.all : List Scope :=
  [.life, .round, .session]

theorem Scope.mem_all (scope : Scope) : scope ∈ Scope.all := by
  cases scope <;> decide

namespace ScopeTally

def underWeapon (tally : ScopeTally) (counter : Counter) (weapon : Weapon) :
    Int :=
  ((tally.byWeapon.get weapon.index).get counter).toInt

/-- A counter summed over the rows of all weapons. -/
def weaponTotal (tally : ScopeTally) (counter : Counter) : Int :=
  (Weapon.all.map (tally.underWeapon counter)).sum

/-- The total has certain sums, and so have the weapons together. -/
structure Holds (tally : ScopeTally) (sums : Counter → Int) : Prop where
  total : ∀ counter, (tally.total.get counter).toInt = sums counter
  weapons : ∀ counter, tally.weaponTotal counter = sums counter

/-- No counter stops at a bound when something is noted. -/
structure NotesExactly (tally : ScopeTally) (recording : Recording) :
    Prop where
  total : tally.total.MergesExactly recording.counts
  row : (tally.byWeapon.get recording.weapon.index).MergesExactly
    recording.counts

instance (tally : ScopeTally) (recording : Recording) :
    Decidable (tally.NotesExactly recording) :=
  decidable_of_iff
    (tally.total.MergesExactly recording.counts ∧
      (tally.byWeapon.get recording.weapon.index).MergesExactly
        recording.counts)
    ⟨fun both => ⟨both.1, both.2⟩,
      fun lossless => ⟨lossless.total, lossless.row⟩⟩

theorem holds_empty : ({} : ScopeTally).Holds fun _ => 0 := by
  constructor
  · intro counter
    exact congrArg Int32.toInt (StatBlock.get_zero counter)
  · intro counter
    have blank : ({} : ScopeTally).underWeapon counter = fun _ => 0 := by
      funext weapon
      simp [underWeapon]
    simp [weaponTotal, blank]

theorem weaponTotal_note {tally : ScopeTally} {recording : Recording}
    (exact : (tally.byWeapon.get recording.weapon.index).MergesExactly
      recording.counts) (counter : Counter) :
    (tally.note recording).weaponTotal counter =
      tally.weaponTotal counter + (recording.counts.get counter).toInt := by
  have others : ∀ other, recording.weapon ≠ other →
      (tally.note recording).underWeapon counter other =
        tally.underWeapon counter other := by
    intro other apart
    simp only [underWeapon, note, record, Cells.get_alter, Weapon.index_inj,
      if_neg apart]
  have here : (tally.note recording).underWeapon counter recording.weapon =
      tally.underWeapon counter recording.weapon +
        (recording.counts.get counter).toInt := by
    simp only [underWeapon, note, record, Cells.get_alter, if_true]
    exact exact.toInt_get counter
  have summed := sum_map_of_one Weapon.nodup_all recording.weapon.mem_all
    others
  rw [weaponTotal, weaponTotal]
  omega

theorem Holds.note {tally : ScopeTally} {sums : Counter → Int}
    (holds : tally.Holds sums) {recording : Recording}
    (exact : tally.NotesExactly recording) :
    (tally.note recording).Holds fun counter =>
      sums counter + (recording.counts.get counter).toInt := by
  constructor
  · intro counter
    rw [← holds.total counter]
    exact exact.total.toInt_get counter
  · intro counter
    rw [← holds.weapons counter]
    exact weaponTotal_note exact.row counter

end ScopeTally

namespace Tally

/-- No counter of a scope stops at a bound in a call. -/
def CallExactly (tally : Tally) (call : Call) : Prop :=
  ∀ slot, ∀ recording ∈ tally.recording? slot call,
    ∀ scope, ((tally.player slot).scope scope).NotesExactly recording

instance (tally : Tally) : DecidablePred tally.CallExactly := fun call =>
  decidable_of_iff
    (∀ slot ∈ Slot.all, ∀ recording ∈ tally.recording? slot call,
      ∀ scope ∈ Scope.all,
        ((tally.player slot).scope scope).NotesExactly recording)
    ⟨fun each slot recording noted scope =>
      each slot slot.mem_all recording noted scope scope.mem_all,
      fun exact slot _ recording noted scope _ =>
        exact slot recording noted scope⟩

def CallsExactly (tally : Tally) : List Call → Prop
  | [] => True
  | call :: rest =>
    tally.CallExactly call ∧ (tally.perform call).CallsExactly rest

instance decidableCallsExactly :
    (tally : Tally) → DecidablePred tally.CallsExactly
  | _, [] => .isTrue trivial
  | tally, call :: rest =>
    have := decidableCallsExactly (tally.perform call) rest
    inferInstanceAs (Decidable (tally.CallExactly call ∧
      (tally.perform call).CallsExactly rest))

/-- What a call adds to a counter of a player in every scope. -/
def gain (tally : Tally) (slot : Slot) (counter : Counter) (call : Call) :
    Int :=
  match tally.recording? slot call with
  | none => 0
  | some recording => (recording.counts.get counter).toInt

/-- What was recorded for a player in a scope since it was last cleared, beyond
what had been recorded at the start. -/
def recorded (tally : Tally) (slot : Slot) (scope : Scope)
    (sums : Counter → Int) : List Call → Counter → Int
  | [] => sums
  | call :: rest =>
    (tally.perform call).recorded slot scope
      (fun counter =>
        if call.clears slot scope then 0
        else sums counter + tally.gain slot counter call)
      rest

section Recorded

variable {slot : Slot} {scope : Scope} {tally : Tally} {sums : Counter → Int}

theorem holds_perform (holds : ((tally.player slot).scope scope).Holds sums)
    {call : Call} (exact : tally.CallExactly call) :
    (((tally.perform call).player slot).scope scope).Holds fun counter =>
      if call.clears slot scope then 0
      else sums counter + tally.gain slot counter call := by
  rw [scope_perform]
  cases call.clears slot scope with
  | true => exact ScopeTally.holds_empty
  | false =>
      cases noted : tally.recording? slot call with
      | none => simpa [gain, noted, ScopeTally.noteAny] using holds
      | some recording =>
          simpa [gain, noted, ScopeTally.noteAny] using
            holds.note (exact slot recording noted scope)

theorem holds_run (holds : ((tally.player slot).scope scope).Holds sums)
    {calls : List Call} (exact : tally.CallsExactly calls) :
    (((tally.run calls).player slot).scope scope).Holds
      (tally.recorded slot scope sums calls) := by
  induction calls generalizing tally sums with
  | nil => exact holds
  | cons call rest ih => exact ih (holds_perform holds exact.1) exact.2

end Recorded

theorem holds_new (points : PointTable) (slot : Slot) (scope : Scope) :
    (((Tally.new points).player slot).scope scope).Holds fun _ => 0 := by
  have blank : (Tally.new points).player slot = {} := Cells.get_fill _ _
  rw [blank]
  cases scope <;> exact ScopeTally.holds_empty

/-- After any calls in which no counter stops at a bound, the total of a scope is
the sum over its weapon rows, and both are what was recorded since the last
clear. -/
theorem total_eq_sum_of_weapons (points : PointTable) {calls : List Call}
    (exact : (Tally.new points).CallsExactly calls) (slot : Slot)
    (scope : Scope) (counter : Counter) :
    let tally := (((Tally.new points).run calls).player slot).scope scope
    (tally.total.get counter).toInt =
      (Weapon.all.map fun weapon =>
        ((tally.byWeapon.get weapon.index).get counter).toInt).sum ∧
    (tally.total.get counter).toInt =
      (Tally.new points).recorded slot scope (fun _ => 0) calls counter := by
  intro tally
  have holds := holds_run (holds_new points slot scope) exact
  have weapons : tally.weaponTotal counter = _ := holds.weapons counter
  exact ⟨(holds.total counter).trans weapons.symm, holds.total counter⟩

/-- A hit and a kill with one weapon, points and a death under others. -/
theorem total_eq_sum_of_three_weapons :
    let ann : Slot := { index := 0 }
    let bob : Slot := { index := 1 }
    let calls : List Call :=
      [.resetPlayer ann "ann", .setHeld ann Weapon.bazooka,
        .recordShot ann Weapon.piat,
        .recordHit ann bob Weapon.piat 90 (some .head),
        .recordKill ann bob Weapon.piat true false, .awardObjective ann (-5),
        .restart ann false, .setHeld ann Weapon.unarmed,
        .recordKill ann ann Weapon.unarmed false false]
    let points := PointTable.uniform { kill := 3, hit := 1 }
    let tally := (((Tally.new points).run calls).player ann).scope .round
    (Tally.new points).CallsExactly calls ∧
    (tally.total.get .points).toInt =
      (Weapon.all.map fun weapon =>
        ((tally.byWeapon.get weapon.index).get .points).toInt).sum ∧
    (tally.total.get .points).toInt = -1 := by
  intro ann bob calls points
  have exact : (Tally.new points).CallsExactly calls := by decide +kernel
  obtain ⟨summed, _⟩ := total_eq_sum_of_weapons points exact ann .round .points
  exact ⟨exact, summed, by decide +kernel⟩

end Tally

end Fragboard.Match
