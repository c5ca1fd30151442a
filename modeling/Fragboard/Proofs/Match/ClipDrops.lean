import Fragboard.Match.ScriptedWorld
import Fragboard.Proofs.Match.RecordedBlocks
import Fragboard.Proofs.Match.SessionTally

/-!
# Shots are drops of the clip

The engine says again and again which weapon a player holds and what is in its
clip.  Of all that it said about one weapon only two things remain: the last
clip, and as many shots as there were drops by exactly one step.  Records of
other weapons in between make no difference, and neither does the way in which a
weapon that stands for another was resolved at the time.
-/

namespace Fragboard.Match

/-- A weapon record and the world in which it comes. -/
structure WeaponNotice (World : Type) where
  world : World
  record : WeaponRecord

/-- From one clip to the next, both of them known, there is one step less. -/
def isDrop (weapon : Weapon) (before after : Int32) : Bool :=
  0 ≤ before.toInt ∧ 0 ≤ after.toInt ∧
    before.toInt - after.toInt = weapon.facts.clipStep

/-- The drops by one step between clips that follow each other. -/
def oneStepDrops (weapon : Weapon) (clips : List Int32) : Nat :=
  (clips.zip clips.tail).countP fun (before, after) =>
    isDrop weapon before after

theorem zip_tail_concat {α : Type} (values : List α) (last : α) :
    (values ++ [last]).zip (values ++ [last]).tail =
      values.zip values.tail ++ values.getLast?.toList.map (·, last) := by
  induction values with
  | nil => rfl
  | cons first rest ih =>
      cases rest with
      | nil => rfl
      | cons second others =>
          have later := congrArg (List.cons (first, second)) ih
          exact later

theorem isOneShot_eq_any (weapon : Weapon) (before : Option Int32)
    (after : Int32) :
    isOneShot weapon before after = before.any (isDrop weapon · after) := by
  cases before with
  | none => rfl
  | some clip =>
      rw [isOneShot, Option.any_some, isDrop, Bool.decide_and, Bool.decide_and,
        Bool.and_assoc]
      rfl

theorem oneStepDrops_concat (weapon : Weapon) (clips : List Int32)
    (clip : Int32) :
    oneStepDrops weapon (clips ++ [clip]) =
      oneStepDrops weapon clips +
        (isOneShot weapon clips.getLast? clip).toNat := by
  rw [oneStepDrops, zip_tail_concat, List.countP_append, isOneShot_eq_any]
  cases clips.getLast? with
  | none => rfl
  | some last =>
      cases drop : isDrop weapon last clip <;> simp [drop, oneStepDrops]

/-- Clips that are known are subtracted without overflow. -/
theorem toInt_sub_of_known {before after : Int32}
    (first : 0 ≤ before.toInt) (second : 0 ≤ after.toInt) :
    (before - after).toInt = before.toInt - after.toInt := by
  have above := toInt_le_highest before
  have below := toInt_le_highest after
  simp only [highest] at above below
  apply toInt_sub_of_fits <;> simp only [lowest, highest] <;> omega

theorem isOneShot_iff (weapon : Weapon) (before after : Int32) :
    isOneShot weapon (some before) after = true ↔
      0 ≤ before.toInt ∧ 0 ≤ after.toInt ∧
        (before - after).toInt = weapon.facts.clipStep := by
  simp only [isOneShot, Bool.and_eq_true, decide_eq_true_eq, beq_iff_eq,
    and_assoc]
  constructor
  · rintro ⟨first, second, drop⟩
    exact ⟨first, second, (toInt_sub_of_known first second).trans drop⟩
  · rintro ⟨first, second, drop⟩
    exact ⟨first, second, (toInt_sub_of_known first second).symm.trans drop⟩

theorem shots_recordShot (block : StatBlock) :
    (block.recordShot.get .shots).toInt =
      min highest ((block.get .shots).toInt + 1) := by
  have above := lowest_le_toInt (block.get .shots)
  have one : (1 : Int32).toInt = 1 := by decide
  rw [StatBlock.recordShot, StatBlock.get_add, if_pos rfl, toInt_satAdd, one]
  simp only [lowest, highest] at *
  omega

section Notices

variable {World : Type} [GameWorld World]

/-- The weapon that a record is about, unless the record is ignored. -/
def recordedWeapon? (world : World) (player : Slot) (record : WeaponRecord) :
    Option Weapon :=
  if record.active then
    (Weapon.ofNumber? record.weapon).map (trueWeapon world player)
  else none

/-- The tally after some weapon records of a player. -/
def Tally.noticeAll (tally : Tally) (player : Slot)
    (notices : List (WeaponNotice World)) : Tally :=
  notices.foldl
    (fun tally notice =>
      (weaponSwitch notice.world tally player notice.record).2) tally

/-- The clips of a weapon, as they were recorded. -/
def clipsOf (player : Slot) (weapon : Weapon)
    (notices : List (WeaponNotice World)) : List Int32 :=
  notices.filterMap fun notice =>
    if recordedWeapon? notice.world player notice.record = some weapon then
      some notice.record.clip
    else none

section OneRecord

variable {world : World} {player : Slot} {record : WeaponRecord}
  {weapon : Weapon} (tally : Tally)

theorem weaponSwitch_of_ignored
    (ignored : recordedWeapon? world player record = none) :
    weaponSwitch world tally player record = (none, tally) := by
  cases active : record.active with
  | false => simp only [weaponSwitch, active]
  | true =>
      cases known : Weapon.ofNumber? record.weapon with
      | none => simp only [weaponSwitch, active, known]
      | some named => simp [recordedWeapon?, active, known] at ignored

theorem switchCalls_of_recorded
    (recorded : recordedWeapon? world player record = some weapon) :
    switchCalls world tally player record =
      [.setHeld player weapon, .swapClip player weapon record.clip] ++
        if isOneShot weapon (tally.clip? player weapon) record.clip then
          [.recordShot player weapon]
        else [] := by
  obtain ⟨active, found⟩ := Option.ite_none_right_eq_some.mp recorded
  obtain ⟨named, known, rfl⟩ := Option.map_eq_some_iff.mp found
  simp only [switchCalls, active, known]
  rfl

theorem clip?_weaponSwitch
    (recorded : recordedWeapon? world player record = some weapon)
    (other : Weapon) :
    (weaponSwitch world tally player record).2.clip? player other =
      if weapon = other then some record.clip
      else tally.clip? player other := by
  let noted := tally.run
    [.setHeld player weapon, .swapClip player weapon record.clip]
  have swapped : noted.clip? player other =
      if weapon = other then some record.clip
      else tally.clip? player other := by
    simp only [noted, Tally.run, List.foldl_cons, List.foldl_nil, Tally.perform,
      Tally.clip?, Tally.setHeld, Tally.swapClip, Tally.player_change_self,
      Cells.get_set, Weapon.index_inj]
  have arms : ((weaponSwitch world tally player record).2.player player).arms =
      (noted.player player).arms := by
    rw [tally_weaponSwitch, switchCalls_of_recorded tally recorded,
      Tally.run_append]
    apply Tally.arms_run
    intro call member
    rw [List.mem_singleton.mp (List.mem_ite_nil_right.mp member).2]
    rfl
  rw [← swapped]
  exact congrArg (fun held => held.2.get other.index) arms

/-- The row of a weapon counts a shot if that weapon was fired. -/
theorem block_weaponSwitch
    (recorded : recordedWeapon? world player record = some weapon)
    (scope : Scope) (other : Weapon) :
    (weaponSwitch world tally player record).2.block
        (.scope player scope (some other)) =
      if weapon = other ∧
          isOneShot weapon (tally.clip? player weapon) record.clip = true then
        (tally.block (.scope player scope (some other))).recordShot
      else tally.block (.scope player scope (some other)) := by
  let place : Tally.Place := .scope player scope (some other)
  let noted := tally.run
    [.setHeld player weapon, .swapClip player weapon record.clip]
  have kept : noted.block place = tally.block place := by
    simp only [noted, Tally.run, List.foldl_cons, List.foldl_nil]
    rw [Tally.block_perform, Tally.block_perform]
    rfl
  have part : noted.part? place (.recordShot player weapon) =
      if weapon = other then some StatBlock.zero.recordShot else none := by
    by_cases same : weapon = other
    · simp [place, Tally.part?, Tally.recording?, same, Option.filter]
    · simp [place, Tally.part?, Tally.recording?, same, Ne.symm same,
        Option.filter]
  have fired : (noted.perform (.recordShot player weapon)).block place =
      if weapon = other then (tally.block place).recordShot
      else tally.block place := by
    rw [Tally.block_record _ rfl, kept, part]
    split
    · exact (StatBlock.isMerge_recordShot _).symm
    · rfl
  rw [tally_weaponSwitch, switchCalls_of_recorded tally recorded,
    Tally.run_append]
  cases isOneShot weapon (tally.clip? player weapon) record.clip with
  | false =>
      have unfired : ¬(weapon = other ∧ false = true) := fun shot =>
        Bool.false_ne_true shot.2
      rw [if_neg unfired]
      exact kept
  | true =>
      simp only [and_true]
      exact fired

end OneRecord

/-- The tally knows of a player's weapon what these clips say. -/
structure Tally.Follows (tally : Tally) (player : Slot) (weapon : Weapon)
    (clips : List Int32) : Prop where
  clip : tally.clip? player weapon = clips.getLast?
  shots : ∀ scope,
    ((tally.block (.scope player scope (some weapon))).get .shots).toInt =
      min highest (oneStepDrops weapon clips)

theorem Tally.follows_resetPlayer (tally : Tally) (player : Slot)
    (name : String) (weapon : Weapon) :
    (tally.resetPlayer player name).Follows player weapon [] := by
  have wiped : (tally.resetPlayer player name).player player =
      { name := name } := tally.player_change_self player _
  constructor
  · rw [clip?, wiped]
    exact Cells.get_fill _ _
  · intro scope
    have empty : ({ name := name } : PlayerTally).scope scope = {} := by
      cases scope <;> rfl
    rw [block, wiped, empty, ScopeTally.block_empty, StatBlock.get_zero]
    rfl

section Following

variable {tally : Tally} {player : Slot} {weapon : Weapon} {clips : List Int32}
  (follows : tally.Follows player weapon clips)

include follows

theorem Tally.Follows.recorded {world : World} {record : WeaponRecord}
    (recorded : recordedWeapon? world player record = some weapon) :
    (weaponSwitch world tally player record).2.Follows player weapon
      (clips ++ [record.clip]) := by
  constructor
  · rw [clip?_weaponSwitch tally recorded, if_pos rfl, List.getLast?_concat]
  · intro scope
    have before := follows.shots scope
    rw [block_weaponSwitch tally recorded, oneStepDrops_concat, ← follows.clip]
    cases isOneShot weapon (tally.clip? player weapon) record.clip with
    | false => simpa using before
    | true =>
        simp only [and_self, if_true, shots_recordShot, before, Bool.toNat_true,
          Nat.cast_add, Nat.cast_one]
        omega

/-- Records that are ignored or name other weapons make no difference. -/
theorem Tally.Follows.unrecorded {world : World} {record : WeaponRecord}
    (unrecorded : recordedWeapon? world player record ≠ some weapon) :
    (weaponSwitch world tally player record).2.Follows player weapon clips := by
  cases recorded : recordedWeapon? world player record with
  | none =>
      rw [weaponSwitch_of_ignored tally recorded]
      exact follows
  | some other =>
      have apart : other ≠ weapon := by
        rintro rfl
        exact unrecorded recorded
      constructor
      · rw [clip?_weaponSwitch tally recorded, if_neg apart]
        exact follows.clip
      · intro scope
        rw [block_weaponSwitch tally recorded, if_neg fun shot => apart shot.1]
        exact follows.shots scope

theorem Tally.Follows.noticeAll (notices : List (WeaponNotice World)) :
    (tally.noticeAll player notices).Follows player weapon
      (clips ++ clipsOf player weapon notices) := by
  induction notices generalizing tally clips with
  | nil =>
      rw [clipsOf, List.filterMap_nil, List.append_nil]
      exact follows
  | cons notice rest ih =>
      rw [clipsOf, List.filterMap_cons]
      split
      · next silent =>
        apply ih
        apply follows.unrecorded
        intro recorded
        rw [if_pos recorded] at silent
        contradiction
      · next clip told =>
        obtain ⟨recorded, here⟩ := Option.ite_none_right_eq_some.mp told
        obtain rfl := Option.some.inj here
        rw [List.append_cons]
        exact ih (follows.recorded recorded)

end Following

/-- A player's slot is wiped, and then come any weapon records.  The shots that
every scope has of a weapon are the drops of its clip by one step, up to the
bound, and its clip is the last one recorded.  A record that is ignored changes
nothing; one that is not sets the clip of its weapon and leaves the others
alone.  Only clips that are known are compared, and their difference is a
word. -/
theorem shots_eq_one_step_drops (tally : Tally) (player : Slot) (name : String)
    (notices : List (WeaponNotice World)) (weapon : Weapon) :
    let after := (tally.resetPlayer player name).noticeAll player notices
    let clips := clipsOf player weapon notices
    (∀ scope,
      ((((after.player player).scope scope).byWeapon.get weapon.index).get
        .shots).toInt = min highest (oneStepDrops weapon clips)) ∧
    after.clip? player weapon = clips.getLast? ∧
    (∀ notice : WeaponNotice World,
      recordedWeapon? notice.world player notice.record = none →
      weaponSwitch notice.world after player notice.record = (none, after)) ∧
    (∀ (notice : WeaponNotice World) (named : Weapon),
      recordedWeapon? notice.world player notice.record = some named →
      ∀ other,
        (weaponSwitch notice.world after player notice.record).2.clip? player
            other =
          if named = other then some notice.record.clip
          else after.clip? player other) ∧
    ∀ before next : Int32,
      (0 ≤ before.toInt → 0 ≤ next.toInt →
        (before - next).toInt = before.toInt - next.toInt) ∧
      (isOneShot weapon (some before) next = true ↔
        0 ≤ before.toInt ∧ 0 ≤ next.toInt ∧
          (before - next).toInt = weapon.facts.clipStep) := by
  intro after clips
  have follows : after.Follows player weapon clips :=
    (tally.follows_resetPlayer player name weapon).noticeAll notices
  exact ⟨follows.shots, follows.clip,
    fun _ ignored => weaponSwitch_of_ignored after ignored,
    fun _ _ recorded => clip?_weaponSwitch after recorded,
    fun before next => ⟨toInt_sub_of_known, isOneShot_iff weapon before next⟩⟩

end Notices

/-- Ann fires two rifles, which the engine reports as one where she has the
second equipped, and a machine gun that takes two rounds a shot.  The first
rifle is last seen with a clip that follows an unknown one. -/
theorem shots_of_mixed_records :
    let ann : Slot := { index := 0 }
    let garand : Weapon := ⟨5⟩
    let spring : Weapon := ⟨9⟩
    let machineGun : Weapon := ⟨17⟩
    let plain := (ScriptedWorld.empty.join ann 1).2
    let armed := plain.setEquipped ann (some spring)
    let told (world : ScriptedWorld) (weapon clip : Int32) :
        WeaponNotice ScriptedWorld :=
      { world := world
        record := { active := true, weapon := weapon, clip := clip } }
    let notices :=
      [told plain 5 8, told plain 17 100, told armed 5 5, told plain 5 7,
        told plain 17 98, told armed 9 4, told plain 42 6,
        { world := plain, record := { weapon := 5, clip := 6 } },
        told plain 5 (-1), told plain 5 6]
    let after := ((Tally.new PointTable.blank).resetPlayer ann "ann").noticeAll
      ann notices
    let shots (weapon : Weapon) :=
      ((((after.player ann).scope .life).byWeapon.get weapon.index).get
        .shots).toInt
    clipsOf ann garand notices = [8, 7, -1, 6] ∧
    after.clip? ann garand = some 6 ∧
    shots garand = 1 ∧ shots spring = 1 ∧ shots machineGun = 1 := by
  intro ann garand spring machineGun plain armed told notices after shots
  have rifle : clipsOf ann garand notices = [8, 7, -1, 6] := by
    decide +kernel
  have fired (weapon : Weapon)
      (once : oneStepDrops weapon (clipsOf ann weapon notices) = 1) :
      shots weapon = 1 := by
    obtain ⟨counted, _⟩ := shots_eq_one_step_drops
      (Tally.new PointTable.blank) ann "ann" notices weapon
    refine (counted .life).trans ?_
    rw [once]
    decide
  obtain ⟨_, last, _⟩ := shots_eq_one_step_drops
    (Tally.new PointTable.blank) ann "ann" notices garand
  rw [rifle] at last
  exact ⟨rifle, last, fired garand (by decide +kernel),
    fired spring (by decide +kernel), fired machineGun (by decide +kernel)⟩

end Fragboard.Match
