import Fragboard.Match.Session
import Mathlib.Algebra.BigOperators.Group.List.Basic
import Mathlib.Algebra.Ring.Int.Defs
import Mathlib.Data.List.Nodup

/-!
# Reading the tables of players after a change

A change of one player is seen at the slot of that player and nowhere else, both
in a tally and among the players of a session.  So a sum over all slots changes
by as much as the value at that slot, and it is the same with the weapons of a
player.
-/

namespace Fragboard

theorem Slot.index_inj {first second : Slot} :
    first.index = second.index ↔ first = second := by
  cases first
  cases second
  simp

theorem Slot.nodup_all : Slot.all.Nodup :=
  List.Nodup.map (fun _ _ same => congrArg Slot.index same)
    (List.nodup_finRange slotCount)

theorem Weapon.index_inj {first second : Weapon} :
    first.index = second.index ↔ first = second := by
  cases first
  cases second
  simp

theorem Weapon.nodup_all : Weapon.all.Nodup :=
  List.Nodup.map (fun _ _ same => congrArg Weapon.index same)
    (List.nodup_finRange weaponCount)

/-- Sums of values that agree everywhere but at one place differ by what they
have there. -/
theorem sum_map_of_one {α : Type} [DecidableEq α] {places : List α}
    (distinct : places.Nodup) {one : α} (member : one ∈ places)
    {before after : α → Int}
    (others : ∀ other, one ≠ other → after other = before other) :
    (places.map after).sum + before one =
      (places.map before).sum + after one := by
  have rest : (places.erase one).map after =
      (places.erase one).map before := by
    apply List.map_congr_left
    intro other otherMember
    apply others
    rintro rfl
    exact distinct.not_mem_erase otherMember
  have order := List.perm_cons_erase member
  rw [(order.map after).sum_eq, (order.map before).sum_eq, List.map_cons,
    List.map_cons, List.sum_cons, List.sum_cons, rest]
  omega

namespace Match

namespace Tally

theorem player_change (tally : Tally) (slot other : Slot)
    (change : PlayerTally → PlayerTally) :
    (tally.change slot change).player other =
      if slot = other then change (tally.player other)
      else tally.player other := by
  simp only [Tally.change, player, Cells.get_alter, Slot.index_inj]

theorem player_change_self (tally : Tally) (slot : Slot)
    (change : PlayerTally → PlayerTally) :
    (tally.change slot change).player slot = change (tally.player slot) := by
  rw [player_change, if_pos rfl]

theorem player_change_of_ne (tally : Tally) {slot other : Slot}
    (change : PlayerTally → PlayerTally) (apart : slot ≠ other) :
    (tally.change slot change).player other = tally.player other := by
  rw [player_change, if_neg apart]

/-- A part of a player that a change of some player leaves alone. -/
theorem part_change_of_kept {α : Type} (part : PlayerTally → α)
    (tally : Tally) (slot : Slot) {changed : Slot}
    {change : PlayerTally → PlayerTally}
    (kept : part (change (tally.player changed)) =
      part (tally.player changed)) :
    part ((tally.change changed change).player slot) =
      part (tally.player slot) := by
  rw [player_change]
  split
  · next here =>
    rw [← here]
    exact kept
  · rfl

/-- Taking the due clears leaves all counters alone. -/
theorem life_takeDue (tally : Tally) (slot other : Slot) (now : Float32) :
    ((tally.takeDue slot now).2.player other).life =
      (tally.player other).life := by
  simp only [takeDue, player_change]
  split
  · next same => rw [← same, PlayerTally.takeDue]
  · rfl

theorem life_restart_self (tally : Tally) (slot : Slot) (full : Bool) :
    ((tally.restart slot full).player slot).life = {} := by
  simp only [restart, player_change_self, PlayerTally.restart]
  split <;> rfl

theorem life_clearRound (tally : Tally) (slot other : Slot) :
    ((tally.clearRound slot).player other).life =
      (tally.player other).life := by
  simp only [clearRound, player_change]
  split <;> rfl

theorem life_setName (tally : Tally) (slot other : Slot) (name : String) :
    ((tally.setName slot name).player other).life =
      (tally.player other).life := by
  simp only [setName, player_change]
  split <;> rfl

end Tally

namespace Session

variable {World : Type}

theorem player_setPlayer (session : Session World) (slot other : Slot)
    (state : PlayerState) :
    (session.setPlayer slot state).player other =
      if slot = other then state else session.player other := by
  simp only [setPlayer, player, Cells.get_set, Slot.index_inj]

@[simp] theorem player_setPlayer_self (session : Session World) (slot : Slot)
    (state : PlayerState) :
    (session.setPlayer slot state).player slot = state := by
  rw [player_setPlayer, if_pos rfl]

theorem player_setPlayer_of_ne (session : Session World) {slot other : Slot}
    (state : PlayerState) (apart : slot ≠ other) :
    (session.setPlayer slot state).player other = session.player other := by
  rw [player_setPlayer, if_neg apart]

end Session

end Match

end Fragboard
