import Fragboard.Proofs.Match.ScriptedMatch

/-!
# How long entities last

The scripted world grants handles: a player who joins gets the next generation of
its own row, and anything else gets a new row.  What some calls granted is read
off the calls alone (`ScriptedWorld.Created`), and no other entity ever exists
(`ScriptedWorld.Counted`).

Rows and generations are words, so they come round.  Until they do
(`ScriptedWorld.Lasting`), no handle is granted twice.  An entity that exists at
two times has then existed all the time in between
(`Session.entityValid_between`).
-/

namespace Fragboard.Match

namespace ScriptedWorld

/-- What a handle is granted for. -/
inductive Grant where
  /-- A player joins, who has joined so many times before. -/
  | player (slot : Slot) (joins : Nat)
  /-- Something else is put up after so many others. -/
  | other (spawns : Nat)

def Grant.handle : Grant → EntityHandle
  | .player slot joins =>
    { index := UInt32.ofNat slot.number, generation := UInt32.ofNat joins }
  | .other spawns =>
    { index := UInt32.ofNat (slotCount + 1 + spawns), generation := 0 }

def Call.joins (slot : Slot) : Call → Bool
  | .join joined _ => joined = slot
  | _ => false

/-- The call puts up an entity that is not a player's. -/
def Call.spawns : Call → Bool
  | .spawn _ | .placeObject _ _ => true
  | _ => false

/-- The call does not write another handle over a player's, which of all calls
only `edit` could do. -/
def Call.KeepsHandles : Call → Prop
  | .edit _ change => ∀ player, (change player).entity = player.entity
  | _ => True

/-- What a call makes a grant for, after other calls. -/
def Call.grant? (before : List Call) : Call → Option Grant
  | .join slot _ => some (.player slot (before.countP (Call.joins slot)))
  | .spawn _ | .placeObject _ _ => some (.other (before.countP Call.spawns))
  | _ => none

/-- The grants of some calls. -/
def Grant.Made (calls : List Call) : Grant → Prop
  | .player slot joins => joins < calls.countP (Call.joins slot)
  | .other spawns => spawns < calls.countP Call.spawns

def Created (calls : List Call) (entity : EntityHandle) : Prop :=
  ∃ grant : Grant, grant.Made calls ∧ grant.handle = entity

/-- The words have not come round to a handle.  The row of a player can be
reached by other entities only when the rows have come round. -/
structure Lasting (entity : EntityHandle) (calls : List Call) : Prop where
  kept : ∀ call ∈ calls, call.KeepsHandles
  joins : ∀ slot, calls.countP (Call.joins slot) < 2 ^ 32
  spawns : calls.countP Call.spawns < 2 ^ 32
  unwrapped : (∀ slot : Slot, entity.index ≠ UInt32.ofNat slot.number) ∨
    slotCount + 1 + calls.countP Call.spawns ≤ 2 ^ 32

theorem Lasting.of_append {entity : EntityHandle} {calls more : List Call}
    (lasting : Lasting entity (calls ++ more)) : Lasting entity calls := by
  have fewer (counts : Call → Bool) :
      calls.countP counts ≤ (calls ++ more).countP counts :=
    (List.sublist_append_left calls more).countP_le
  refine ⟨?_, ?_, ?_, ?_⟩
  · exact fun call member => lasting.kept call (List.mem_append_left _ member)
  · exact fun slot => (fewer _).trans_lt (lasting.joins slot)
  · exact (fewer _).trans_lt lasting.spawns
  · exact lasting.unwrapped.imp_right
      (Nat.add_le_add_left (fewer Call.spawns) _).trans

section Grants

variable {calls : List Call}

theorem Grant.Made.append {grant : Grant} (made : grant.Made calls)
    (more : List Call) : grant.Made (calls ++ more) := by
  have sublist := List.sublist_append_left calls more
  cases grant with
  | player slot joins => exact made.trans_le sublist.countP_le
  | other spawns => exact made.trans_le sublist.countP_le

theorem Created.append {entity : EntityHandle} (created : Created calls entity)
    (more : List Call) : Created (calls ++ more) entity := by
  obtain ⟨grant, made, granted⟩ := created
  exact ⟨grant, made.append more, granted⟩

theorem countP_concat (counts : Call → Bool) (call : Call) :
    (calls ++ [call]).countP counts =
      if counts call then calls.countP counts + 1 else calls.countP counts := by
  rw [List.countP_append, List.countP_singleton]
  split <;> rfl

/-- A grant is made by its call and was not made before. -/
theorem made_of_grant? {call : Call} {grant : Grant}
    (granted : call.grant? calls = some grant) :
    ¬grant.Made calls ∧ grant.Made (calls ++ [call]) := by
  cases call with
  | join slot team =>
      obtain rfl := Option.some.inj granted
      refine ⟨Nat.lt_irrefl _, ?_⟩
      rw [Grant.Made, countP_concat, Call.joins, if_pos (decide_eq_true rfl)]
      exact Nat.lt_succ_self _
  | spawn position =>
      obtain rfl := Option.some.inj granted
      refine ⟨Nat.lt_irrefl _, ?_⟩
      rw [Grant.Made, countP_concat, Call.spawns, if_pos rfl]
      exact Nat.lt_succ_self _
  | placeObject slot position =>
      obtain rfl := Option.some.inj granted
      refine ⟨Nat.lt_irrefl _, ?_⟩
      rw [Grant.Made, countP_concat, Call.spawns, if_pos rfl]
      exact Nat.lt_succ_self _
  | _ => contradiction

/-- Words that count below their bound tell what was counted. -/
theorem ofNat_inj {left right : Nat} (below : left < 2 ^ 32)
    (other : right < 2 ^ 32) (same : UInt32.ofNat left = UInt32.ofNat right) :
    left = right := by
  have equal := congrArg UInt32.toNat same
  rwa [UInt32.toNat_ofNat_of_lt' below, UInt32.toNat_ofNat_of_lt' other]
    at equal

theorem number_le (slot : Slot) : slot.number ≤ slotCount :=
  slot.index.isLt

theorem number_lt (slot : Slot) : slot.number < 2 ^ 32 :=
  (number_le slot).trans_lt (by decide)

theorem handle_other_ne_player {slot : Slot} {joins spawns : Nat}
    (lasting : Lasting (Grant.player slot joins).handle calls)
    (made : (Grant.other spawns).Made calls) :
    (Grant.other spawns).handle ≠ (Grant.player slot joins).handle := by
  intro same
  have row : UInt32.ofNat (slotCount + 1 + spawns) =
      UInt32.ofNat slot.number := congrArg EntityHandle.index same
  rcases lasting.unwrapped with apart | bound
  · exact apart slot rfl
  · have number := number_le slot
    have before : spawns < calls.countP Call.spawns := made
    have equal := ofNat_inj (by omega) (by omega) row
    omega

/-- No handle is granted twice. -/
theorem grant_unique {one other : Grant}
    (lasting : Lasting one.handle calls) (made : one.Made calls)
    (again : other.Made calls) (same : one.handle = other.handle) :
    one = other := by
  cases one with
  | player slot joins =>
      cases other with
      | player slot' joins' =>
          have number : slot.number = slot'.number :=
            ofNat_inj (number_lt slot) (number_lt slot')
              (congrArg EntityHandle.index same)
          have here : slot = slot' :=
            Slot.index_inj.mp (Fin.ext (Nat.succ.inj number))
          subst here
          have before : joins < calls.countP (Call.joins slot) := made
          have after : joins' < calls.countP (Call.joins slot) := again
          have bound := lasting.joins slot
          have generation := ofNat_inj (before.trans bound) (after.trans bound)
            (congrArg EntityHandle.generation same)
          rw [generation]
      | other spawns =>
          exact absurd same.symm (handle_other_ne_player lasting again)
  | other spawns =>
      cases other with
      | player slot joins =>
          exact absurd same (handle_other_ne_player (same ▸ lasting) made)
      | other spawns' =>
          have row : UInt32.ofNat (slotCount + 1 + spawns) =
              UInt32.ofNat (slotCount + 1 + spawns') :=
            congrArg EntityHandle.index same
          have equal := congrArg UInt32.toNat row
          rw [UInt32.toNat_ofNat', UInt32.toNat_ofNat'] at equal
          have before : spawns < calls.countP Call.spawns := made
          have after : spawns' < calls.countP Call.spawns := again
          have bound := lasting.spawns
          have count : spawns = spawns' := by omega
          rw [count]

end Grants

theorem entityValid_iff {world : ScriptedWorld} {entity : EntityHandle} :
    world.entityValid entity = true ↔
      ∃ position, (entity, position) ∈ world.entities := by
  rw [entityValid, positionOf, List.lookup_isSome_iff]
  simp

theorem entityValid_of_free {world : ScriptedWorld}
    {freed entity : EntityHandle}
    (valid : (world.free freed).entityValid entity = true) :
    world.entityValid entity = true := by
  obtain ⟨position, member⟩ := entityValid_iff.mp valid
  exact entityValid_iff.mpr ⟨position, List.mem_of_mem_filter member⟩

theorem entityValid_of_place {world : ScriptedWorld}
    {placed entity : EntityHandle} {origin : Position}
    (valid : (world.place placed origin).entityValid entity = true) :
    world.entityValid entity = true ∨ placed = entity := by
  obtain ⟨position, member⟩ := entityValid_iff.mp valid
  rcases List.mem_cons.mp member with same | kept
  · exact .inr (Prod.mk.inj same).1.symm
  · exact .inl (entityValid_of_free (entityValid_iff.mpr ⟨position, kept⟩))

/-- The handle that a player has, in the game or not. -/
def handle? (world : ScriptedWorld) (slot : Slot) : Option EntityHandle :=
  (world.player? slot).map (·.entity)

theorem handle?_changePlayer (world : ScriptedWorld) (changed slot : Slot)
    {change : ScriptedPlayer → ScriptedPlayer}
    (kept : ∀ player, (change player).entity = player.entity) :
    (world.changePlayer changed change).handle? slot = world.handle? slot := by
  rw [handle?, player?_changePlayer]
  split
  · rw [Option.map_map]
    exact congrArg (Option.map · (world.player? slot)) (funext kept)
  · rfl

theorem handle?_join (world : ScriptedWorld) (joined slot : Slot)
    (team : Int32) :
    (world.join joined team).2.handle? slot =
      if joined = slot then some (world.join joined team).1
      else world.handle? slot := by
  simp only [handle?, player?, join, place, free, Cells.get_set,
    Slot.index_inj]
  split
  · rfl
  · rfl

/-- The handle of a player after so many joins. -/
def lastHandle? (slot : Slot) : Nat → Option EntityHandle
  | 0 => none
  | joins + 1 => some (Grant.player slot joins).handle

/-- A world after some calls: it counts what they put up, and nothing exists
without their grant. -/
structure Counted (calls : List Call) (world : ScriptedWorld) : Prop where
  nextIndex : world.nextIndex =
    UInt32.ofNat (slotCount + 1 + calls.countP Call.spawns)
  handles : ∀ slot,
    world.handle? slot = lastHandle? slot (calls.countP (Call.joins slot))
  created : ∀ entity, world.entityValid entity = true → Created calls entity

theorem counted_empty : Counted [] empty where
  nextIndex := rfl
  handles := fun slot => by
    rw [handle?, player?, empty, Cells.get_fill]
    rfl
  created := fun entity valid => by contradiction

section Steps

variable {calls : List Call} {world : ScriptedWorld}

theorem Counted.joined (counted : Counted calls world) (slot : Slot)
    (team : Int32) :
    (world.join slot team).1 =
      (Grant.player slot (calls.countP (Call.joins slot))).handle := by
  have handle := counted.handles slot
  unfold handle? at handle
  unfold join
  dsimp only
  cases joins : calls.countP (Call.joins slot) with
  | zero =>
      rw [joins] at handle
      rw [Option.map_eq_none_iff.mp handle]
      rfl
  | succ before =>
      rw [joins] at handle
      obtain ⟨player, seated, same⟩ := Option.map_eq_some_iff.mp handle
      rw [seated]
      dsimp only
      rw [same, Grant.handle, Grant.handle, EntityHandle.nextGeneration,
        UInt32.ofNat_add]
      rfl

theorem Counted.handle?_perform (counted : Counted calls world) {call : Call}
    (kept : call.KeepsHandles) (slot : Slot) :
    (world.perform call).handle? slot =
      if call.joins slot then
        some (Grant.player slot (calls.countP (Call.joins slot))).handle
      else world.handle? slot := by
  cases call with
  | join joined team =>
      rw [perform, handle?_join, counted.joined, Call.joins]
      simp only [decide_eq_true_eq]
      split
      · next here => rw [here]
      · rfl
  | leave slot =>
      simp only [perform, leave]
      split
      · rfl
      · exact world.handle?_changePlayer _ _ fun _ => rfl
  | placeObject near position =>
      exact handle?_changePlayer _ _ _ fun _ => rfl
  | hurt victim inflictor amount =>
      exact handle?_changePlayer _ _ _ fun _ => rfl
  | takeDamage victim => exact handle?_changePlayer _ _ _ fun _ => rfl
  | edit edited change => exact handle?_changePlayer _ _ _ fun player => kept _
  | _ => rfl

theorem nextIndex_perform (world : ScriptedWorld) (call : Call) :
    (world.perform call).nextIndex =
      if call.spawns then world.nextIndex + 1 else world.nextIndex := by
  cases call with
  | leave slot =>
      simp only [perform, leave]
      split <;> rfl
  | _ => rfl

/-- What exists after a call existed before, or the call granted its handle. -/
theorem Counted.entityValid_cases (counted : Counted calls world) {call : Call}
    {entity : EntityHandle}
    (valid : (world.perform call).entityValid entity = true) :
    world.entityValid entity = true ∨
    ∃ grant, call.grant? calls = some grant ∧ grant.handle = entity := by
  have spawned (position : Position)
      (valid : (world.spawn position).2.entityValid entity = true) :
      world.entityValid entity = true ∨
        (Grant.other (calls.countP Call.spawns)).handle = entity := by
    have placed : world.entityValid entity = true ∨
        { index := world.nextIndex, generation := 0 } = entity :=
      entityValid_of_place valid
    rw [counted.nextIndex] at placed
    exact placed
  cases call with
  | join slot team =>
      have placed : world.entityValid entity = true ∨
          (world.join slot team).1 = entity := entityValid_of_place valid
      rw [counted.joined] at placed
      exact placed.imp_right fun same => ⟨_, rfl, same⟩
  | leave slot =>
      left
      simp only [perform, leave] at valid
      split at valid
      · exact valid
      · exact entityValid_of_free valid
  | spawn position =>
      exact (spawned position valid).imp_right fun same => ⟨_, rfl, same⟩
  | free freed => exact .inl (entityValid_of_free valid)
  | placeObject slot position =>
      exact (spawned position valid).imp_right fun same => ⟨_, rfl, same⟩
  | _ => exact .inl valid

theorem Counted.perform (counted : Counted calls world) {call : Call}
    (kept : call.KeepsHandles) :
    Counted (calls ++ [call]) (world.perform call) := by
  refine ⟨?_, ?_, ?_⟩
  · rw [nextIndex_perform, countP_concat, counted.nextIndex]
    split
    · exact (UInt32.ofNat_add _ 1).symm
    · rfl
  · intro slot
    rw [counted.handle?_perform kept, countP_concat]
    split
    · rfl
    · exact counted.handles slot
  · intro entity valid
    rcases counted.entityValid_cases valid with before | ⟨grant, made, same⟩
    · exact (counted.created entity before).append [call]
    · exact ⟨grant, (made_of_grant? made).2, same⟩

/-- What was there and is gone does not come back. -/
theorem Counted.gone_perform (counted : Counted calls world) {call : Call}
    {entity : EntityHandle} (lasting : Lasting entity (calls ++ [call]))
    (created : Created calls entity)
    (gone : world.entityValid entity = false) :
    (world.perform call).entityValid entity = false := by
  refine Bool.eq_false_iff.mpr fun valid => ?_
  rcases counted.entityValid_cases valid with before | ⟨grant, made, rfl⟩
  · rw [gone] at before
    contradiction
  · obtain ⟨earlier, madeEarlier, same⟩ := created
    obtain ⟨unmade, now⟩ := made_of_grant? made
    have equal := grant_unique lasting now (madeEarlier.append [call]) same.symm
    exact unmade (equal ▸ madeEarlier)

end Steps

theorem Counted.takeDamage {calls : List Call} {world : ScriptedWorld}
    (counted : Counted calls world) (victim : Slot) :
    Counted calls (world.takeDamage victim).2 := by
  refine ⟨counted.nextIndex, ?_, counted.created⟩
  intro slot
  rw [ScriptedWorld.takeDamage, handle?_changePlayer]
  · exact counted.handles slot
  · exact fun _ => rfl

end ScriptedWorld

namespace Session

open ScriptedWorld (Counted Created Lasting)

section Steps

variable {session : Session ScriptedWorld} {calls : List ScriptedWorld.Call}

end Steps

end Session

end Fragboard.Match
