import Fragboard.Proofs.Match.EntityLifetimes

/-!
# Which handles stand for players

Attribution asks the world to whom an entity belongs, and it may ask long after
it was given the handle.  `ScriptedWorld.Seated` says what the answer stands on:
the player is in the game, has the entity, and the entity exists.

A handle that was handed out is retired when it is freed, when its player leaves,
and when its player joins again, by which the old entity need not cease to exist.
Until the words come round, a retired handle stands for nobody from then on.
-/

namespace Fragboard.Match

namespace ScriptedWorld

def run (world : ScriptedWorld) (calls : List Call) : ScriptedWorld :=
  calls.foldl perform world

theorem run_append (world : ScriptedWorld) (calls more : List Call) :
    world.run (calls ++ more) = (world.run calls).run more :=
  List.foldl_append

/-- The player is in the game and has the entity, which exists. -/
def Seated (world : ScriptedWorld) (slot : Slot) (entity : EntityHandle) :
    Prop :=
  ∃ player, world.player? slot = some player ∧ player.inGame = true ∧
    player.entity = entity ∧ world.entityValid entity = true

theorem Seated.handle? {world : ScriptedWorld} {slot : Slot}
    {entity : EntityHandle} (seated : world.Seated slot entity) :
    world.handle? slot = some entity := by
  obtain ⟨player, found, _, same, _⟩ := seated
  rw [ScriptedWorld.handle?, found, Option.map_some, same]

theorem Seated.entity_unique {world : ScriptedWorld} {slot : Slot}
    {one other : EntityHandle} (first : world.Seated slot one)
    (second : world.Seated slot other) : one = other :=
  Option.some.inj (first.handle?.symm.trans second.handle?)

theorem Seated.of_playerOf {world : ScriptedWorld} {slot : Slot}
    {entity : EntityHandle} (resolved : world.playerOf entity = some slot) :
    world.Seated slot entity := by
  rw [playerOf, Option.ite_none_right_eq_some] at resolved
  obtain ⟨valid, found⟩ := resolved
  have holds := List.find?_some found
  obtain ⟨player, seated, named⟩ := (Option.any_eq_true _ _).mp holds
  rw [Bool.and_eq_true, beq_iff_eq] at named
  exact ⟨player, seated, named.1, named.2, valid⟩

/-- As long as nobody else has the entity, the search ends with its player. -/
theorem Seated.playerOf {world : ScriptedWorld} {slot : Slot}
    {entity : EntityHandle} (seated : world.Seated slot entity)
    (single : ∀ other, world.Seated other entity → other = slot) :
    world.playerOf entity = some slot := by
  obtain ⟨player, found, playing, same, valid⟩ := seated
  cases resolved : world.playerOf entity with
  | some other => rw [single other (.of_playerOf resolved)]
  | none =>
      rw [ScriptedWorld.playerOf, if_pos valid, List.find?_eq_none] at resolved
      have unnamed := resolved slot slot.mem_all
      rw [found, Option.any_some, playing, same] at unnamed
      simp at unnamed

theorem playerValid_iff {world : ScriptedWorld} {slot : Slot} :
    world.playerValid slot = true ↔ ∃ entity, world.Seated slot entity := by
  rw [playerValid, Option.any_eq_true]
  constructor
  · rintro ⟨player, found, valid⟩
    rw [Bool.and_eq_true] at valid
    exact ⟨player.entity, player, found, valid.1, rfl, valid.2⟩
  · rintro ⟨entity, player, found, playing, same, valid⟩
    refine ⟨player, found, ?_⟩
    rw [same, playing, valid]
    rfl

/-- The handle that a call returns. -/
def returned? (world : ScriptedWorld) : Call → Option EntityHandle
  | .join slot team => some (world.join slot team).1
  | .spawn position => some (world.spawn position).1
  | .placeObject slot position => some (world.placeObject slot position).1
  | _ => none

/-- The handles that some calls return, in order. -/
def returned (world : ScriptedWorld) : List Call → List EntityHandle
  | [] => []
  | call :: rest =>
    (world.returned? call).toList ++ (world.perform call).returned rest

theorem returned_append (world : ScriptedWorld) (calls more : List Call) :
    world.returned (calls ++ more) =
      world.returned calls ++ (world.run calls).returned more := by
  induction calls generalizing world with
  | nil => rfl
  | cons call rest ih =>
      rw [List.cons_append, returned, returned, ih, List.append_assoc]
      rfl

theorem returned_concat (world : ScriptedWorld) (calls : List Call)
    (call : Call) :
    world.returned (calls ++ [call]) =
      world.returned calls ++ ((world.run calls).returned? call).toList := by
  rw [returned_append, returned, returned, List.append_nil]

section Calls

variable {calls : List Call}

theorem Counted.returned?_eq {world : ScriptedWorld}
    (counted : Counted calls world) (call : Call) :
    world.returned? call = (call.grant? calls).map Grant.handle := by
  have spawned (position : Position) : (world.spawn position).1 =
      (Grant.other (calls.countP Call.spawns)).handle := by
    rw [spawn, counted.nextIndex]
    rfl
  cases call with
  | join slot team => exact congrArg some (counted.joined slot team)
  | spawn position => exact congrArg some (spawned position)
  | placeObject slot position => exact congrArg some (spawned position)
  | _ => rfl

/-- No call writes another handle over a player's, no player joins as often as
there are generations, and the rows of the other entities end before the last
two. -/
structure Unwrapped (calls : List Call) : Prop where
  kept : ∀ call ∈ calls, call.KeepsHandles
  joins : ∀ slot, calls.countP (Call.joins slot) < 2 ^ 32
  spawns : calls.countP Call.spawns < 2 ^ 32 - 34

theorem Unwrapped.lasting (unwrapped : Unwrapped calls)
    (entity : EntityHandle) : Lasting entity calls := by
  have spawns := unwrapped.spawns
  have rows : slotCount = 32 := rfl
  exact ⟨unwrapped.kept, unwrapped.joins, by omega, .inr (by omega)⟩

theorem Unwrapped.of_append {more : List Call}
    (unwrapped : Unwrapped (calls ++ more)) : Unwrapped calls := by
  have sublist := List.sublist_append_left calls more
  refine ⟨?_, ?_, ?_⟩
  · exact fun call member =>
      unwrapped.kept call (List.mem_append_left _ member)
  · exact fun slot => sublist.countP_le.trans_lt (unwrapped.joins slot)
  · exact sublist.countP_le.trans_lt unwrapped.spawns

theorem counted_run (kept : ∀ call ∈ calls, call.KeepsHandles) :
    Counted calls (empty.run calls) := by
  induction calls using List.reverseRecOn with
  | nil => exact counted_empty
  | append_singleton calls call ih =>
      obtain ⟨before, last⟩ := List.forall_mem_append.mp kept
      rw [run_append]
      exact (ih before).perform (last call List.mem_cons_self)

theorem created_of_returned (kept : ∀ call ∈ calls, call.KeepsHandles)
    {entity : EntityHandle} (member : entity ∈ empty.returned calls) :
    Created calls entity := by
  induction calls using List.reverseRecOn with
  | nil => contradiction
  | append_singleton calls call ih =>
      obtain ⟨before, _⟩ := List.forall_mem_append.mp kept
      rw [returned_concat, (counted_run before).returned?_eq] at member
      rcases List.mem_append.mp member with earlier | now
      · exact (ih before earlier).append [call]
      · obtain ⟨grant, made, same⟩ := Option.map_eq_some_iff.mp
          (Option.mem_toList.mp now)
        exact ⟨grant, (made_of_grant? made).2, same⟩

/-- Nothing exists that was not handed out. -/
theorem returned_of_entityValid (kept : ∀ call ∈ calls, call.KeepsHandles)
    {entity : EntityHandle}
    (valid : (empty.run calls).entityValid entity = true) :
    entity ∈ empty.returned calls := by
  induction calls using List.reverseRecOn with
  | nil => contradiction
  | append_singleton calls call ih =>
      obtain ⟨before, _⟩ := List.forall_mem_append.mp kept
      have counted := counted_run before
      rw [run_append] at valid
      rw [returned_concat, counted.returned?_eq]
      rcases counted.entityValid_cases valid with was | ⟨grant, made, same⟩
      · exact List.mem_append_left _ (ih before was)
      · apply List.mem_append_right
        rw [made, Option.map_some, same]
        exact List.mem_singleton_self entity

theorem handle_ne_null (grant : Grant) : grant.handle ≠ .null := by
  intro same
  cases grant with
  | player slot joins =>
      have row : UInt32.ofNat slot.number = UInt32.ofNat 0xFFFFFFFF :=
        congrArg EntityHandle.index same
      have number := number_le slot
      have equal := ofNat_inj (number_lt slot) (by decide) row
      rw [equal] at number
      contradiction
  | other spawns =>
      have generation : (0 : UInt32) = 0xFFFFFFFF :=
        congrArg EntityHandle.generation same
      contradiction

/-- Every handle is new as it is handed out. -/
theorem nodup_returned (unwrapped : Unwrapped calls) :
    (empty.returned calls).Nodup := by
  induction calls using List.reverseRecOn with
  | nil => exact List.nodup_nil
  | append_singleton calls call ih =>
      have earlier := unwrapped.of_append
      rw [returned_concat, (counted_run earlier.kept).returned?_eq]
      cases granted : call.grant? calls with
      | none =>
          rw [Option.map_none, Option.toList_none, List.append_nil]
          exact ih earlier
      | some grant =>
          rw [Option.map_some, Option.toList_some]
          refine List.nodup_append.mpr
            ⟨ih earlier, List.nodup_singleton _, ?_⟩
          intro entity before _ now same
          obtain rfl := List.mem_singleton.mp now
          obtain ⟨one, made, handle⟩ := created_of_returned earlier.kept before
          obtain ⟨unmade, last⟩ := made_of_grant? granted
          have unique := grant_unique (unwrapped.lasting _)
            (made.append [call]) last (handle.trans same)
          exact unmade (unique ▸ made)

theorem null_not_returned (kept : ∀ call ∈ calls, call.KeepsHandles) :
    .null ∉ empty.returned calls := by
  intro member
  obtain ⟨grant, _, same⟩ := created_of_returned kept member
  exact handle_ne_null grant same

/-- The handle that a player has was granted at its latest join. -/
theorem Counted.granted {world : ScriptedWorld}
    (counted : Counted calls world) {slot : Slot} {entity : EntityHandle}
    (has : world.handle? slot = some entity) :
    ∃ joins, calls.countP (Call.joins slot) = joins + 1 ∧
      (Grant.player slot joins).handle = entity := by
  rw [counted.handles] at has
  cases joins : calls.countP (Call.joins slot) with
  | zero =>
      rw [joins] at has
      contradiction
  | succ before =>
      rw [joins] at has
      exact ⟨before, rfl, Option.some.inj has⟩

/-- Two players never have the same entity. -/
theorem slot_unique (unwrapped : Unwrapped calls) {one other : Slot}
    {entity : EntityHandle}
    (first : (empty.run calls).handle? one = some entity)
    (second : (empty.run calls).handle? other = some entity) :
    one = other := by
  have counted := counted_run unwrapped.kept
  obtain ⟨joins, count, same⟩ := counted.granted first
  obtain ⟨joins', count', same'⟩ := counted.granted second
  have made : (Grant.player one joins).Made calls :=
    Nat.lt_of_succ_le count.ge
  have made' : (Grant.player other joins').Made calls :=
    Nat.lt_of_succ_le count'.ge
  have equal := grant_unique (unwrapped.lasting _) made made'
    (same.trans same'.symm)
  exact (Grant.player.inj equal).1

/-- The call ends what the handle stood for. -/
def Retires (world : ScriptedWorld) (entity : EntityHandle) : Call → Prop
  | .free freed => freed = entity
  | .leave slot | .join slot _ => world.handle? slot = some entity
  | _ => False

instance (world : ScriptedWorld) (entity : EntityHandle) :
    DecidablePred (world.Retires entity)
  | .free freed => inferInstanceAs (Decidable (freed = entity))
  | .leave slot | .join slot _ =>
    inferInstanceAs (Decidable (world.handle? slot = some entity))
  | .setTime _ | .advance _ | .spawn _ | .placeObject _ _ | .hurt _ _ _
  | .takeDamage _ | .edit _ _ => .isFalse id

theorem entityValid_free (world : ScriptedWorld) (entity : EntityHandle) :
    (world.free entity).entityValid entity = false := by
  refine Bool.eq_false_iff.mpr fun valid => ?_
  obtain ⟨position, member⟩ := entityValid_iff.mp valid
  simp [free] at member

theorem entityValid_leave {world : ScriptedWorld} {slot : Slot}
    {entity : EntityHandle} (has : world.handle? slot = some entity) :
    (world.leave slot).entityValid entity = false := by
  obtain ⟨player, found, rfl⟩ := Option.map_eq_some_iff.mp has
  rw [leave, found]
  exact entityValid_free _ player.entity

/-- What was handed out and is gone stays away. -/
theorem gone_run {more : List Call} (unwrapped : Unwrapped (calls ++ more))
    {entity : EntityHandle} (created : Created calls entity)
    (gone : (empty.run calls).entityValid entity = false) :
    (empty.run (calls ++ more)).entityValid entity = false := by
  induction more using List.reverseRecOn with
  | nil =>
      rw [List.append_nil]
      exact gone
  | append_singleton more call ih =>
      rw [← List.append_assoc] at unwrapped ⊢
      have before := unwrapped.of_append
      rw [run_append]
      exact (counted_run before.kept).gone_perform (unwrapped.lasting entity)
        (created.append more) (ih before)

/-- The handle that a join replaces never comes back to a player. -/
theorem handle?_of_replaced {before after : List Call} {joined : Slot}
    {team : Int32} (unwrapped : Unwrapped (before ++ .join joined team :: after))
    {entity : EntityHandle}
    (replaced : (empty.run before).handle? joined = some entity)
    (slot : Slot) :
    (empty.run (before ++ .join joined team :: after)).handle? slot ≠
      some entity := by
  intro has
  have earlier := counted_run unwrapped.of_append.kept
  have counted := counted_run unwrapped.kept
  obtain ⟨joins, count, same⟩ := earlier.granted replaced
  obtain ⟨joins', count', same'⟩ := counted.granted has
  have made : (Grant.player joined joins).Made before :=
    Nat.lt_of_succ_le count.ge
  have made' : (Grant.player slot joins').Made
      (before ++ .join joined team :: after) := Nat.lt_of_succ_le count'.ge
  have equal := grant_unique (unwrapped.lasting _) (made.append _) made'
    (same.trans same'.symm)
  obtain ⟨rfl, rfl⟩ := Grant.player.inj equal
  have joinsHere : Call.joins joined (.join joined team) = true :=
    decide_eq_true rfl
  rw [List.countP_append, List.countP_cons_of_pos joinsHere] at count'
  omega

/-- A retired handle belongs to no player any more. -/
theorem unseated_of_retired {before after : List Call} {call : Call}
    (unwrapped : Unwrapped (before ++ call :: after)) {entity : EntityHandle}
    (member : entity ∈ empty.returned before)
    (retired : (empty.run before).Retires entity call) (slot : Slot) :
    ¬(empty.run (before ++ call :: after)).Seated slot entity := by
  have created : Created (before ++ [call]) entity :=
    (created_of_returned unwrapped.of_append.kept member).append [call]
  have unseated_of_gone
      (gone : ((empty.run before).perform call).entityValid entity = false) :
      ¬(empty.run (before ++ call :: after)).Seated slot entity := by
    rintro ⟨_, _, _, _, valid⟩
    rw [List.append_cons] at unwrapped valid
    rw [gone_run unwrapped created (by rw [run_append]; exact gone)] at valid
    contradiction
  cases call with
  | free freed =>
      obtain rfl : freed = entity := retired
      exact unseated_of_gone (entityValid_free _ freed)
  | leave left => exact unseated_of_gone (entityValid_leave retired)
  | join joined team =>
      exact fun seated => handle?_of_replaced unwrapped retired slot
        seated.handle?
  | _ => exact retired.elim

theorem playerOf_iff (unwrapped : Unwrapped calls) {entity : EntityHandle}
    {slot : Slot} :
    (empty.run calls).playerOf entity = some slot ↔
      (empty.run calls).Seated slot entity := by
  constructor
  · exact Seated.of_playerOf
  · intro seated
    exact seated.playerOf fun other also =>
      slot_unique unwrapped also.handle? seated.handle?

/-- Until the words come round, every handle is new as it is handed out, it is not
the null handle, and nothing exists that was not handed out.  A handle that was
freed, whose player left or that was replaced by another join resolves to nobody
from then on.  Any other handle resolves to a player exactly if the player is in
the game and has the entity, and the entity exists; no player has two such
entities, no entity belongs to two players, and a player is valid exactly if some
handle resolves to it. -/
theorem handles_never_alias (unwrapped : Unwrapped calls) :
    let world := empty.run calls
    (empty.returned calls).Nodup ∧ .null ∉ empty.returned calls ∧
    (∀ entity, world.entityValid entity = true →
      entity ∈ empty.returned calls) ∧
    (∀ before call after, before ++ call :: after = calls →
      ∀ entity ∈ empty.returned before,
        (empty.run before).Retires entity call →
        world.playerOf entity = none) ∧
    (∀ entity slot,
      world.playerOf entity = some slot ↔ world.Seated slot entity) ∧
    (∀ slot one other, world.Seated slot one → world.Seated slot other →
      one = other) ∧
    (∀ entity one other, world.Seated one entity → world.Seated other entity →
      one = other) ∧
    ∀ slot, world.playerValid slot = true ↔
      ∃ entity, world.playerOf entity = some slot := by
  intro world
  have resolved (entity : EntityHandle) (slot : Slot) :
      world.playerOf entity = some slot ↔ world.Seated slot entity :=
    playerOf_iff unwrapped
  refine ⟨nodup_returned unwrapped, null_not_returned unwrapped.kept,
    fun _ => returned_of_entityValid unwrapped.kept, ?_, resolved,
    fun _ _ _ => Seated.entity_unique,
    fun _ _ _ one other => slot_unique unwrapped one.handle? other.handle?, ?_⟩
  · rintro before call after rfl entity member retired
    apply Option.eq_none_iff_forall_ne_some.mpr
    intro slot found
    exact unseated_of_retired unwrapped member retired slot
      ((resolved entity slot).mp found)
  · intro slot
    rw [playerValid_iff]
    exact exists_congr fun entity => (resolved entity slot).symm

end Calls

/-- Ann joins again without having left, so her first entity goes on to exist;
bob's is freed when he leaves, and that he is then put back in the game does not
help. -/
theorem handles_of_rejoin :
    let ann : Slot := { index := 0 }
    let bob : Slot := { index := 1 }
    let calls : List Call :=
      [.join ann 1, .join bob 2, .spawn Position.origin, .join ann 2,
        .leave bob, .edit bob fun player => { player with inGame := true },
        .placeObject ann Position.origin, .hurt ann .null 9]
    let world := empty.run calls
    let first : EntityHandle := { index := 1, generation := 0 }
    let left : EntityHandle := { index := 2, generation := 0 }
    Unwrapped calls ∧
    empty.returned calls =
      [first, left, { index := 33, generation := 0 },
        first.nextGeneration, { index := 34, generation := 0 }] ∧
    (empty.returned calls).Nodup ∧
    world.entityValid first = true ∧ world.playerOf first = none ∧
    world.playerOf left = none ∧
    world.playerOf first.nextGeneration = some ann ∧
    (world.playerValid bob = true ↔
      ∃ entity, world.playerOf entity = some bob) := by
  intro ann bob calls world first left
  have unwrapped : Unwrapped calls := by
    refine ⟨?_, ?_, ?_⟩
    · simp [calls, Call.KeepsHandles]
    · exact fun slot => List.countP_le_length.trans_lt (by decide)
    · exact List.countP_le_length.trans_lt (by decide)
  obtain ⟨distinct, _, _, retired, _, _, _, valid⟩ :=
    handles_never_alias unwrapped
  have replaced := retired (calls.take 3) (.join ann 2) (calls.drop 4) rfl first
    (by decide +kernel) (by decide +kernel)
  have freed := retired (calls.take 4) (.leave bob) (calls.drop 5) rfl left
    (by decide +kernel) (by decide +kernel)
  exact ⟨unwrapped, by decide +kernel, distinct, by decide +kernel, replaced,
    freed, by decide +kernel, valid bob⟩

end ScriptedWorld

end Fragboard.Match
