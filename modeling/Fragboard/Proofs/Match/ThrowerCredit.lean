import Fragboard.Match.ScriptedWorld
import Fragboard.Proofs.Match.SessionProjectiles

/-!
# Who is credited with the damage of a projectile

A projectile is remembered by the slot that sent it, not by the player on that
slot.  Its record stays when the player leaves, and damage that it does later is
credited to whoever sits there by then.

Every record goes back to one trace, a `Throw`.  `turnover_iff_tracked` says
when the credit goes astray: exactly if the slot changed hands while the record
was kept.
-/

namespace Fragboard.Match

namespace Session

variable {World : Type} [GameWorld World]

theorem seat_run (session : Session World) {slot : Slot}
    {calls : List (Call World)}
    (kept : ∀ call ∈ calls, call.turnsOver slot = false) :
    (session.run calls).seat slot = session.seat slot := by
  induction calls generalizing session with
  | nil => rfl
  | cons call rest ih =>
      obtain ⟨first, later⟩ := List.forall_mem_cons.mp kept
      exact (ih (session.perform call) later).trans (session.seat_perform first)

theorem nextSerial_le_run (session : Session World)
    (calls : List (Call World)) :
    session.pool.nextSerial ≤ (session.run calls).pool.nextSerial := by
  induction calls generalizing session with
  | nil => exact Nat.le_refl _
  | cons call rest ih =>
      have first : session.pool.nextSerial ≤
          (session.perform call).pool.nextSerial := by
        rw [pool_perform]
        cases session.poolCall? call with
        | none => exact Nat.le_refl _
        | some asked => exact session.pool.nextSerial_le_perform asked
      exact Nat.le_trans first (ih (session.perform call))

/-- At any time the projectiles are those of a log. -/
theorem exists_keeps_run (config : Config) (world : World)
    (points : PointTable) (calls : List (Call World)) :
    ∃ log, ((Session.new config world points).run calls).pool.Keeps log := by
  induction calls using List.reverseRecOn with
  | nil => exact ⟨{}, ProjectilePool.keeps_empty⟩
  | append_singleton calls call ih =>
      obtain ⟨log, keeps⟩ := ih
      rw [run_concat, pool_perform]
      cases Session.poolCall? _ call with
      | none => exact ⟨log, keeps⟩
      | some asked => exact ⟨log.perform asked, (keeps.respond asked).2⟩

/-- The trace that made a record, in a sequence of calls that keeps it to the
end. -/
structure Throw (start : Session World) (calls : List (Call World))
    (flight : Flight) where
  before : List (Call World)
  className : String
  position : Position
  between : List (Call World)
  split : calls =
    before ++
      .projectileTrace flight.owner flight.handle className position :: between
  /-- The owner was in the game. -/
  playing : (start.run before).isPlaying flight.owner = true
  /-- The record is the next to be made. -/
  serial : flight.serial = (start.run before).pool.nextSerial
  kept : ∀ first rest, between = first ++ rest →
    flight ∈ (start.run (before ++
      .projectileTrace flight.owner flight.handle className position ::
        first)).pool.records

/-- A new record comes from a trace by its owner, who is in the game. -/
theorem trace_of_new {session : Session World} {call : Call World}
    {flights : List Flight} {flight : Flight}
    (holds : session.pool.Holds flights)
    (tracked : flight ∈ (session.perform call).pool.records)
    (new : flight ∉ session.pool.records) :
    (∃ className position,
      call = .projectileTrace flight.owner flight.handle className position) ∧
    session.isPlaying flight.owner = true ∧
    flight.serial = session.pool.nextSerial := by
  rw [pool_perform] at tracked
  cases asked : session.poolCall? call with
  | none =>
      rw [asked] at tracked
      exact absurd tracked new
  | some poolCall =>
      rw [asked] at tracked
      rcases holds.mem_records_perform tracked with
        old | ⟨handle, now, delay, weapon, owner, rfl, rfl⟩
      · exact absurd old new
      · cases call with
        | projectileTrace thrower projectile className position =>
            obtain ⟨_, traced, put⟩ := Option.map_eq_some_iff.mp asked
            obtain ⟨rfl, _, _, _, rfl⟩ := ProjectilePool.Call.put.inj put
            have playing := (Option.ite_none_left_eq_some.mp traced).1
            simp only [Bool.or_eq_true, Bool.not_eq_true', not_or,
              Bool.not_eq_false] at playing
            exact ⟨⟨className, position, rfl⟩, playing.2, rfl⟩
        | messageEnd =>
            obtain ⟨_, _, looked⟩ := Option.bind_eq_some_iff.mp asked
            simp at looked
        | teardown tree => simp [poolCall?] at asked
        | teardownBackground saver => simp [poolCall?] at asked
        | _ => contradiction

theorem exists_throw (config : Config) (world : World) (points : PointTable)
    {calls : List (Call World)} {flight : Flight}
    (tracked : flight ∈
      ((Session.new config world points).run calls).pool.records) :
    Nonempty (Throw (Session.new config world points) calls flight) := by
  let start := Session.new config world points
  let traces (session : Session World) (call : Call World) : Prop :=
    ((∃ className position,
        call = .projectileTrace flight.owner flight.handle className
          position) ∧
      session.isPlaying flight.owner = true ∧
      flight.serial = session.pool.nextSerial) ∧
    flight ∈ (session.perform call).pool.records
  let drops (session : Session World) (call : Call World) : Prop :=
    flight ∉ (session.perform call).pool.records
  have step (calls : List (Call World)) (call : Call World)
      (kept : flight ∈ ((start.run calls).perform call).pool.records) :
      traces (start.run calls) call ∨
      flight ∈ (start.run calls).pool.records ∧
        ¬drops (start.run calls) call := by
    by_cases old : flight ∈ (start.run calls).pool.records
    · exact .inr ⟨old, not_not.mpr kept⟩
    · obtain ⟨log, flights, holds, _⟩ :=
        exists_keeps_run config world points calls
      exact .inl ⟨trace_of_new holds kept old, kept⟩
  obtain ⟨since⟩ := exists_since (flight ∈ ·.pool.records)
    List.not_mem_nil step tracked
  obtain ⟨⟨⟨className, position, traced⟩, playing, serial⟩, made⟩ := since.set
  rw [traced] at made
  refine ⟨
    { before := since.before
      className := className
      position := position
      between := since.between
      split := traced ▸ since.split
      playing := playing
      serial := serial
      kept := ?_ }⟩
  intro first rest between
  rcases List.eq_nil_or_concat first with rfl | ⟨front, last, rfl⟩
  · rw [run_concat]
    exact made
  · rw [List.concat_eq_append] at between ⊢
    rw [List.append_assoc] at between
    rw [← List.cons_append, ← List.append_assoc, run_concat, ← traced]
    exact not_not.mp (since.kept front last rest between)

theorem serial_lt_of_tracked (config : Config) (world : World)
    (points : PointTable) (calls : List (Call World)) {flight : Flight}
    (tracked : flight ∈
      ((Session.new config world points).run calls).pool.records) :
    flight.serial <
      ((Session.new config world points).run calls).pool.nextSerial := by
  obtain ⟨log, flights, holds, _⟩ :=
    exists_keeps_run config world points calls
  exact holds.numbered flight (holds.records.mem_iff.mp tracked)

/-- A record is kept only after its trace. -/
theorem Throw.mem_between_of_tracked {config : Config} {world : World}
    {points : PointTable} {calls earlier later : List (Call World)}
    {flight : Flight} {call : Call World}
    (throw : Throw (Session.new config world points) calls flight)
    (split : calls = earlier ++ call :: later)
    (tracked : flight ∈
      ((Session.new config world points).run earlier).pool.records) :
    call ∈ throw.between := by
  have made := serial_lt_of_tracked config world points earlier tracked
  have unmade : ∀ more, throw.before ≠ earlier ++ more := by
    intro more prolonged
    have grown := ((Session.new config world points).run earlier
      ).nextSerial_le_run more
    rw [← run_append, ← prolonged, ← throw.serial] at grown
    omega
  rcases places_cases (split.symm.trans throw.split) with
    ⟨more, prolonged, _⟩ | ⟨same, _, _⟩ | ⟨more, _, after⟩
  · exact absurd prolonged (unmade _)
  · exact absurd same.symm (by simpa using unmade [])
  · rw [after]
    exact List.mem_append_right _ List.mem_cons_self

theorem culpritOf_sender {attributor : Attributor} {world : World}
    {inflictor : EntityHandle} {owner : Slot} {weapon : Weapon}
    (blamed : (culpritOf attributor world inflictor).1 = .sender owner weapon) :
    ∃ flight ∈ attributor.projectiles.records, flight.handle = inflictor ∧
      flight.owner = owner ∧ flight.weapon = weapon := by
  unfold culpritOf at blamed
  split at blamed
  · contradiction
  · dsimp only at blamed
    split at blamed
    · next found =>
      obtain ⟨flight, latest, same⟩ := Option.map_eq_some_iff.mp found
      obtain ⟨tracked, handle⟩ := ProjectilePool.mem_of_latest? latest
      rw [ProjectilePool.records_sweep] at tracked
      simp only [Culprit.sender.injEq] at blamed
      simp only [Prod.mk.injEq] at same
      exact ⟨flight, List.mem_of_mem_filter tracked, handle,
        same.1.trans blamed.1, same.2.trans blamed.2⟩
    · contradiction

/-- Damage of a projectile is credited to the slot of its trace.  Whoever sat
there at the trace sits there at the damage unless the slot changed hands in
between, and it did exactly if it changed hands while the record was kept. -/
theorem turnover_iff_tracked (config : Config) (world : World)
    (points : PointTable) {calls : List (Call World)} {blow : Blow World}
    {owner : Slot} {weapon : Weapon}
    (found : ((Session.new config world points).run calls).blow? = some blow)
    (blamed :
      (culpritOf ((Session.new config world points).run calls).attributor
        blow.world blow.report.inflictor).1 = .sender owner weapon) :
    let start := Session.new config world points
    (start.run (calls ++ [.messageEnd])).tally =
      (recordDamage blow.world (start.run calls).tally blow.victim
        (.sender owner weapon) blow.report.amount).2 ∧
    ∃ flight : Flight, flight.handle = blow.report.inflictor ∧
      flight.owner = owner ∧ flight.weapon = weapon ∧
      ∃ (throw : Throw start calls flight) (thrower : String),
        (start.run throw.before).seat owner = some thrower ∧
        ((∀ call ∈ throw.between, call.turnsOver owner = false) →
          (start.run calls).seat owner = some thrower) ∧
        ((∀ call ∈ throw.between, call.turnsOver owner = false) ↔
          ∀ earlier call later, calls = earlier ++ call :: later →
            call.turnsOver owner = true →
            flight ∉ (start.run earlier).pool.records) := by
  intro start
  have recorded : (start.run (calls ++ [.messageEnd])).tally =
      (recordDamage blow.world (start.run calls).tally blow.victim
        (.sender owner weapon) blow.report.amount).2 := by
    have ended := messageEnd_of_blow found
    dsimp only at ended
    rw [run_concat, perform, ended, tally_emitAll, blamed]
  refine ⟨recorded, ?_⟩
  obtain ⟨flight, tracked, handle, rfl, sent⟩ := culpritOf_sender blamed
  obtain ⟨throw⟩ := exists_throw config world points tracked
  have connected := throw.playing
  rw [isPlaying, Bool.and_eq_true] at connected
  have sat : (start.run throw.before).seat flight.owner =
      some ((start.run throw.before).player flight.owner).unique :=
    if_pos connected.1
  refine ⟨flight, handle, rfl, sent, throw, _, sat, ?_, ?_, ?_⟩
  · intro quiet
    have whole : start.run calls = (start.run throw.before).run
        (.projectileTrace flight.owner flight.handle throw.className
          throw.position :: throw.between) := by
      rw [← run_append, ← throw.split]
    rw [whole, seat_run _ (List.forall_mem_cons.mpr ⟨rfl, quiet⟩), sat]
  · intro quiet earlier call later split turned kept
    have after := throw.mem_between_of_tracked split kept
    rw [quiet call after] at turned
    contradiction
  · intro untracked call member
    obtain ⟨first, rest, between⟩ := List.append_of_mem member
    have kept := throw.kept first _ between
    have split := throw.split
    rw [between, ← List.cons_append, ← List.append_assoc] at split
    by_contra turned
    exact untracked _ call rest split (Bool.of_not_eq_false turned) kept

/-- While another player leaves, the thrower stays and is credited. -/
theorem thrower_credited_while_seated :
    let slot : Slot := { index := 0 }
    let victim : Slot := { index := 1 }
    let other : Slot := { index := 2 }
    let grenade : EntityHandle := { index := 33, generation := 0 }
    let calls : List (Call ScriptedWorld) :=
      [.register "Health" 67,
        .changeWorld fun world => (world.join slot 1).2,
        .connect slot "ann" "id:ann",
        .changeWorld fun world => (world.join victim 2).2,
        .connect victim "vic" "id:vic", .connect other "bob" "id:bob",
        .changeWorld fun world => (world.spawn Position.origin).2,
        .projectileTrace slot grenade "grenade" Position.origin,
        .disconnect other,
        .changeWorld (·.advance 0.5),
        .changeWorld (·.hurt victim grenade 50),
        .messageBegin 67 (some { index := 2, generation := 0 })]
    let start := Session.new {} ScriptedWorld.empty PointTable.blank
    ∃ (flight : Flight) (throw : Throw start calls flight),
      flight.handle = grenade ∧
      (∀ call ∈ throw.between, call.turnsOver slot = false) ∧
      (start.run throw.before).seat slot = some "id:ann" := by
  intro slot victim other grenade calls start
  have bare : ∀ place : Fin calls.length,
      (calls.get place).turnsOver slot = true →
      (start.run (calls.take place)).pool.records = [] := by
    decide +kernel
  have hurts : (start.run calls).blow?.isSome = true := by decide +kernel
  have thrown : ∀ blow ∈ (start.run calls).blow?,
      blow.report.inflictor = grenade ∧
      (culpritOf (start.run calls).attributor blow.world
        blow.report.inflictor).1 = .sender slot Weapon.handGrenade := by
    decide +kernel
  obtain ⟨blow, found⟩ := Option.isSome_iff_exists.mp hurts
  obtain ⟨inflictor, blamed⟩ := thrown blow found
  obtain ⟨_, flight, handle, owner, _, throw, thrower, sat, stays, iff⟩ :=
    turnover_iff_tracked {} ScriptedWorld.empty PointTable.blank found blamed
  have quiet : ∀ call ∈ throw.between, call.turnsOver slot = false := by
    refine iff.mpr ?_
    intro earlier call later split turned
    have inside : earlier.length < calls.length := by
      rw [split, List.length_append, List.length_cons]
      omega
    have here : calls.get ⟨earlier.length, inside⟩ = call :=
      List.getElem_of_append split rfl
    have front : calls.take earlier.length = earlier := by
      rw [split, List.take_left]
    have empty : (start.run earlier).pool.records = [] := by
      rw [← front]
      exact bare ⟨earlier.length, inside⟩ (here ▸ turned)
    rw [empty]
    exact List.not_mem_nil
  have seated : (start.run calls).seat slot = some "id:ann" := by
    decide +kernel
  refine ⟨flight, throw, handle.trans inflictor, quiet, ?_⟩
  rw [sat, ← stays quiet, seated]

/-- A grenade outlives its thrower's stay: it hurts somebody half a second after
another player took the slot, and the damage is the newcomer's. -/
theorem damage_credited_to_newcomer :
    let slot : Slot := { index := 0 }
    let victim : Slot := { index := 1 }
    let grenade : EntityHandle := { index := 33, generation := 0 }
    let before : List (Call ScriptedWorld) :=
      [.register "Health" 67,
        .changeWorld fun world => (world.join slot 1).2,
        .connect slot "ann" "id:ann",
        .changeWorld fun world => (world.join victim 2).2,
        .connect victim "vic" "id:vic",
        .changeWorld fun world => (world.spawn Position.origin).2]
    let trace : Call ScriptedWorld :=
      .projectileTrace slot grenade "grenade" Position.origin
    let between : List (Call ScriptedWorld) :=
      [.changeWorld (·.leave slot), .disconnect slot,
        .changeWorld fun world => (world.join slot 1).2,
        .connect slot "bob" "id:bob",
        .changeWorld (·.advance 0.5),
        .changeWorld (·.hurt victim grenade 50),
        .messageBegin 67 (some { index := 2, generation := 0 })]
    let start := Session.new {} ScriptedWorld.empty PointTable.blank
    let traced := start.run (before ++ [trace])
    let session := start.run (before ++ trace :: between)
    (start.run before).pool.records = [] ∧
    traced.pool.records.map (·.handle) = [grenade] ∧
    session.pool.records = traced.pool.records ∧
    between.any (·.turnsOver slot) = true ∧
    traced.seat slot = some "id:ann" ∧ session.seat slot = some "id:bob" ∧
    (session.blow?.map fun blow =>
      (culpritOf session.attributor blow.world blow.report.inflictor).1) =
        some (.sender slot Weapon.handGrenade) ∧
    ((session.perform .messageEnd).stats slot .session .all).map
      (·.get .damage) = some 50 := by
  decide +kernel

end Session

end Fragboard.Match
