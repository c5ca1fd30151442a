import Fragboard.Match.Projectile
import Mathlib.Data.List.Induction
import Mathlib.Data.List.Nodup

/-!
# Projectiles in flight as a log

A `FlightLog` is what a pool of projectiles is meant to be: the launches in the
order in which they were made, without those that a look-up found to have run
out.  The pool keeps its records in cells that are reused in any order; their
serial numbers bring back the order of the log.

`ProjectilePool.Keeps` relates a pool to a log, with all that there is to know
about the vacant cells.  Every call keeps the relation and answers as the log
does, so `answers_eq_of_log` holds of every sequence of calls.
-/

namespace Fragboard.Match

structure Launch where
  handle : EntityHandle
  expiresAt : Float32
  weapon : Weapon
  owner : Slot
deriving DecidableEq

structure FlightLog where
  /-- The earliest first. -/
  launches : List Launch := []

namespace FlightLog

def put (log : FlightLog) (launch : Launch) : FlightLog :=
  { launches := log.launches ++ [launch] }

/-- Drops what has run out and finds the last launch of a projectile. -/
def findOwner (log : FlightLog) (handle : EntityHandle) (now : Float32) :
    Option (Slot × Weapon) × FlightLog :=
  let flying := log.launches.filter fun launch => ¬launch.expiresAt ≤ now
  let last := (flying.filter fun launch => launch.handle = handle).getLast?
  (last.map fun launch => (launch.owner, launch.weapon),
    { launches := flying })

end FlightLog

namespace ProjectilePool

inductive Call where
  | put (handle : EntityHandle) (now delay : Float32) (weapon : Weapon)
      (owner : Slot)
  | findOwner (handle : EntityHandle) (now : Float32)
  | clear

/-- What a call answers, if it asks, and the pool after it. -/
def respond (pool : ProjectilePool) :
    Call → Option (Slot × Weapon) × ProjectilePool
  | .put handle now delay weapon owner =>
    (none, pool.put handle now delay weapon owner)
  | .findOwner handle now => pool.findOwner handle now
  | .clear => (none, pool.clear)

def perform (pool : ProjectilePool) (call : Call) : ProjectilePool :=
  (pool.respond call).2

def run (pool : ProjectilePool) (calls : List Call) : ProjectilePool :=
  calls.foldl perform pool

/-- The answers to some calls, each with the number of records after it. -/
def answers (pool : ProjectilePool) :
    List Call → List (Option (Slot × Weapon) × Nat)
  | [] => []
  | call :: rest =>
    ((pool.respond call).1, (pool.perform call).live) ::
      (pool.perform call).answers rest

end ProjectilePool

namespace FlightLog

def respond (log : FlightLog) :
    ProjectilePool.Call → Option (Slot × Weapon) × FlightLog
  | .put handle now delay weapon owner =>
    (none, log.put
      { handle := handle
        expiresAt := now + delay
        weapon := weapon
        owner := owner })
  | .findOwner handle now => log.findOwner handle now
  | .clear => (none, {})

def perform (log : FlightLog) (call : ProjectilePool.Call) : FlightLog :=
  (log.respond call).2

def answers (log : FlightLog) :
    List ProjectilePool.Call → List (Option (Slot × Weapon) × Nat)
  | [] => []
  | call :: rest =>
    ((log.respond call).1, (log.perform call).launches.length) ::
      (log.perform call).answers rest

end FlightLog

namespace Flight

def launch (flight : Flight) : Launch :=
  { handle := flight.handle
    expiresAt := flight.expiresAt
    weapon := flight.weapon
    owner := flight.owner }

end Flight

namespace ProjectilePool

/-- The records, in the order of their cells. -/
def records (pool : ProjectilePool) : List Flight :=
  pool.cells.filterMap id

/-- The pool holds certain records, made in this order, and knows its vacant
cells. -/
structure Holds (pool : ProjectilePool) (flights : List Flight) : Prop where
  records : pool.records.Perm flights
  ordered : flights.Pairwise fun first second => first.serial < second.serial
  numbered : ∀ flight ∈ flights, flight.serial < pool.nextSerial
  live : pool.live = flights.length
  vacantOnce : pool.vacant.Nodup
  vacant : ∀ cell, cell ∈ pool.vacant ↔ pool.cells[cell]? = some none

theorem holds_empty : ({} : ProjectilePool).Holds [] :=
  { records := .nil
    ordered := .nil
    numbered := by simp
    live := rfl
    vacantOnce := .nil
    vacant := by simp }

theorem filterMap_set_perm {cells : List (Option Flight)} {cell : Nat}
    (empty : cells[cell]? = some none) (flight : Flight) :
    ((cells.set cell (some flight)).filterMap id).Perm
      (flight :: cells.filterMap id) := by
  induction cells generalizing cell with
  | nil => simp at empty
  | cons first rest ih =>
      cases cell with
      | zero =>
          obtain rfl : first = none := by simpa using empty
          exact .refl _
      | succ cell =>
          have emptyLater : rest[cell]? = some none := by simpa using empty
          have later := ih emptyLater
          cases first with
          | none => simpa using later
          | some earlier =>
              have swapped := (later.cons earlier).trans
                (.swap flight earlier _)
              simpa using swapped

/-- The record that a call to track a projectile makes. -/
def newFlight (pool : ProjectilePool) (handle : EntityHandle)
    (now delay : Float32) (weapon : Weapon) (owner : Slot) : Flight :=
  { handle := handle
    expiresAt := now + delay
    weapon := weapon
    owner := owner
    serial := pool.nextSerial }

section Adding

variable {pool : ProjectilePool} {flights : List Flight}
  (handle : EntityHandle) (now delay : Float32) (weapon : Weapon)
  (owner : Slot)

theorem records_put (holds : pool.Holds flights) :
    (pool.put handle now delay weapon owner).records.Perm
      (flights ++ [pool.newFlight handle now delay weapon owner]) := by
  cases vacant : pool.vacant with
  | nil =>
      simp only [put, records, vacant, List.filterMap_append]
      exact holds.records.append_right _
  | cons cell others =>
      have empty : pool.cells[cell]? = some none :=
        (holds.vacant cell).mp (by rw [vacant]; exact List.mem_cons_self)
      have placed := filterMap_set_perm empty
        (pool.newFlight handle now delay weapon owner)
      have added := (holds.records.cons
        (pool.newFlight handle now delay weapon owner)).trans
          (List.perm_append_singleton _ flights).symm
      simp only [put, records, vacant]
      exact placed.trans added

theorem vacant_put (holds : pool.Holds flights) :
    (pool.put handle now delay weapon owner).vacant.Nodup ∧
    ∀ cell, cell ∈ (pool.put handle now delay weapon owner).vacant ↔
      (pool.put handle now delay weapon owner).cells[cell]? = some none := by
  have once := holds.vacantOnce
  have empty := holds.vacant
  cases vacant : pool.vacant with
  | nil =>
      simp only [vacant, List.not_mem_nil, false_iff] at empty
      simp only [put, vacant, List.not_mem_nil, false_iff]
      refine ⟨.nil, ?_⟩
      intro cell
      rw [List.getElem?_append]
      split
      · exact empty cell
      · cases cell - pool.cells.length <;> simp
  | cons reused others =>
      simp only [vacant, List.nodup_cons, List.mem_cons] at once empty
      simp only [put, vacant]
      refine ⟨once.2, ?_⟩
      intro cell
      rw [List.getElem?_set]
      split
      · next same =>
        subst same
        simp only [once.1, false_iff]
        split <;> simp
      · next apart => simpa [Ne.symm apart] using empty cell

theorem nextSerial_put (pool : ProjectilePool) :
    (pool.put handle now delay weapon owner).nextSerial =
      pool.nextSerial + 1 := by
  unfold ProjectilePool.put
  split <;> rfl

theorem Holds.put (holds : pool.Holds flights) :
    (pool.put handle now delay weapon owner).Holds
      (flights ++ [pool.newFlight handle now delay weapon owner]) := by
  have vacant := vacant_put handle now delay weapon owner holds
  have live : (pool.put handle now delay weapon owner).live =
      pool.live + 1 := by
    unfold ProjectilePool.put
    split <;> rfl
  refine
    { records := records_put handle now delay weapon owner holds
      ordered := ?_
      numbered := ?_
      live := ?_
      vacantOnce := vacant.1
      vacant := vacant.2 }
  · refine List.pairwise_append.mpr
      ⟨holds.ordered, List.pairwise_singleton _ _, ?_⟩
    intro flight member added new
    rw [List.mem_singleton.mp new]
    exact holds.numbered flight member
  · intro flight member
    rw [nextSerial_put]
    rcases List.mem_append.mp member with old | new
    · exact Nat.lt_succ_of_lt (holds.numbered flight old)
    · rw [List.mem_singleton.mp new]
      exact Nat.lt_succ_self pool.nextSerial
  · rw [live, holds.live, List.length_append, List.length_singleton]

end Adding

theorem mem_expiredFrom_iff {now : Float32} {cells : List (Option Flight)}
    {start cell : Nat} :
    cell ∈ expiredFrom now start cells ↔
      ∃ offset, cell = start + offset ∧
        ∃ flight, cells[offset]? = some (some flight) ∧
          flight.isExpired now = true := by
  induction cells generalizing start with
  | nil => simp [expiredFrom]
  | cons first rest ih =>
      constructor
      · intro member
        rw [expiredFrom] at member
        split at member
        · next expired =>
          rcases List.mem_cons.mp member with same | later
          · cases first with
            | none => simp at expired
            | some flight => exact ⟨0, same, flight, rfl, expired⟩
          · obtain ⟨offset, same, found⟩ := ih.mp later
            exact ⟨offset + 1, by omega, found⟩
        · obtain ⟨offset, same, found⟩ := ih.mp member
          exact ⟨offset + 1, by omega, found⟩
      · rintro ⟨offset, same, flight, found, gone⟩
        rw [expiredFrom]
        cases offset with
        | zero =>
            obtain rfl : first = some flight := by simpa using found
            rw [if_pos (by simpa using gone)]
            exact List.mem_cons.mpr (.inl same)
        | succ offset =>
            have later : cell ∈ expiredFrom now (start + 1) rest :=
              ih.mpr ⟨offset, by omega, flight, found, gone⟩
            split
            · exact List.mem_cons_of_mem _ later
            · exact later

theorem nodup_expiredFrom (now : Float32) (start : Nat)
    (cells : List (Option Flight)) :
    (expiredFrom now start cells).Nodup := by
  induction cells generalizing start with
  | nil => exact .nil
  | cons first rest ih =>
      rw [expiredFrom]
      split
      · refine List.nodup_cons.mpr ⟨?_, ih (start + 1)⟩
        intro member
        obtain ⟨offset, same, _⟩ := mem_expiredFrom_iff.mp member
        omega
      · exact ih (start + 1)

/-- The record has not run out. -/
def isFlying (now : Float32) (flight : Flight) : Bool :=
  !flight.isExpired now

theorem records_sweep (pool : ProjectilePool) (now : Float32) :
    (pool.sweep now).records = pool.records.filter (isFlying now) := by
  rw [records, sweep, records, List.filterMap_map, List.filter_filterMap]
  rfl

theorem length_expiredFrom (now : Float32) (start : Nat)
    (cells : List (Option Flight)) :
    (expiredFrom now start cells).length +
        ((cells.filterMap id).filter (isFlying now)).length =
      (cells.filterMap id).length := by
  induction cells generalizing start with
  | nil => rfl
  | cons first rest ih =>
      have later := ih (start + 1)
      cases first with
      | none => exact later
      | some flight =>
          have added : (some flight :: rest).filterMap id =
              flight :: rest.filterMap id := rfl
          rw [added, List.filter_cons, isFlying, expiredFrom, Option.any_some]
          cases flight.isExpired now with
          | false =>
              simp only [Bool.false_eq_true, if_false, Bool.not_false, if_true,
                List.length_cons]
              omega
          | true =>
              simp only [if_true, Bool.not_true, Bool.false_eq_true, if_false,
                List.length_cons]
              omega

theorem Holds.sweep {pool : ProjectilePool} {flights : List Flight}
    (holds : pool.Holds flights) (now : Float32) :
    (pool.sweep now).Holds (flights.filter (isFlying now)) := by
  have kept : (pool.sweep now).records.Perm
      (flights.filter (isFlying now)) := by
    rw [records_sweep]
    exact holds.records.filter _
  refine
    { records := kept
      ordered := holds.ordered.filter _
      numbered := fun flight member =>
        holds.numbered flight (List.mem_of_mem_filter member)
      live := ?_
      vacantOnce := ?_
      vacant := ?_ }
  · have dropped : (expiredFrom now 0 pool.cells).length +
        (pool.records.filter (isFlying now)).length = pool.records.length :=
      length_expiredFrom now 0 pool.cells
    have before := holds.records.length_eq
    have after := kept.length_eq
    rw [records_sweep] at after
    have live := holds.live
    simp only [ProjectilePool.sweep]
    omega
  · refine List.nodup_append.mpr
      ⟨List.nodup_reverse.mpr (nodup_expiredFrom now 0 pool.cells),
        holds.vacantOnce, ?_⟩
    rintro cell gone other empty rfl
    obtain ⟨offset, same, flight, found, _⟩ :=
      mem_expiredFrom_iff.mp (List.mem_reverse.mp gone)
    rw [Nat.zero_add] at same
    rw [← same, (holds.vacant cell).mp empty] at found
    simp at found
  · intro cell
    simp only [ProjectilePool.sweep, List.mem_append, List.mem_reverse,
      mem_expiredFrom_iff, holds.vacant, List.getElem?_map, Nat.zero_add,
      exists_eq_left']
    cases found : pool.cells[cell]? with
    | none => simp
    | some content =>
        cases content with
        | none => simp [retain]
        | some flight => simp [retain, Option.filter]

/-- Of some records the one found last is the one with the largest serial
number. -/
theorem foldl_later {flights : List Flight} (some? : flights ≠ []) :
    ∃ latest ∈ flights, flights.foldl later none = some latest ∧
      ∀ flight ∈ flights, flight.serial ≤ latest.serial := by
  induction flights using List.reverseRecOn with
  | nil => contradiction
  | append_singleton flights flight ih =>
      rw [List.foldl_append, List.foldl_cons, List.foldl_nil]
      by_cases nothing : flights = []
      · subst nothing
        exact ⟨flight, by simp, rfl, by simp⟩
      · obtain ⟨latest, member, found, greatest⟩ := ih nothing
        rw [found, later]
        split
        · next newer =>
          refine ⟨flight, by simp, rfl, ?_⟩
          intro other otherMember
          rcases List.mem_append.mp otherMember with old | new
          · exact Nat.le_trans (greatest other old) (Nat.le_of_lt newer)
          · exact Nat.le_of_eq
              (congrArg Flight.serial (List.mem_singleton.mp new))
        · next older =>
          refine ⟨latest, List.mem_append_left _ member, rfl, ?_⟩
          intro other otherMember
          rcases List.mem_append.mp otherMember with old | new
          · exact greatest other old
          · rw [List.mem_singleton.mp new]
            omega

theorem foldl_later_of_ordered {found flights : List Flight}
    (same : found.Perm flights)
    (ordered : flights.Pairwise fun first second =>
      first.serial < second.serial) :
    found.foldl later none = flights.getLast? := by
  induction flights using List.reverseRecOn with
  | nil =>
      rw [same.eq_nil]
      rfl
  | append_singleton flights last _ =>
      obtain ⟨_, _, before⟩ := List.pairwise_append.mp ordered
      have lastMember : last ∈ found := same.mem_iff.mpr (by simp)
      obtain ⟨latest, member, result, greatest⟩ :=
        foldl_later (List.ne_nil_of_mem lastMember)
      rw [result, List.getLast?_concat]
      rcases List.mem_append.mp (same.mem_iff.mp member) with old | new
      · have earlier := before latest old last (by simp)
        have later := greatest last lastMember
        omega
      · rw [List.mem_singleton.mp new]

theorem Holds.latest? {pool : ProjectilePool} {flights : List Flight}
    (holds : pool.Holds flights) (handle : EntityHandle) :
    pool.latest? handle =
      (flights.filter (·.handle == handle)).getLast? :=
  foldl_later_of_ordered (holds.records.filter _) (holds.ordered.filter _)

theorem mem_of_latest? {pool : ProjectilePool} {handle : EntityHandle}
    {flight : Flight} (latest : pool.latest? handle = some flight) :
    flight ∈ pool.records ∧ flight.handle = handle := by
  have some? : pool.records.filter (·.handle == handle) ≠ [] := by
    intro none?
    have nothing : pool.latest? handle = none :=
      congrArg (List.foldl later none) none?
    rw [nothing] at latest
    contradiction
  obtain ⟨found, member, result, _⟩ := foldl_later some?
  obtain rfl : found = flight := Option.some.inj (result.symm.trans latest)
  obtain ⟨tracked, same⟩ := List.mem_filter.mp member
  exact ⟨tracked, eq_of_beq same⟩

section Origin

variable {pool : ProjectilePool} {flights : List Flight} {flight : Flight}

/-- A record is kept from before or was made by the call. -/
theorem Holds.mem_records_perform (holds : pool.Holds flights) {call : Call}
    (member : flight ∈ (pool.perform call).records) :
    flight ∈ pool.records ∨
    ∃ handle now delay weapon owner,
      call = .put handle now delay weapon owner ∧
      flight = pool.newFlight handle now delay weapon owner := by
  cases call with
  | put handle now delay weapon owner =>
      have added := records_put handle now delay weapon owner holds
      rcases List.mem_append.mp (added.mem_iff.mp member) with old | new
      · exact .inl (holds.records.mem_iff.mpr old)
      · exact .inr ⟨handle, now, delay, weapon, owner, rfl,
          List.mem_singleton.mp new⟩
  | findOwner handle now =>
      have swept : flight ∈ (pool.sweep now).records := member
      rw [records_sweep] at swept
      exact .inl (List.mem_of_mem_filter swept)
  | clear => exact absurd member List.not_mem_nil

theorem nextSerial_le_perform (pool : ProjectilePool) (call : Call) :
    pool.nextSerial ≤ (pool.perform call).nextSerial := by
  cases call with
  | put handle now delay weapon owner =>
      have next := nextSerial_put handle now delay weapon owner pool
      rw [perform, respond, next]
      exact Nat.le_succ pool.nextSerial
  | findOwner handle now => exact Nat.le_refl _
  | clear => exact Nat.le_refl _

end Origin

/-- The pool keeps the launches of a log. -/
def Keeps (pool : ProjectilePool) (log : FlightLog) : Prop :=
  ∃ flights, pool.Holds flights ∧ log.launches = flights.map Flight.launch

theorem keeps_empty : ({} : ProjectilePool).Keeps {} :=
  ⟨[], holds_empty, rfl⟩

theorem Keeps.length {pool : ProjectilePool} {log : FlightLog}
    (keeps : pool.Keeps log) : pool.live = log.launches.length := by
  obtain ⟨flights, holds, same⟩ := keeps
  rw [holds.live, same, List.length_map]

theorem flying_launches (flights : List Flight) (now : Float32) :
    ((flights.map Flight.launch).filter fun launch =>
        ¬launch.expiresAt ≤ now) =
      (flights.filter (isFlying now)).map Flight.launch := by
  rw [List.filter_map]
  apply congrArg (List.map Flight.launch)
  apply List.filter_congr
  intro flight _
  simp only [isFlying, Flight.isExpired, Flight.launch, Function.comp_apply,
    decide_not]
  rfl

theorem Keeps.findOwner {pool : ProjectilePool} {log : FlightLog}
    (keeps : pool.Keeps log) (handle : EntityHandle) (now : Float32) :
    (pool.findOwner handle now).1 = (log.findOwner handle now).1 ∧
    (pool.findOwner handle now).2.Keeps (log.findOwner handle now).2 := by
  obtain ⟨flights, holds, same⟩ := keeps
  have swept := holds.sweep now
  have launches := flying_launches flights now
  rw [← same] at launches
  refine ⟨?_, _, swept, launches⟩
  have ofHandle : ((flights.filter (isFlying now)).map Flight.launch).filter
      (fun launch => launch.handle = handle) =
        ((flights.filter (isFlying now)).filter (·.handle == handle)).map
          Flight.launch :=
    List.filter_map
  simp only [ProjectilePool.findOwner, FlightLog.findOwner, launches,
    swept.latest?, ofHandle, List.getLast?_map, Option.map_map]
  rfl

/-- A call keeps the relation and answers as the log does. -/
theorem Keeps.respond {pool : ProjectilePool} {log : FlightLog}
    (keeps : pool.Keeps log) (call : Call) :
    (pool.respond call).1 = (log.respond call).1 ∧
    (pool.perform call).Keeps (log.perform call) := by
  cases call with
  | put handle now delay weapon owner =>
      obtain ⟨flights, holds, same⟩ := keeps
      refine ⟨rfl, _, holds.put handle now delay weapon owner, ?_⟩
      rw [List.map_append, ← same]
      rfl
  | findOwner handle now => exact keeps.findOwner handle now
  | clear =>
      refine ⟨rfl, [], ?_, rfl⟩
      exact
        { records := .nil
          ordered := .nil
          numbered := by simp
          live := rfl
          vacantOnce := .nil
          vacant := by simp [perform, ProjectilePool.respond, clear] }

theorem Keeps.answers {pool : ProjectilePool} {log : FlightLog}
    (keeps : pool.Keeps log) (calls : List Call) :
    pool.answers calls = log.answers calls := by
  induction calls generalizing pool log with
  | nil => rfl
  | cons call rest ih =>
      obtain ⟨answer, after⟩ := keeps.respond call
      rw [ProjectilePool.answers, FlightLog.answers, answer, after.length,
        ih after]

theorem Keeps.run {pool : ProjectilePool} {log : FlightLog}
    (keeps : pool.Keeps log) (calls : List Call) :
    (pool.run calls).Keeps (calls.foldl FlightLog.perform log) := by
  induction calls generalizing pool log with
  | nil => exact keeps
  | cons call rest ih => exact ih (keeps.respond call).2

def Call.isPut : Call → Bool
  | .put .. => true
  | _ => false

theorem nextSerial_run (pool : ProjectilePool) (calls : List Call) :
    (pool.run calls).nextSerial = pool.nextSerial + calls.countP Call.isPut := by
  induction calls generalizing pool with
  | nil => rfl
  | cons call rest ih =>
      have later := ih (pool.perform call)
      rw [List.countP_cons]
      cases call with
      | put handle now delay weapon owner =>
          have next : (pool.perform (.put handle now delay weapon owner)
              ).nextSerial = pool.nextSerial + 1 :=
            nextSerial_put handle now delay weapon owner pool
          rw [next] at later
          exact later.trans (by simp only [Call.isPut, if_true]; omega)
      | findOwner handle now => exact later
      | clear => exact later

/-- Through `2 ^ 64` records, the serial numbers fit words of 64 bits, which order
the records of a pool as the numbers themselves do. -/
theorem words_order_records {calls : List Call}
    (few : calls.countP Call.isPut ≤ UInt64.size) {first second : Flight} :
    let pool := ({} : ProjectilePool).run calls
    first ∈ pool.records → second ∈ pool.records →
      (UInt64.ofNat first.serial < UInt64.ofNat second.serial ↔
        first.serial < second.serial) := by
  intro pool firstThere secondThere
  obtain ⟨flights, holds, _⟩ := keeps_empty.run calls
  have made : pool.nextSerial = calls.countP Call.isPut :=
    (nextSerial_run {} calls).trans (Nat.zero_add _)
  have fits {flight : Flight} (member : flight ∈ pool.records) :
      flight.serial < UInt64.size := by
    have numbered := holds.numbered flight (holds.records.mem_iff.mp member)
    rw [← made] at few
    exact Nat.lt_of_lt_of_le numbered few
  rw [UInt64.lt_iff_toNat_lt, UInt64.toNat_ofNat_of_lt' (fits firstThere),
    UInt64.toNat_ofNat_of_lt' (fits secondThere)]

/-- Whatever is called, a pool answers as the log does and holds as many
records; its vacant cells are the cells without a record, each listed once. -/
theorem answers_eq_of_log (calls : List Call) :
    let pool := ({} : ProjectilePool).run calls
    ({} : ProjectilePool).answers calls = ({} : FlightLog).answers calls ∧
    pool.vacant.Nodup ∧
    ∀ cell, cell ∈ pool.vacant ↔ pool.cells[cell]? = some none := by
  intro pool
  obtain ⟨flights, holds, _⟩ := keeps_empty.run calls
  exact ⟨keeps_empty.answers calls, holds.vacantOnce, holds.vacant⟩

end ProjectilePool

end Fragboard.Match
