import Fragboard.Proofs.Storage.ReplacedFiles
import Fragboard.Rank.Saver
import Mathlib.Algebra.GroupWithZero.Nat
import Mathlib.Data.List.Induction

/-!
# Runs of a saver beside the game

The game changes its board and submits images while a writer works through the
queue, one small step at a time.  A `Saving` is the state of both, and `perform`
lets either of them move, so a list of moves is any interleaving.

`Saving.settled` is what the work begun and the work still queued will have come
to.  No step of the writer changes it, and a submission adds one attempt to its
end.  So the outcome of a run is the outcome of trying the submitted jobs one
after the other (`Saving.settled_play`), and shutting down brings it about
(`Saving.shutdown_eq`).
-/

namespace Fragboard.Rank

open Storage (FileTree FilePath Location)
open Storage.FileTree (WriteFailure WriteOutcome)

/-- A job that was tried and what became of it. -/
structure Attempt where
  job : SaveJob
  outcome : Except WriteFailure Unit

namespace Attempt

/-- What is reported of the attempt. -/
def result (attempt : Attempt) : Except RankError Unit :=
  attempt.outcome.mapError .ofWrite

def succeeded (attempt : Attempt) : Bool :=
  attempt.outcome.isOk

@[simp] theorem succeeded_ok (job : SaveJob) (done : Unit) :
    ({ job := job, outcome := .ok done } : Attempt).succeeded = true :=
  rfl

@[simp] theorem succeeded_error (job : SaveJob) (failure : WriteFailure) :
    ({ job := job, outcome := .error failure } : Attempt).succeeded = false :=
  rfl

@[simp] theorem result_ok (job : SaveJob) (done : Unit) :
    ({ job := job, outcome := .ok done } : Attempt).result = .ok () :=
  rfl

@[simp] theorem result_error (job : SaveJob) (failure : WriteFailure) :
    ({ job := job, outcome := .error failure } : Attempt).result =
      .error (.ofWrite failure) :=
  rfl

def error? (attempt : Attempt) : Option RankError :=
  match attempt.result with
  | .ok () => none
  | .error failure => some failure

/-- The attempt that ends with a write. -/
def ofOutcome (job : SaveJob) (outcome : WriteOutcome Unit) : Attempt :=
  { job := job, outcome := outcome.2 }

end Attempt

/-- How far the writer is. -/
inductive Hand where
  | idle
  /-- The job is off the queue. -/
  | taken (job : SaveJob)
  /-- The directory for the file is there. -/
  | ready (job : SaveJob)
  /-- The file for the image is open. -/
  | opened (job : SaveJob) (file : Location)
  /-- The image is written to that file. -/
  | written (job : SaveJob) (file : Location)
  /-- The image is safe there. -/
  | safe (job : SaveJob)
  /-- The attempt is over and not yet counted. -/
  | tried (attempt : Attempt)

structure Saving where
  board : Board
  saver : Saver
  hand : Hand
  tree : FileTree
  /-- The attempts that are counted, in order. -/
  attempts : List Attempt

namespace Saving

inductive Move where
  /-- The game changes its board.  It may look at the files, as in loading. -/
  | change (edit : FileTree → Board → Board)
  | submit (path : FilePath)
  /-- The writer takes its next step. -/
  | write

/-- The game makes the move, not the writer. -/
def Move.isCall : Move → Bool
  | .change _ | .submit _ => true
  | .write => false

def Move.isSubmit : Move → Bool
  | .submit _ => true
  | _ => false

/-- The move does not look at the files. -/
def Move.IsBlind : Move → Prop
  | .change edit => ∀ tree other, edit tree = edit other
  | _ => True

/-- A saver has just been started. -/
def start (board : Board) (tree : FileTree) : Saving :=
  { board := board, saver := {}, hand := .idle, tree := tree, attempts := [] }

/-- The writer goes on with a job, or ends the attempt if the step failed. -/
def advance {α : Type} (saving : Saving) (job : SaveJob) (next : α → Hand)
    (outcome : WriteOutcome α) : Saving :=
  match outcome with
  | (tree, .ok value) => { saving with tree := tree, hand := next value }
  | (tree, .error failure) =>
    { saving with
      tree := tree
      hand := .tried { job := job, outcome := .error failure } }

def write (saving : Saving) : Saving :=
  match saving.hand with
  | .idle =>
    match saving.saver.queue with
    | [] => saving
    | job :: waiting =>
      { saving with
        saver := { saving.saver with queue := waiting }
        hand := .taken job }
  | .taken job =>
    saving.advance job (fun _ => .ready job) (saving.tree.makeParent job.path)
  | .ready job =>
    saving.advance job (.opened job) (saving.tree.openStaging job.path)
  | .opened job file =>
    saving.advance job (fun _ => .written job file)
      (saving.tree.writeStaging job.path job.image file)
  | .written job file =>
    saving.advance job (fun _ => .safe job)
      (saving.tree.syncStaging job.path file)
  | .safe job =>
    saving.advance job (fun _ => .tried { job := job, outcome := .ok () })
      (saving.tree.moveIn job.path)
  | .tried attempt =>
    let counted := saving.saver.stats.count attempt.job attempt.result
    { saving with
      saver := { saving.saver with stats := counted }
      hand := .idle
      attempts := saving.attempts ++ [attempt] }

def perform (saving : Saving) : Move → Saving
  | .change edit => { saving with board := edit saving.tree saving.board }
  | .submit path =>
    { saving with saver := saving.saver.submit saving.board path }
  | .write => saving.write

def play (saving : Saving) (moves : List Move) : Saving :=
  moves.foldl perform saving

/-- What a move puts on the queue. -/
def submitted (saving : Saving) : Move → List SaveJob
  | .submit path => [{ path := path, image := saving.board.encode }]
  | _ => []

/-- The jobs that a run submits, each with the image of the board as it is when
the job is submitted. -/
def submissions (saving : Saving) : List Move → List SaveJob
  | [] => []
  | move :: rest =>
    saving.submitted move ++ (saving.perform move).submissions rest

theorem length_submissions (saving : Saving) (moves : List Move) :
    (saving.submissions moves).length = moves.countP Move.isSubmit := by
  induction moves generalizing saving with
  | nil => rfl
  | cons move rest ih =>
      rw [submissions, List.length_append, ih, List.countP_cons]
      cases move with
      | submit path => exact Nat.add_comm 1 _
      | _ => exact Nat.zero_add _

theorem play_append (saving : Saving) (moves later : List Move) :
    saving.play (moves ++ later) = (saving.play moves).play later :=
  List.foldl_append

theorem submissions_append (saving : Saving) (moves later : List Move) :
    saving.submissions (moves ++ later) =
      saving.submissions moves ++ (saving.play moves).submissions later := by
  induction moves generalizing saving with
  | nil => rfl
  | cons move rest ih =>
      rw [List.cons_append, submissions, submissions, ih, List.append_assoc]
      rfl

theorem submissions_writes (saving : Saving) (count : Nat) :
    saving.submissions (List.replicate count .write) = [] := by
  induction count generalizing saving with
  | zero => rfl
  | succ count ih => exact ih saving.write

end Saving

/-- Attempts in order and the tree that they left. -/
structure Record where
  attempts : List Attempt
  tree : FileTree

namespace Record

def note (record : Record) (job : SaveJob) (outcome : WriteOutcome Unit) :
    Record :=
  { attempts := record.attempts ++ [.ofOutcome job outcome]
    tree := outcome.1 }

def attempt (record : Record) (job : SaveJob) : Record :=
  record.note job (record.tree.replaceFile job.path job.image)

theorem jobs_attempts (record : Record) (jobs : List SaveJob) :
    (jobs.foldl attempt record).attempts.map Attempt.job =
      record.attempts.map Attempt.job ++ jobs := by
  induction jobs generalizing record with
  | nil => exact (List.append_nil _).symm
  | cons job rest ih =>
      rw [List.foldl_cons, ih]
      simp [attempt, note, Attempt.ofOutcome]

end Record

/-- What a record will be when the work in hand is done. -/
def Hand.finish (record : Record) : Hand → Record
  | .idle => record
  | .taken job => record.attempt job
  | .ready job =>
    record.note job (record.tree.replaceFromMade job.path job.image)
  | .opened job file =>
    record.note job (record.tree.replaceFromOpened job.path job.image file)
  | .written job file =>
    record.note job (record.tree.replaceFromWritten job.path file)
  | .safe job => record.note job (record.tree.moveIn job.path)
  | .tried attempt =>
    { record with attempts := record.attempts ++ [attempt] }

namespace Saving

def record (saving : Saving) : Record :=
  { attempts := saving.attempts, tree := saving.tree }

/-- What the work in hand and the work still queued will have come to. -/
def settled (saving : Saving) : Record :=
  saving.saver.queue.foldl Record.attempt (saving.hand.finish saving.record)

theorem settled_advance {α : Type} (saving : Saving) (job : SaveJob)
    (next : α → Hand) (outcome : WriteOutcome α)
    (step : FileTree → α → WriteOutcome Unit)
    (goesOn : ∀ record value,
      (next value).finish record = record.note job (step record.tree value)) :
    (saving.advance job next outcome).settled =
      saving.saver.queue.foldl Record.attempt
        (saving.record.note job (outcome.next step)) := by
  obtain ⟨tree, failure | value⟩ := outcome
  · rfl
  · exact congrArg (saving.saver.queue.foldl Record.attempt) (goesOn _ value)

/-- The writer only brings about what is settled already. -/
theorem settled_write (saving : Saving) :
    saving.write.settled = saving.settled := by
  unfold write
  cases hand : saving.hand with
  | idle =>
      cases queue : saving.saver.queue with
      | nil => rfl
      | cons job waiting => simp [settled, hand, queue, Hand.finish, record]
  | taken job =>
      have ends := saving.settled_advance job (fun _ => .ready job)
        (saving.tree.makeParent job.path)
        (fun made _ => made.replaceFromMade job.path job.image)
        (fun _ _ => rfl)
      rw [ends, settled, hand]
      rfl
  | ready job =>
      have ends := saving.settled_advance job (.opened job)
        (saving.tree.openStaging job.path)
        (fun opened file => opened.replaceFromOpened job.path job.image file)
        (fun _ _ => rfl)
      rw [ends, settled, hand]
      rfl
  | opened job file =>
      have ends := saving.settled_advance job (fun _ => .written job file)
        (saving.tree.writeStaging job.path job.image file)
        (fun written _ => written.replaceFromWritten job.path file)
        (fun _ _ => rfl)
      rw [ends, settled, hand]
      rfl
  | written job file =>
      have ends := saving.settled_advance job (fun _ => .safe job)
        (saving.tree.syncStaging job.path file)
        (fun safe _ => safe.moveIn job.path)
        (fun _ _ => rfl)
      rw [ends, settled, hand]
      rfl
  | safe job =>
      have ends := saving.settled_advance job
        (fun _ => .tried { job := job, outcome := .ok () })
        (saving.tree.moveIn job.path) (fun tree value => (tree, .ok value))
        (fun _ _ => rfl)
      rw [ends, WriteOutcome.next_done, settled, hand]
      rfl
  | tried attempt => simp only [settled, hand, Hand.finish, record]

theorem settled_perform (saving : Saving) (move : Move) :
    (saving.perform move).settled =
      (saving.submitted move).foldl Record.attempt saving.settled := by
  cases move with
  | change edit => rfl
  | submit path => exact List.foldl_append
  | write => exact saving.settled_write

/-- Whatever the order of the moves, the outcome of a run is that of trying the
submitted jobs one after the other. -/
theorem settled_play (saving : Saving) (moves : List Move) :
    (saving.play moves).settled =
      (saving.submissions moves).foldl Record.attempt saving.settled := by
  induction moves generalizing saving with
  | nil => rfl
  | cons move rest ih =>
      rw [submissions, List.foldl_append, ← settled_perform]
      exact ih _

end Saving

def Hand.stepsLeft : Hand → Nat
  | .idle => 0
  | .tried _ => 1
  | .safe _ => 2
  | .written _ _ => 3
  | .opened _ _ => 4
  | .ready _ => 5
  | .taken _ => 6

namespace Saving

/-- Nothing is in hand and nothing is queued. -/
def AtRest (saving : Saving) : Prop :=
  saving.hand = .idle ∧ saving.saver.queue = []

/-- However a step with a job ends, the writer has less left to do, and only the
files have changed. -/
theorem advance_cases {α : Type} (saving : Saving) (job : SaveJob)
    (next : α → Hand) (outcome : WriteOutcome α) {left : Nat}
    (known : ∀ value, (next value).stepsLeft + 1 = left) (more : 1 < left)
    (some : ∀ value, 0 < (next value).stepsLeft) :
    ∃ tree hand, 0 < hand.stepsLeft ∧ hand.stepsLeft + 1 ≤ left ∧
      saving.advance job next outcome =
        { saving with tree := tree, hand := hand } := by
  obtain ⟨tree, failure | value⟩ := outcome
  · exact ⟨tree, .tried _, Nat.one_pos, more, rfl⟩
  · exact ⟨tree, next value, some value, Nat.le_of_eq (known value), rfl⟩

/-- The writer rests, takes a job, goes on with the one in hand, or counts it. -/
theorem write_cases (saving : Saving) :
    (saving.AtRest ∧ saving.write = saving) ∨
    (∃ job waiting, saving.hand = .idle ∧ saving.saver.queue = job :: waiting ∧
      saving.write =
        { saving with
          saver := { saving.saver with queue := waiting }
          hand := .taken job }) ∨
    (∃ tree hand, 0 < hand.stepsLeft ∧
      hand.stepsLeft + 1 ≤ saving.hand.stepsLeft ∧
      saving.write = { saving with tree := tree, hand := hand }) ∨
    ∃ attempt, saving.hand = .tried attempt ∧
      saving.write =
        { saving with
          saver :=
            { saving.saver with
              stats := saving.saver.stats.count attempt.job attempt.result }
          hand := .idle
          attempts := saving.attempts ++ [attempt] } := by
  unfold write
  cases hand : saving.hand with
  | idle =>
      cases queue : saving.saver.queue with
      | nil => exact .inl ⟨⟨hand, queue⟩, rfl⟩
      | cons job waiting =>
          exact .inr (.inl ⟨job, waiting, rfl, rfl, rfl⟩)
  | tried attempt => exact .inr (.inr (.inr ⟨attempt, rfl, rfl⟩))
  | taken job | ready job | opened job file | written job file | safe job =>
      right
      right
      left
      apply saving.advance_cases job
      · exact fun _ => rfl
      · exact Nat.succ_lt_succ (Nat.succ_pos _)
      · exact fun _ => Nat.succ_pos _

end Saving

/-- The statistics of some attempts. -/
def SaverStats.ofAttempts (attempts : List Attempt) : SaverStats :=
  attempts.foldl (fun stats attempt => stats.count attempt.job attempt.result)
    {}

theorem SaverStats.ofAttempts_concat (attempts : List Attempt)
    (attempt : Attempt) :
    ofAttempts (attempts ++ [attempt]) =
      (ofAttempts attempts).count attempt.job attempt.result :=
  List.foldl_append

/-- What the statistics say about the attempts that they count. -/
theorem SaverStats.ofAttempts_parts (attempts : List Attempt) :
    let stats := ofAttempts attempts
    stats.completed + stats.failed = attempts.length ∧
    stats.completed = attempts.countP Attempt.succeeded ∧
    stats.bytesWritten =
      ((attempts.filter Attempt.succeeded).map (·.job.image.length)).sum ∧
    stats.lastError = (attempts.filterMap Attempt.error?).getLast? := by
  induction attempts using List.reverseRecOn with
  | nil => exact ⟨rfl, rfl, rfl, rfl⟩
  | append_singleton rest last ih =>
      obtain ⟨total, completed, bytes, error⟩ := ih
      obtain ⟨job, failure | ⟨⟩⟩ := last
      · simp only [ofAttempts_concat, count]
        refine ⟨?_, ?_, ?_, ?_⟩
        · simp [← total, Nat.add_assoc]
        · simp [completed]
        · simp [bytes]
        · simp [Attempt.error?]
      · simp only [ofAttempts_concat, count]
        refine ⟨?_, ?_, ?_, ?_⟩
        · simp [← total, Nat.add_right_comm]
        · simp [completed]
        · rw [List.filter_append, List.filter_cons_of_pos rfl]
          simp [bytes]
        · simp [error, Attempt.error?]

namespace Saving

/-- The statistics are those of the attempts made. -/
def Counted (saving : Saving) : Prop :=
  saving.saver.stats = SaverStats.ofAttempts saving.attempts

theorem Counted.perform {saving : Saving} (counted : saving.Counted)
    (move : Move) : (saving.perform move).Counted := by
  cases move with
  | change edit => exact counted
  | submit path => exact counted
  | write =>
      change saving.write.Counted
      rcases saving.write_cases with
        ⟨_, same⟩ | ⟨job, waiting, _, _, takes⟩ |
          ⟨tree, next, _, _, goesOn⟩ | ⟨attempt, _, counts⟩
      · rwa [same]
      · rw [takes]
        exact counted
      · rw [goesOn]
        exact counted
      · rw [counts]
        unfold Counted at counted ⊢
        dsimp only
        rw [SaverStats.ofAttempts_concat, counted]

theorem Counted.play {saving : Saving} (counted : saving.Counted)
    (moves : List Move) : (saving.play moves).Counted := by
  induction moves generalizing saving with
  | nil => exact counted
  | cons move rest ih => exact ih (counted.perform move)

theorem counted_start (board : Board) (tree : FileTree) :
    (start board tree).Counted :=
  rfl

end Saving

namespace Saving

/-- How many steps the writer needs at most until there is nothing to do. -/
def stepsLeft (saving : Saving) : Nat :=
  saving.hand.stepsLeft + 7 * saving.saver.queue.length

/-- Nothing can be submitted any more, and the writer works until there is
nothing left to do. -/
def shutdown (saving : Saving) : Saving :=
  saving.play (List.replicate saving.stepsLeft .write)

theorem atRest_of_stepsLeft {saving : Saving} (none : saving.stepsLeft = 0) :
    saving.AtRest := by
  unfold stepsLeft at none
  constructor
  · cases hand : saving.hand with
    | idle => rfl
    | _ =>
        rw [hand, Hand.stepsLeft] at none
        omega
  · exact List.length_eq_zero_iff.mp (by omega)

theorem stepsLeft_write (saving : Saving) :
    saving.write.stepsLeft ≤ saving.stepsLeft - 1 := by
  rcases saving.write_cases with
    ⟨⟨idle, empty⟩, same⟩ | ⟨job, waiting, idle, queue, takes⟩ |
      ⟨tree, next, some, less, goesOn⟩ | ⟨attempt, tried, counts⟩
  · rw [same]
    simp [stepsLeft, idle, empty, Hand.stepsLeft]
  · rw [takes]
    simp only [stepsLeft, idle, queue, Hand.stepsLeft, List.length_cons]
    omega
  · rw [goesOn]
    unfold stepsLeft
    dsimp only
    omega
  · rw [counts]
    simp only [stepsLeft, tried, Hand.stepsLeft]
    omega

theorem stepsLeft_writes (saving : Saving) (count : Nat) :
    (saving.play (List.replicate count .write)).stepsLeft ≤
      saving.stepsLeft - count := by
  induction count generalizing saving with
  | zero => exact Nat.le_refl _
  | succ count ih =>
      have rest := ih saving.write
      have first := saving.stepsLeft_write
      rw [List.replicate_succ]
      exact Nat.le_trans rest (by omega)

theorem atRest_shutdown (saving : Saving) : saving.shutdown.AtRest := by
  have left := saving.stepsLeft_writes saving.stepsLeft
  exact atRest_of_stepsLeft (by unfold shutdown; omega)

theorem board_write (saving : Saving) : saving.write.board = saving.board := by
  rcases saving.write_cases with
    ⟨_, same⟩ | ⟨job, waiting, _, _, takes⟩ |
      ⟨tree, next, _, _, goesOn⟩ | ⟨attempt, _, counts⟩
  · rw [same]
  · rw [takes]
  · rw [goesOn]
  · rw [counts]

theorem writes_keep (saving : Saving) (count : Nat) :
    (saving.play (List.replicate count .write)).board = saving.board ∧
    (saving.play (List.replicate count .write)).settled = saving.settled := by
  induction count generalizing saving with
  | zero => exact ⟨rfl, rfl⟩
  | succ count ih =>
      rw [List.replicate_succ]
      obtain ⟨board, settled⟩ := ih saving.write
      exact ⟨board.trans saving.board_write,
        settled.trans saving.settled_write⟩

/-- Shutting down brings about just what is settled. -/
theorem shutdown_eq {saving : Saving} (counted : saving.Counted) :
    saving.shutdown =
      { board := saving.board
        saver :=
          { queue := []
            stats := SaverStats.ofAttempts saving.settled.attempts }
        hand := .idle
        tree := saving.settled.tree
        attempts := saving.settled.attempts } := by
  obtain ⟨idle, empty⟩ := saving.atRest_shutdown
  obtain ⟨board, settled⟩ := saving.writes_keep saving.stepsLeft
  have stats : saving.shutdown.Counted := counted.play _
  have record : saving.shutdown.record = saving.settled := by
    have finished : saving.shutdown.settled = saving.shutdown.record := by
      simp only [Saving.settled, idle, empty, Hand.finish, List.foldl_nil]
    exact finished.symm.trans settled
  change saving.shutdown.board = saving.board at board
  rw [← board, ← record]
  generalize saving.shutdown = ended at *
  obtain ⟨_, ⟨queue, _⟩, hand, _, _⟩ := ended
  obtain rfl : queue = [] := empty
  obtain rfl : hand = .idle := idle
  unfold Counted at stats
  dsimp only at stats
  rw [stats]
  rfl

theorem attempts_shutdown {saving : Saving} (counted : saving.Counted) :
    saving.shutdown.attempts = saving.settled.attempts := by
  rw [shutdown_eq counted]

theorem tree_shutdown {saving : Saving} (counted : saving.Counted) :
    saving.shutdown.tree = saving.settled.tree := by
  rw [shutdown_eq counted]

/-- A saver that is shut down has tried every job once, in the order in which they
were submitted. -/
theorem jobs_shutdown (board : Board) (tree : FileTree) (moves : List Move) :
    ((start board tree).play moves).shutdown.attempts.map Attempt.job =
      (start board tree).submissions moves := by
  have counted := (counted_start board tree).play moves
  rw [attempts_shutdown counted, settled_play]
  exact Record.jobs_attempts _ _

/-- Draining a saver tries its jobs one after the other. -/
theorem drain_of_record (record : Record) (queue : List SaveJob) :
    let saver : Saver :=
      { queue := queue, stats := SaverStats.ofAttempts record.attempts }
    let last := queue.foldl Record.attempt record
    saver.drain record.tree =
      ({ queue := [], stats := SaverStats.ofAttempts last.attempts },
        last.tree) := by
  induction queue generalizing record with
  | nil => rfl
  | cons job waiting ih =>
      have later := ih (record.attempt job)
      rw [Record.attempt, Record.note, SaverStats.ofAttempts_concat] at later
      exact later

/-- With nothing in hand, shutting down does what `Saver.drain` does, which takes
every job in one step. -/
theorem drain_eq {saving : Saving} (idle : saving.hand = .idle)
    (counted : saving.Counted) :
    saving.saver.drain saving.tree =
      (saving.shutdown.saver, saving.shutdown.tree) := by
  have drained := drain_of_record saving.record saving.saver.queue
  have finished : saving.hand.finish saving.record = saving.record := by
    rw [idle]
    rfl
  rw [shutdown_eq counted, settled, finished]
  rw [record, ← counted] at drained
  exact drained

/-- As long as the game does not look at the files, what it submits and how its
board ends up depends on its own moves only. -/
theorem calls_decide {saving other : Saving} {moves : List Move}
    (blind : ∀ move ∈ moves, move.IsBlind) (same : saving.board = other.board) :
    saving.submissions moves =
        other.submissions (moves.filter Move.isCall) ∧
      (saving.play moves).board =
        (other.play (moves.filter Move.isCall)).board := by
  induction moves generalizing saving other with
  | nil => exact ⟨rfl, same⟩
  | cons move rest ih =>
      obtain ⟨first, later⟩ := List.forall_mem_cons.mp blind
      cases move with
      | change edit =>
          apply ih later
          simp only [perform, same]
          exact congrFun (first _ _) _
      | submit path =>
          have boards : (saving.perform (.submit path)).board =
              (other.perform (.submit path)).board := same
          obtain ⟨submissions, board⟩ := ih later boards
          refine ⟨?_, board⟩
          simp only [List.filter_cons, Move.isCall, if_true, Saving.submissions,
            submitted, same, submissions]
      | write =>
          apply ih later
          exact saving.board_write.trans same

/-- Two runs in which the game makes the same moves in the same order come to
the same, whatever the writer does in between. -/
theorem shutdown_of_same_calls {saving : Saving} (counted : saving.Counted)
    {moves others : List Move} (blind : ∀ move ∈ moves, move.IsBlind)
    (same : moves.filter Move.isCall = others.filter Move.isCall) :
    (saving.play moves).shutdown = (saving.play others).shutdown := by
  have blindOthers : ∀ move ∈ others, move.IsBlind := by
    intro move member
    cases call : move.isCall with
    | false =>
        cases move with
        | write => trivial
        | _ => contradiction
    | true =>
        have called := List.mem_filter.mpr ⟨member, call⟩
        rw [← same] at called
        exact blind _ (List.mem_filter.mp called).1
  obtain ⟨submissions, board⟩ := calls_decide blind (Eq.refl saving.board)
  obtain ⟨submissionsOther, boardOther⟩ :=
    calls_decide blindOthers (Eq.refl saving.board)
  have settled : (saving.play moves).settled =
      (saving.play others).settled := by
    rw [settled_play, settled_play, submissions, submissionsOther, same]
  rw [shutdown_eq (counted.play moves), shutdown_eq (counted.play others),
    settled, board, boardOther, same]

end Saving

end Fragboard.Rank
