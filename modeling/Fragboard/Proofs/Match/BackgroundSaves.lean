import Fragboard.Proofs.Match.ClosedMatch
import Fragboard.Proofs.Rank.SavedBoard
import Fragboard.Proofs.Rank.SavedFiles

/-!
# Matches saved in the background

What a saver does beside the game is what saving in place would have done, with
the images as they were when they were handed over
(`Session.saved_in_background`).  A file stays as it was saved until another image
is staged in it, which paths alone do not tell; and the game must not load what is
being saved (`Session.saved_file_swept_away`).
-/

namespace Fragboard.Match

namespace Session

open Rank (Attempt Board Record SaveJob Saver Saving)
open Storage (FilePath FileTree)

variable {World : Type} [GameWorld World]

/-- The end of a match adds one job to what the saver has to do, and shutting the
saver down then writes what ending the match in place would have written after
the other jobs. -/
theorem shutdown_after_teardown {saving : Saving} (counted : saving.Counted)
    (session : Session World) :
    let handed : Saving :=
      { saving with saver := (session.teardownBackground saving.saver).1 }
    let job : SaveJob :=
      { path := session.config.rankFile
        image := session.closeMatch.board.encode }
    ∃ attempt : Attempt, attempt.job = job ∧
      session.teardown saving.shutdown.tree =
        (attempt.result, handed.shutdown.tree,
          (session.teardownBackground saving.saver).2) ∧
      handed.shutdown.attempts = saving.shutdown.attempts ++ [attempt] := by
  intro handed job
  let closed := session.closeMatch
  have config : closed.config = session.config := session.config_closeMatch
  have submits : (session.teardownBackground saving.saver).1 =
      saving.saver.submit closed.board session.config.rankFile :=
    congrArg
      (fun config : Config => saving.saver.submit closed.board config.rankFile)
      config
  have settled : handed.settled = saving.settled.attempt job := by
    unfold Saving.settled
    dsimp only [handed]
    rw [submits]
    exact List.foldl_append
  let outcome := saving.settled.tree.replaceFile job.path job.image
  have ends : session.teardown saving.settled.tree =
      ((Attempt.ofOutcome job outcome).result, outcome.1, closed) := by
    unfold teardown Board.save Rank.writeFile
    dsimp only
    rw [session.config_closeMatch]
    rfl
  have countedHanded : handed.Counted := by
    unfold Saving.Counted
    dsimp only [handed]
    rw [submits]
    exact counted
  refine ⟨.ofOutcome job outcome, rfl, ?_, ?_⟩
  · rw [Saving.tree_shutdown counted, Saving.tree_shutdown countedHanded,
      settled, ends]
    rfl
  · rw [Saving.attempts_shutdown counted,
      Saving.attempts_shutdown countedHanded, settled]
    rfl

/-- A match that was ended in place without a failure has its leaderboard in the
rank file. -/
theorem read_after_teardown (session : Session World) (tree : FileTree)
    (saved : (session.teardown tree).1 = .ok ()) :
    (session.teardown tree).2.1.read session.config.rankFile =
      .ok session.closeMatch.board.encode := by
  unfold teardown Board.save Rank.writeFile at *
  dsimp only at *
  rw [session.config_closeMatch] at *
  cases outcome : tree.replaceFile session.config.rankFile
      session.closeMatch.board.encode with
  | mk written result =>
    rw [outcome] at saved
    cases result with
    | error failure => contradiction
    | ok done =>
        obtain ⟨_, takes, stands⟩ := FileTree.replaceFile_ok outcome
        exact FileTree.read_of_takes takes stands

/-- However the moves of the game and the steps of the writer follow each other,
shutting the saver down comes to an end, and then

* every submitted job was tried once, in the order of submission;
* the statistics count these attempts;
* a path that was written reads as the image that was put last where it leads,
  which is the board as it was when that job was submitted, as long as no later
  job has opened that very file to stage its image there;
* all of it is the same for every order in which the game makes the same moves,
  as long as none of them looks at the files;
* handing over the end of a match before the shutdown leaves the files that
  ending it in place after the shutdown would have left, with the leaderboard in
  the rank file whenever that can be written. -/
theorem saved_in_background (board : Board) (tree : FileTree)
    (moves : List Saving.Move) (session : Session World) :
    let start := Saving.start board tree
    let saving := start.play moves
    let jobs := start.submissions moves
    let ended := saving.shutdown
    let stats := ended.saver.stats
    (ended.AtRest ∧ ended.attempts.map Attempt.job = jobs) ∧
    (stats.completed + stats.failed = moves.countP Saving.Move.isSubmit ∧
      stats.completed = ended.attempts.countP Attempt.succeeded ∧
      stats.bytesWritten = ((ended.attempts.filter Attempt.succeeded).map
        (·.job.image.length)).sum ∧
      stats.lastError = (ended.attempts.filterMap Attempt.error?).getLast?) ∧
    (∀ before last after, ended.attempts = before ++ last :: after →
      last.succeeded = true →
      (∀ later ∈ after, ¬ later.Touches last.path.place) →
      ∀ attempt ∈ ended.attempts, attempt.succeeded = true →
        attempt.path.place = last.path.place →
        ended.tree.read attempt.path = .ok last.job.image) ∧
    (∀ others, (∀ move ∈ moves, move.IsBlind) →
      moves.filter Saving.Move.isCall = others.filter Saving.Move.isCall →
      (start.play others).shutdown = ended) ∧
    (let handed : Saving :=
        { saving with saver := (session.teardownBackground saving.saver).1 }
      let last : SaveJob :=
        { path := session.config.rankFile
          image := session.closeMatch.board.encode }
      ∃ attempt : Attempt, attempt.job = last ∧
        session.teardown ended.tree =
          (attempt.result, handed.shutdown.tree,
            (session.teardownBackground saving.saver).2) ∧
        handed.shutdown.attempts = ended.attempts ++ [attempt] ∧
        (attempt.result = .ok () →
          handed.shutdown.tree.read last.path = .ok last.image)) := by
  intro start saving jobs ended stats
  have counted : saving.Counted := (Saving.counted_start board tree).play moves
  have settled : saving.settled =
      jobs.foldl Record.attempt { attempts := [], tree := tree } :=
    start.settled_play moves
  have attempts : ended.attempts = saving.settled.attempts :=
    Saving.attempts_shutdown counted
  have tried : ended.attempts.map Attempt.job = jobs :=
    Saving.jobs_shutdown board tree moves
  refine ⟨⟨saving.atRest_shutdown, tried⟩, ?_, ?_, ?_, ?_⟩
  · have known : stats = Rank.SaverStats.ofAttempts ended.attempts :=
      counted.play _
    obtain ⟨total, parts⟩ := Rank.SaverStats.ofAttempts_parts ended.attempts
    rw [known]
    refine ⟨?_, parts⟩
    rw [total, ← start.length_submissions moves]
    exact (List.length_map _).symm.trans (congrArg List.length tried)
  · have files := Rank.read_after_saving tree jobs
    rw [← settled] at files
    rw [attempts, Saving.tree_shutdown counted]
    exact files
  · intro others blind same
    exact (Saving.shutdown_of_same_calls (Saving.counted_start board tree) blind
      same).symm
  · obtain ⟨attempt, job, ends, last⟩ :=
      shutdown_after_teardown counted session
    refine ⟨attempt, job, ends, last, ?_⟩
    intro saved
    have read := session.read_after_teardown ended.tree
    rw [ends] at read
    exact read saved

/-- Ann comes on the board between two saves to one file, while the writer is
still at the first.  A third save would need that file as a directory and fails.
The file holds the board with Ann. -/
theorem saved_in_background_in_turns :
    let file : FilePath := { text := "ranks.dat" }
    let below : FilePath := { text := "ranks.dat/old.dat" }
    let enter (board : Board) : Board := (board.findOrCreate "ann" none).2
    let moves : List Saving.Move :=
      [.submit file, .write, .write, .change fun _ => enter, .submit file,
        .write, .submit below]
    let board := Board.empty 10 PointTable.blank
    let start := Saving.start board .empty
    let ended := (start.play moves).shutdown
    (∀ move ∈ moves, move.IsBlind) ∧
    (ended.attempts.map Attempt.succeeded = [true, true, false] ∧
      ∀ later ∈ ended.attempts.drop 2, ¬ later.Touches file.place) ∧
    ended.tree.read file = .ok (enter board).encode ∧
    (start.play (moves.filter Saving.Move.isCall)).shutdown = ended := by
  intro file below enter moves board start ended
  have blind : ∀ move ∈ moves, move.IsBlind := by
    simp [moves, Saving.Move.IsBlind]
  have outcomes : ended.attempts.map Attempt.succeeded =
      [true, true, false] := by decide +kernel
  have spared : ∀ later ∈ ended.attempts.drop 2,
      ¬ later.Touches file.place := by decide +kernel
  have called : moves.filter Saving.Move.isCall =
      [.submit file, .change fun _ => enter, .submit file, .submit below] :=
    rfl
  have startIs : start = Saving.start board .empty := rfl
  have endedIs : ended = (start.play moves).shutdown := rfl
  clear_value ended start moves board enter file below
  subst startIs endedIs
  have jobs : (Saving.start board .empty).submissions moves =
      [⟨file, board.encode⟩, ⟨file, (enter board).encode⟩,
        ⟨below, (enter board).encode⟩] := by
    rw [(Saving.calls_decide blind rfl).1, called]
    rfl
  obtain ⟨⟨_, tried⟩, _, files, order, _⟩ :=
    saved_in_background board .empty moves
      (Session.new {} ScriptedWorld.empty PointTable.blank)
  refine ⟨blind, ⟨outcomes, spared⟩, ?_, order _ blind ?_⟩
  · rw [jobs] at tried
    obtain ⟨first, second, third, all⟩ :=
      List.length_eq_three.mp ((List.length_map _).symm.trans
        (congrArg List.length tried))
    rw [all] at tried outcomes files spared
    simp only [List.map_cons, List.map_nil, List.cons.injEq, and_true]
      at tried outcomes
    obtain ⟨_, job, _⟩ := tried
    obtain ⟨_, done, _⟩ := outcomes
    have path : second.path = file := congrArg SaveJob.path job
    have later : ∀ attempt ∈ [third], ¬ attempt.Touches second.path.place := by
      rw [path]
      exact spared
    have read := files [first] second [third] rfl done later second
      (by simp) done rfl
    rwa [path, job] at read
  · rw [List.filter_filter]
    simp

/-- The image for `b.dat` is staged in the very file to which `./b.tmp` leads, so
saving the one sweeps away the other, although neither path is the other one with
its extension replaced.  A board that is loaded while its save is under way comes
out with its rows or without.  And a path that ends in `.tmp` is staged in its own
file: when the disk is full at the second save, the first one is lost too. -/
theorem saved_file_swept_away :
    let one : FilePath := { text := "./b.tmp" }
    let two : FilePath := { text := "b.dat" }
    let board := ((Board.empty 10 PointTable.blank).findOrCreate "ann" none).2
    let start := Saving.start board .empty
    let swept := (start.play [.submit one, .submit two]).shutdown
    let load : Saving.Move := .change fun tree board => (board.load tree two).2
    let lazy : List Saving.Move := [.submit two, load, .submit two]
    let eager : List Saving.Move :=
      [.submit two] ++ List.replicate 7 .write ++ [load, .submit two]
    let sizes (moves : List Saving.Move) : List Nat :=
      (start.play moves).shutdown.attempts.map (·.job.image.length)
    let full : Storage.Trouble :=
      { description := "No space left on device (os error 28)", through := 1 }
    let filling : FileTree :=
      { nodes := [], outlook := List.replicate 5 none ++ [some full] }
    let spoilt :=
      ((Saving.start board filling).play [.submit one, .submit one]).shutdown
    ((∀ path ∈ [one, two], ∀ other ∈ [one, two], path ≠ other →
        path ≠ FileTree.stagingPath other) ∧
      swept.attempts.map (fun attempt => (attempt.path, attempt.succeeded)) =
        [(one, true), (two, true)] ∧
      swept.tree.read one = .error .noEntry) ∧
    (lazy.filter Saving.Move.isCall = eager.filter Saving.Move.isCall ∧
      sizes lazy = [148, 16] ∧ sizes eager = [148, 148]) ∧
    (spoilt.attempts.map (fun attempt => (attempt.path, attempt.succeeded)) =
        [(one, true), (one, false)] ∧
      spoilt.tree.read one = .ok (board.encode.take 1) ∧
      board.encode.take 1 ≠ board.encode) := by
  intro one two board start swept load lazy eager sizes full filling spoilt
  refine ⟨⟨?_, ?_, ?_⟩, ⟨rfl, ?_, ?_⟩, ?_, ?_, ?_⟩
  · decide +kernel
  · decide +kernel
  · decide +kernel
  · decide +kernel
  · have succeeds : (FileTree.empty.replaceFile two board.encode).2 = .ok () :=
      by decide +kernel
    have count : board.rows.length = 1 := by decide +kernel
    have capacity : board.capacity = 10 := rfl
    clear_value board
    let saving := start.play [.submit two]
    let saved := saving.shutdown
    have loads (saving : Saving) : saving.submissions [load, .submit two] =
        [⟨two, (saving.board.load saving.tree two).2.encode⟩] := rfl
    have jobs : start.submissions eager =
        [⟨two, board.encode⟩,
          ⟨two, (saved.board.load saved.tree two).2.encode⟩] := by
      have first : start.submissions [.submit two] = [⟨two, board.encode⟩] :=
        rfl
      have shutdown : saving.play (List.replicate 7 .write) = saved := rfl
      rw [Saving.submissions_append, Saving.submissions_append,
        Saving.submissions_writes, Saving.play_append, shutdown, loads, first,
        List.append_nil, List.singleton_append]
    have same : saved.board = board := (saving.writes_keep _).1
    have read : saved.tree.read two = .ok board.encode :=
      Rank.read_after_save board succeeds
    have rows : (saved.board.load saved.tree two).2.rows.length = 1 := by
      rw [Board.load, same, read, Board.loadContent,
        Board.rows_loadBytes_encode board board (by rw [count]; decide),
        List.length_take, List.length_mergeSort, capacity]
      simp [Board.reread, count]
    have tried := congrArg (List.map (·.image.length))
      (Saving.jobs_shutdown board .empty eager)
    rw [jobs, List.map_map] at tried
    apply tried.trans
    simp only [List.map_cons, List.map_nil, Board.length_encode, count, rows]
    rfl
  · decide +kernel
  · decide +kernel
  · decide +kernel

end Session

end Fragboard.Match
