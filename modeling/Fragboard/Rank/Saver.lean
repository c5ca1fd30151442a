import Fragboard.Rank.Persistence

/-!
# Saving in the background

A `Saver` keeps a queue of images to write.  The image is taken when it is
submitted, so later changes of the board do not reach it.  The writer performs
the jobs one at a time in the order of their submission; `Saver.drain` is what
shutting the saver down does.
-/

namespace Fragboard.Rank

open Storage (Bytes FileTree FilePath)

structure SaveJob where
  path : FilePath
  image : Bytes

structure SaverStats where
  completed : Nat := 0
  failed : Nat := 0
  bytesWritten : Nat := 0
  lastError : Option RankError := none

structure Saver where
  queue : List SaveJob := []
  stats : SaverStats := {}

namespace SaverStats

/-- Counts a job by its outcome. -/
def count (stats : SaverStats) (job : SaveJob) :
    Except RankError Unit → SaverStats
  | .ok () =>
    { stats with
      completed := stats.completed + 1
      bytesWritten := stats.bytesWritten + job.image.length }
  | .error failure =>
    { stats with failed := stats.failed + 1, lastError := some failure }

end SaverStats

namespace Saver

/-- Takes an image of the board and queues it. -/
def submit (saver : Saver) (board : Board) (path : FilePath) : Saver :=
  let job : SaveJob := { path := path, image := board.encode }
  { saver with queue := saver.queue ++ [job] }

/-- The writer's next step: one job, if there is any. -/
def step (saver : Saver) (tree : FileTree) : Saver × FileTree :=
  match saver.queue with
  | [] => (saver, tree)
  | job :: waiting =>
    let (written, result) := writeFile tree job.path job.image
    ({ queue := waiting, stats := saver.stats.count job result }, written)

def steps : Nat → Saver → FileTree → Saver × FileTree
  | 0, saver, tree => (saver, tree)
  | count + 1, saver, tree =>
    let (next, written) := saver.step tree
    steps count next written

def drain (saver : Saver) (tree : FileTree) : Saver × FileTree :=
  steps saver.queue.length saver tree

end Saver

end Fragboard.Rank
