import Fragboard.Proofs.Rank.BoundedBoard
import Mathlib.Algebra.Group.Nat.Defs

/-!
# Identities that come back

Identities are words, so there are 2 ^ 32 of them.  On a full board rows can be
made and dropped without end: a life that is worse than all that were entered
leaves the rows as they are, and so do two keys that are looked for by turns,
but for the last row.  Each time an identity is handed out, and in the end it is
that of a row that has stayed.
-/

namespace Fragboard.Rank

namespace Board

theorem score_newRow (board : Board) (entry : LifeEntry) :
    (board.newRow entry).score =
      board.points.score (StatBlock.zero.merge entry.life) :=
  Row.score_gain (board.emptyRow entry) board.points entry.life

section Lowest

variable {board : Board} {player : String × StatBlock}
  (absent : ∀ row ∈ board.rows, foldCase row.name ≠ foldCase player.1)
  (full : board.rows.length = board.capacity)
  (sorted : Descending board.rows)
  (lowest : ∀ row ∈ board.rows,
    board.points.score (StatBlock.zero.merge player.2) ≤ row.score)

include absent full sorted lowest

theorem credit_lowest
    (unused : ∀ row ∈ board.rows, row.id ≠ { number := board.nextId }) :
    board.credit player = { board with nextId := board.nextId + 1 } := by
  let row := board.newRow (lifeOf player)
  have last : place row board.rows = board.rows ++ [row] := by
    have score := board.score_newRow (lifeOf player)
    rw [lifeOf] at score
    rw [← score] at lowest
    have placed := place_append row [] lowest
    rw [List.append_nil] at placed
    exact placed
  rw [credit_of_absent absent unused full.le sorted, last, ← full,
    List.take_left]

/-- Lives that are not kept take as many identities. -/
theorem credits_lowest {first : Nat} (numbered : board.Numbered first)
    {count : Nat} (left : first + count ≤ UInt32.size) :
    board.credits (List.replicate count player) =
      { board with nextId := UInt32.ofNat (first + count) } := by
  induction count with
  | zero =>
      rw [Nat.add_zero, ← numbered.next]
      rfl
  | succ count ih =>
      let before : Board :=
        { board with nextId := UInt32.ofNat (first + count) }
      have still : before.Numbered (first + count) :=
        ⟨rfl, fun row member =>
          Nat.lt_add_right count (numbered.below row member)⟩
      have unused := still.fresh (by omega)
      have entered : before.credit player =
          { before with nextId := before.nextId + 1 } :=
        credit_lowest absent full sorted lowest unused
      rw [List.replicate_succ', credits_concat, ih (by omega), entered,
        ← Nat.add_assoc, UInt32.ofNat_add]
      rfl

/-- When they have taken all of them, the next row is given the first one. -/
theorem credits_lowest_round {first : Nat} (numbered : board.Numbered first)
    {count : Nat} (all : first + count = UInt32.size) :
    board.credits (List.replicate (count + 1) player) =
      { board with nextId := 0 }.credit player := by
  have wrapped : UInt32.ofNat UInt32.size = 0 := by decide
  rw [List.replicate_succ', credits_concat,
    credits_lowest absent full sorted lowest numbered all.le, all, wrapped]

end Lowest

/-- A row into which nothing has been merged. -/
def freshRow (points : PointTable) (name : String) (number : UInt32) : Row :=
  { id := { number := number }
    name := name
    unique := ""
    stats := StatBlock.zero
    score := points.score StatBlock.zero }

/-- Rows that fill a board, and a fresh one below them. -/
def overfull (points : PointTable) (kept : List Row) (last : String)
    (number : UInt32) : Board :=
  { rows := kept ++ [freshRow points last number]
    capacity := kept.length
    points := points
    nextId := number + 1 }

/-- Bob and cat are looked for by turns. -/
def turns (count : Nat) : List Call :=
  (List.replicate count
    [Call.findOrCreate "bob" none, Call.findOrCreate "cat" none]).flatten

theorem turns_succ (count : Nat) :
    turns (count + 1) =
      [.findOrCreate "bob" none, .findOrCreate "cat" none] ++ turns count := by
  rw [turns, List.replicate_succ, List.flatten_cons, turns]

/-- The rows are those of neither player. -/
def Strangers (kept : List Row) : Prop :=
  ∀ row ∈ kept, foldCase row.name ≠ foldCase "bob" ∧
    foldCase row.name ≠ foldCase "cat"

section Turns

variable {points : PointTable} {kept : List Row}

/-- A row for another key takes the place of the last one. -/
theorem perform_overfull {last name : String}
    (absent : ∀ row ∈ kept, foldCase row.name ≠ foldCase name)
    (apart : foldCase last ≠ foldCase name) (number : UInt32) :
    (overfull points kept last number).perform (.findOrCreate name none) =
      overfull points kept name (number + 1) := by
  have unknown : (overfull points kept last number).find? name none = none := by
    apply find?_eq_none_of_absent
    intro row member
    rcases List.mem_append.mp member with old | fresh
    · exact absent row old
    · rw [List.mem_singleton.mp fresh]
      exact apart
  have evicted : (overfull points kept last number).rows.take
      (overfull points kept last number).capacity = kept :=
    List.take_left
  simp only [perform, findOrCreate, unknown, append, evict, evicted]
  rfl

theorem run_turn (strangers : Strangers kept) (number : UInt32) :
    (overfull points kept "cat" number).run
        [.findOrCreate "bob" none, .findOrCreate "cat" none] =
      overfull points kept "cat" (number + 2) := by
  have bob : (overfull points kept "cat" number).perform
      (.findOrCreate "bob" none) = overfull points kept "bob" (number + 1) :=
    perform_overfull (fun row member => (strangers row member).1) (by decide)
      number
  have cat : (overfull points kept "bob" (number + 1)).perform
      (.findOrCreate "cat" none) =
        overfull points kept "cat" (number + 1 + 1) :=
    perform_overfull (fun row member => (strangers row member).2) (by decide)
      (number + 1)
  have two : number + 1 + 1 = number + 2 := by grind
  rw [run, List.foldl_cons, bob, List.foldl_cons, cat, List.foldl_nil, two]

/-- From the first turn on every turn takes two identities. -/
theorem run_turns {board : Board} (strangers : Strangers kept)
    {number : UInt32}
    (made : board.run [.findOrCreate "bob" none, .findOrCreate "cat" none] =
      overfull points kept "cat" (number + 2)) (count : Nat) :
    board.run (turns (count + 1)) =
      overfull points kept "cat" (number + 2 * UInt32.ofNat (count + 1)) := by
  induction count generalizing board number with
  | zero => exact made
  | succ count ih =>
      have later := ih (run_turn strangers (number + 2))
      have sum : number + 2 + 2 * UInt32.ofNat (count + 1) =
          number + 2 * UInt32.ofNat (count + 1 + 1) := by
        rw [UInt32.ofNat_add (count + 1)]
        grind
      rw [turns_succ, run, List.foldl_append, ← run, ← run, made, later, sum]

/-- When all identities have been handed out, cat is given the last one from
before. -/
theorem run_turns_round {board : Board} (strangers : Strangers kept)
    {number : UInt32}
    (made : board.run [.findOrCreate "bob" none, .findOrCreate "cat" none] =
      overfull points kept "cat" (number + 2)) :
    board.run (turns (2 ^ 31)) = overfull points kept "cat" number := by
  have wrapped : 2 * UInt32.ofNat (2 ^ 31) = 0 := by decide
  obtain ⟨left, all⟩ : ∃ left, 2 ^ 31 = left + 1 := ⟨2 ^ 31 - 1, by decide⟩
  rw [all, run_turns strangers made left, ← all, wrapped, UInt32.add_zero]

end Turns

theorem names_apart :
    foldCase "ann" ≠ foldCase "dog" ∧ foldCase "ann" ≠ foldCase "bob" ∧
    foldCase "ann" ≠ foldCase "cat" ∧ foldCase "dog" ≠ foldCase "bob" ∧
    foldCase "dog" ≠ foldCase "cat" ∧ foldCase "bob" ≠ foldCase "cat" := by
  decide

/-- On a board for ann alone cat is given her identity. -/
theorem run_turns_after_ann (points : PointTable) :
    (Board.empty 1 points).run (.findOrCreate "ann" none :: turns (2 ^ 31)) =
      overfull points [freshRow points "ann" 0] "cat" 0 := by
  have strangers : Strangers [freshRow points "ann" 0] := by
    simp [Strangers, freshRow, names_apart]
  rw [run, List.foldl_cons, ← run]
  apply run_turns_round strangers
  simp [run, perform, findOrCreate, find?, Row.matchesKey, Board.empty,
    overfull, freshRow, evict, append, names_apart]

/-- On a board for ann and dog cat is given the identity of dog. -/
theorem run_turns_after_dog (points : PointTable) :
    (Board.empty 2 points).run
        (.findOrCreate "ann" none :: .findOrCreate "dog" none ::
          turns (2 ^ 31)) =
      overfull points [freshRow points "ann" 0, freshRow points "dog" 1] "cat"
        1 := by
  have strangers :
      Strangers [freshRow points "ann" 0, freshRow points "dog" 1] := by
    simp [Strangers, freshRow, names_apart]
  rw [run, List.foldl_cons, List.foldl_cons, ← run]
  apply run_turns_round strangers
  simp [run, perform, findOrCreate, find?, Row.matchesKey, Board.empty,
    overfull, freshRow, evict, append, names_apart]

end Board

end Fragboard.Rank
