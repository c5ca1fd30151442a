import Fragboard.Proofs.Rank.SavedBoard

/-!
# Looking up a key after a reload

Keys are compared in full, but a rank file keeps only what fits a field.  So a
key that found a row finds it again after a reload exactly when every row down to
that one answers to the key as it did before: the row itself still does, and no
row above it has come to do so.  Names of at most thirty-two bytes without a NUL
are kept, and rows with such names answer as before.
-/

namespace Fragboard.Rank

/-- The rank file keeps the key of a row as it is. -/
structure Row.KeyFits (row : Row) : Prop where
  nameFits : row.name.utf8ByteSize ≤ nameBytes
  nameNoNul : '\x00' ∉ row.name.toList
  uniqueFits : row.unique.utf8ByteSize ≤ nameBytes
  uniqueNoNul : '\x00' ∉ row.unique.toList

theorem Row.KeyFits.kept_eq {row : Row} (fits : row.KeyFits) :
    row.kept = row := by
  have name := (NameField.unpack_pack_eq_self_iff row.name).mpr
    ⟨fits.nameFits, fits.nameNoNul⟩
  have unique := (NameField.unpack_pack_eq_self_iff row.unique).mpr
    ⟨fits.uniqueFits, fits.uniqueNoNul⟩
  rw [Row.kept, name, unique]

/-- Two tests single out the same first row exactly when they agree on all rows
down to it. -/
private theorem findIdx?_eq_some_iff_agree {rows : List Row}
    {before after : Row → Bool} {index : Nat}
    (found : rows.findIdx? before = some index) :
    rows.findIdx? after = some index ↔
      ∀ row ∈ rows.take (index + 1), after row = before row := by
  obtain ⟨inside, chosen, passed⟩ := List.findIdx?_eq_some_iff_getElem.mp found
  constructor
  · intro foundAgain row member
    obtain ⟨_, chosenAgain, passedAgain⟩ :=
      List.findIdx?_eq_some_iff_getElem.mp foundAgain
    obtain ⟨place, bound, rfl⟩ := List.mem_take_iff_getElem.mp member
    rcases Nat.lt_or_ge place index with above | notAbove
    · have no := passed place above
      have noAgain := passedAgain place above
      rw [Bool.not_eq_true] at no noAgain
      rw [no, noAgain]
    · obtain rfl : place = index := by omega
      rw [chosen, chosenAgain]
  · intro agree
    have same (place : Nat) (near : place ≤ index) :
        after rows[place] = before rows[place] := by
      apply agree
      apply List.mem_take_iff_getElem.mpr
      exact ⟨place, by omega, rfl⟩
    apply List.findIdx?_eq_some_iff_getElem.mpr
    refine ⟨inside, ?_, ?_⟩
    · rw [same index (Nat.le_refl index)]
      exact chosen
    · intro place above
      rw [same place (Nat.le_of_lt above)]
      exact passed place above

namespace Board

/-- The position, counted from one, of the first row that answers to a key. -/
def positionOfKey? (board : Board) (name : String) (unique : Option String) :
    Option Nat :=
  (board.rows.findIdx? (·.matchesKey name unique)).map (· + 1)

theorem findIdx?_reread (target : Board) (rows : List Row) (name : String)
    (unique : Option String) :
    (target.reread rows).findIdx? (·.matchesKey name unique) =
      rows.findIdx? (·.kept.matchesKey name unique) := by
  have answers : (target.reread rows).map (·.matchesKey name unique) =
      rows.map (·.kept.matchesKey name unique) := by
    apply List.ext_getElem
    · simp [reread]
    · intro index _ _
      simp [reread, Row.matchesKey]
  have found := congrArg (List.findIdx? id) answers
  rw [List.findIdx?_map, List.findIdx?_map] at found
  exact found

/-- The image of a board with more rows than a header can count is rejected. -/
theorem rows_loadBytes_encode_of_overflow {saved : Board} (target : Board)
    (overflow : UInt32.size ≤ saved.rows.length) :
    (target.loadBytes saved.encode).2.rows = [] := by
  unfold loadBytes
  cases decoded : Image.decode saved.encode with
  | error failure => rfl
  | ok records =>
      have countable := Image.length_lt_of_decodeWith decoded
      have length := congrArg List.length (Image.eq_encodeWith_of_decodeWith decoded)
      rw [encode, Image.length_encode, Image.length_encodeWith,
        List.length_mapIdx] at length
      simp only [Image.recordSize, Image.headerSize] at length
      omega

/-- A key that found the row at a position finds the row at that position of the
reloaded board exactly when the rows can be counted and all of them down to this
position answer to the key as before; so it does when their keys fit. -/
theorem positionOfKey?_after_reload (capacity : Nat) (points : PointTable)
    (calls : List Call) (target : Board) (name : String)
    (unique : Option String) (position : Nat) :
    let saved := (Board.empty capacity points).run calls
    let loaded := (target.loadBytes saved.encode).2
    Descending saved.rows → saved.rows.length ≤ capacity →
      target.capacity = capacity → target.points = points →
      saved.positionOfKey? name unique = some position →
      (loaded.positionOfKey? name unique = some position ↔
        saved.rows.length < UInt32.size ∧
        ∀ row ∈ saved.rows.take position,
          row.kept.matchesKey name unique = row.matchesKey name unique) ∧
      (saved.rows.length < UInt32.size →
        (∀ row ∈ saved.rows.take position, row.KeyFits) →
        loaded.positionOfKey? name unique = some position) := by
  intro saved loaded sorted fits sameCapacity sameTable found
  have scored : saved.Scored := scored_run capacity points calls
  have table : saved.points = points :=
    (sameSettings_run (Board.empty capacity points) calls).points
  obtain ⟨index, chosen, rfl⟩ := Option.map_eq_some_iff.mp found
  have again : loaded.positionOfKey? name unique = some (index + 1) ↔
      saved.rows.length < UInt32.size ∧
      ∀ row ∈ saved.rows.take (index + 1),
        row.kept.matchesKey name unique = row.matchesKey name unique := by
    rcases Nat.lt_or_ge saved.rows.length UInt32.size with countable | overflow
    · have read : loaded.rows = target.reread saved.rows :=
        rows_loadBytes_encode_of_descending scored (sameTable.trans table.symm)
          countable sorted (by omega)
      rw [← findIdx?_eq_some_iff_agree chosen, positionOfKey?, read,
        findIdx?_reread]
      simp [countable]
    · have none : loaded.rows = [] :=
        rows_loadBytes_encode_of_overflow target overflow
      constructor
      · intro foundAgain
        simp [positionOfKey?, none] at foundAgain
      · intro both
        omega
  refine ⟨again, ?_⟩
  intro countable keysFit
  apply again.mpr
  refine ⟨countable, ?_⟩
  intro row member
  rw [(keysFit row member).kept_eq]

/-- A player is found again above one whose name is cut. -/
theorem short_name_found_after_reload :
    let calls : List Call :=
      [.findOrCreate "Sarge" none,
        .update { number := 0 } (StatBlock.zero.award 5),
        .findOrCreate "Staff Sergeant Reginald Barrington" none]
    let saved := (Board.empty 10 PointTable.blank).run calls
    let loaded := ((Board.empty 10 PointTable.blank).loadBytes saved.encode).2
    saved.positionOfKey? "sARGE" none = some 1 ∧
      loaded.positionOfKey? "sARGE" none = some 1 := by
  intro calls
  have scores : ((Board.empty 10 PointTable.blank).run calls).rows.map
      Row.score = [5, 0] := by decide
  have length : ((Board.empty 10 PointTable.blank).run calls).rows.length =
      2 := by decide
  have sorted : Descending
      ((Board.empty 10 PointTable.blank).run calls).rows := by
    rw [descending_iff_scores, scores]
    decide
  have found : ((Board.empty 10 PointTable.blank).run calls).positionOfKey?
      "sARGE" none = some 1 := by decide
  have keysFit : ∀ row ∈
      ((Board.empty 10 PointTable.blank).run calls).rows.take 1,
      row.KeyFits := by
    intro row member
    have only : ((Board.empty 10 PointTable.blank).run calls).rows.take 1 =
        [{ id := { number := 0 }
           name := "Sarge"
           unique := ""
           stats := StatBlock.zero.award 5
           score := 5 }] := by decide
    rw [only, List.mem_singleton] at member
    rw [member]
    constructor <;> decide
  have again := positionOfKey?_after_reload 10 PointTable.blank calls
    (Board.empty 10 PointTable.blank) "sARGE" none 1 sorted
    (by rw [length]; decide) rfl rfl found
  exact ⟨found, again.2 (by rw [length]; decide) keysFit⟩

/-- The name of the only player is two bytes too long for a field; the row is
not found by it after a reload. -/
theorem long_name_not_found_after_reload :
    let name := "Staff Sergeant Reginald Barrington"
    let calls : List Call := [.findOrCreate name none]
    let saved := (Board.empty 10 PointTable.blank).run calls
    let loaded := ((Board.empty 10 PointTable.blank).loadBytes saved.encode).2
    Descending saved.rows ∧ saved.rows.length = 1 ∧
      saved.positionOfKey? name none = some 1 ∧
      loaded.rows.length = 1 ∧ loaded.positionOfKey? name none = none := by
  intro name calls
  have rows : ((Board.empty 10 PointTable.blank).run calls).rows =
      [{ id := { number := 0 }
         name := name
         unique := ""
         stats := StatBlock.zero
         score := 0 }] := by decide
  have cut : (NameField.pack name).unpack =
      "Staff Sergeant Reginald Barringt" := by
    rw [NameField.unpack_pack]
    decide
  have read : ((Board.empty 10 PointTable.blank).loadBytes
      ((Board.empty 10 PointTable.blank).run calls).encode).2.rows =
        (Board.empty 10 PointTable.blank).reread
          ((Board.empty 10 PointTable.blank).run calls).rows := by
    apply rows_loadBytes_encode_of_descending
    · exact scored_run 10 PointTable.blank calls
    · exact (sameSettings_run (Board.empty 10 PointTable.blank)
        calls).points.symm
    · rw [rows]
      decide
    · rw [rows]
      exact List.pairwise_singleton _ _
    · rw [rows]
      decide
  refine ⟨?_, ?_, ?_, ?_, ?_⟩
  · rw [rows]
    exact List.pairwise_singleton _ _
  · rw [rows]
    rfl
  · rw [positionOfKey?, rows]
    decide
  · rw [read, rows]
    rfl
  · rw [positionOfKey?, read, findIdx?_reread, rows]
    simp only [List.findIdx?_singleton, Row.kept, Row.matchesKey, cut]
    decide

end Board

end Fragboard.Rank
