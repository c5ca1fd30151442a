import Fragboard.Proofs.Rank.FreshIdentity
import Mathlib.Data.List.Nodup

/-!
# Rows told apart

Rows are told apart by their identities, and by their keys: a name up to case,
together with a disambiguator.  A life is entered under a key that is looked for
first, so it never brings a second row to a key, and as long as identities last
it brings no second row to an identity either.

A rename leaves identities alone.  Nothing looks whether the new key is in use,
so the keys stay apart exactly if no other row has it.
-/

namespace Fragboard.Rank

/-- What a row answers to. -/
def Row.key (row : Row) : List Char × String :=
  (foldCase row.name, row.unique)

theorem Row.key_gain (row : Row) (points : PointTable) (delta : StatBlock) :
    (row.gain points delta).key = row.key := by
  simp only [key, gain]

theorem Row.id_gain (row : Row) (points : PointTable) (delta : StatBlock) :
    (row.gain points delta).id = row.id := by
  simp only [gain]

theorem Row.matchesKey_iff {row : Row} {name : String}
    {unique : Option String} :
    row.matchesKey name unique = true ↔
      foldCase row.name = foldCase name ∧
        ∀ asked ∈ unique, row.unique = asked := by
  simp [Row.matchesKey, Option.all_eq_true]

/-- No two rows have the same key. -/
def OneRowPerKey (rows : List Row) : Prop :=
  (rows.map Row.key).Nodup

instance (rows : List Row) : Decidable (OneRowPerKey rows) :=
  inferInstanceAs (Decidable (rows.map Row.key).Nodup)

namespace Board

section Parts

variable {α : Type} {part : Row → α} {board : Board}

theorem nodup_update (id : RankId) (delta : StatBlock)
    (blind : ∀ row, part (row.gain board.points delta) = part row)
    (distinct : (board.rows.map part).Nodup) :
    ((board.update id delta).2.rows.map part).Nodup := by
  cases found : Cursor.seek? id board.rows with
  | none =>
      rw [update_of_unknown delta found]
      exact distinct
  | some cursor =>
      rw [update_of_found delta found]
      have before := cursor.rows_perm.map part
      have after := (board.settledCursor delta cursor).rows_perm.map part
      rw [Cursor.seek?_rows found, Cursor.seek?_others found,
        List.map_cons] at before
      rw [settledCursor_others delta found, settledCursor_row, others,
        List.map_cons, blind] at after
      have settled := (before.trans after.symm).nodup_iff.mp distinct
      apply List.Nodup.sublist _ settled
      exact (List.take_sublist _ _).map part

/-- A row that is not found is appended under the next identity. -/
theorem exists_fresh {name : String} {unique : Option String}
    (absent : board.find? name unique = none) :
    ∃ fresh : Row, fresh.id = { number := board.nextId } ∧
      fresh.key = (foldCase name, unique.getD "") ∧
      (board.findOrCreate name unique).2.rows =
        board.rows.take board.capacity ++ [fresh] := by
  refine ⟨_, ?_, ?_, by rw [findOrCreate, absent]; rfl⟩
  · rfl
  · rfl

theorem nodup_findOrCreate {name : String} {unique : Option String}
    (distinct : (board.rows.map part).Nodup)
    (unused : board.find? name unique = none →
      ∀ fresh : Row, fresh.id = { number := board.nextId } →
      fresh.key = (foldCase name, unique.getD "") →
      part fresh ∉ board.rows.map part) :
    ((board.findOrCreate name unique).2.rows.map part).Nodup := by
  cases present : board.find? name unique with
  | some id =>
      have same : (board.findOrCreate name unique).2 = board := by
        simp only [findOrCreate, present]
      rw [same]
      exact distinct
  | none =>
      obtain ⟨fresh, id, key, rows⟩ := exists_fresh present
      have kept : (board.rows.take board.capacity).Sublist board.rows :=
        List.take_sublist _ _
      rw [rows, List.map_append, List.map_singleton, List.nodup_append_comm]
      apply List.nodup_cons.mpr
      constructor
      · intro member
        exact unused present fresh id key ((kept.map part).subset member)
      · exact distinct.sublist (kept.map part)

end Parts

theorem oneRowPerKey_findOrCreate {board : Board}
    (distinct : OneRowPerKey board.rows) (name : String)
    (unique : Option String) :
    OneRowPerKey (board.findOrCreate name unique).2.rows := by
  apply nodup_findOrCreate distinct
  intro absent fresh _ key member
  rw [key] at member
  obtain ⟨row, present, same⟩ := List.mem_map.mp member
  obtain ⟨sameName, sameUnique⟩ := Prod.mk.inj same
  have answers : row.matchesKey name unique = true := by
    apply Row.matchesKey_iff.mpr
    refine ⟨sameName, ?_⟩
    intro asked given
    rw [Option.mem_def.mp given, Option.getD_some] at sameUnique
    exact sameUnique
  rw [find?, Option.map_eq_none_iff] at absent
  exact List.find?_eq_none.mp absent row present answers

theorem oneRowPerKey_update {board : Board}
    (distinct : OneRowPerKey board.rows) (id : RankId) (delta : StatBlock) :
    OneRowPerKey (board.update id delta).2.rows :=
  nodup_update id delta (fun row => row.key_gain _ _) distinct

theorem oneRowPerKey_enter {board : Board} (distinct : OneRowPerKey board.rows)
    (entry : LifeEntry) : OneRowPerKey (board.enter entry).rows :=
  oneRowPerKey_update (oneRowPerKey_findOrCreate distinct _ _) _ _

/-- Another row has the key to which a rename would bring its row. -/
def TakesKey (board : Board) (id : RankId) (name : String) : Prop :=
  ∃ row ∈ board.get? id, ∃ other ∈ board.others id,
    other.key = { row with name := name }.key

instance (board : Board) (id : RankId) (name : String) :
    Decidable (board.TakesKey id name) :=
  inferInstanceAs (Decidable (∃ row ∈ board.get? id,
    ∃ other ∈ board.others id, other.key = { row with name := name }.key))

theorem oneRowPerKey_rename_iff {board : Board}
    (distinct : OneRowPerKey board.rows) (id : RankId) (name : String) :
    OneRowPerKey ((board.rename? id name).getD board).rows ↔
      ¬board.TakesKey id name := by
  cases found : Cursor.seek? id board.rows with
  | none =>
      have unknown : board.get? id = none :=
        List.find?_eq_none.mpr (by
          simpa using Cursor.seek?_eq_none_iff.mp found)
      rw [rename_of_unknown found]
      simp [TakesKey, unknown, distinct]
  | some cursor =>
      have known : board.get? id = some cursor.row := Cursor.seek?_find found
      have before := (cursor.rows_perm.map Row.key).nodup_iff
      rw [Cursor.seek?_rows found, Cursor.seek?_others found] at before
      have others := (List.nodup_cons.mp (before.mp distinct)).2
      have after := ((cursor.mapRow ({ · with name := name })).rows_perm.map
        Row.key).nodup_iff
      rw [Cursor.mapRow_row, Cursor.mapRow_others, Cursor.seek?_others found,
        List.map_cons, List.nodup_cons] at after
      rw [rename_of_found found, OneRowPerKey, after]
      simp [TakesKey, known, Board.others, others]

/-- A change that looks for the key of its row first, or creates none. -/
def Change.keepsKeys : Change → Bool
  | .enter _ | .clear => true
  | .rename _ _ | .load _ _ => false

theorem oneRowPerKey_changes {board : Board} {list : List Change}
    (distinct : OneRowPerKey board.rows)
    (keep : ∀ change ∈ list, change.keepsKeys = true) :
    OneRowPerKey (board.changes list).rows := by
  induction list generalizing board with
  | nil => exact distinct
  | cons change rest ih =>
      obtain ⟨first, later⟩ := List.forall_mem_cons.mp keep
      apply ih _ later
      cases change with
      | enter entry => exact oneRowPerKey_enter distinct entry
      | clear => exact List.nodup_nil
      | rename id name => contradiction
      | load path content => contradiction

/-- The identities handed out so far are those below a number, and each of them
names one row at most. -/
structure Identified (board : Board) (count : Nat) : Prop
    extends board.Numbered count where
  distinct : (board.rows.map Row.id).Nodup

theorem identified_empty (capacity : Nat) (points : PointTable) :
    (Board.empty capacity points).Identified 0 :=
  ⟨numbered_empty capacity points, List.nodup_nil⟩

namespace Identified

variable {board : Board} {count : Nat}

theorem appendRecords (identified : board.Identified count)
    (records : List RankRecord) (left : count + records.length ≤ UInt32.size) :
    ((records.foldl appendRecord board).rows.map Row.id).Nodup := by
  induction records generalizing board count with
  | nil => exact identified.distinct
  | cons record records ih =>
      rw [List.length_cons] at left
      have unused := identified.fresh (by omega)
      have numbered := identified.append (by omega) record.name.unpack
        record.unique.unpack record.stats
      have rest : count + 1 + records.length ≤ UInt32.size := by omega
      apply ih ⟨numbered, ?_⟩ rest
      rw [Board.append, List.map_append, List.map_singleton,
        List.nodup_append_comm]
      apply List.nodup_cons.mpr
      constructor
      · intro member
        obtain ⟨row, present, same⟩ := List.mem_map.mp member
        exact unused row present same
      · exact identified.distinct

theorem ofRecords (identified : board.Identified count)
    (records : List RankRecord) (left : count + records.length ≤ UInt32.size) :
    ((board.ofRecords records).rows.map Row.id).Nodup := by
  let ordered := records.mergeSort fun first second =>
    first.position ≤ second.position
  have cleared : board.clear.Identified count :=
    ⟨identified.clear, List.nodup_nil⟩
  have appended := cleared.appendRecords ordered
    (by rw [List.length_mergeSort]; exact left)
  have sorted := (List.mergeSort_perm
    (ordered.foldl appendRecord board.clear).rows outranks).map Row.id
  apply List.Nodup.sublist ((List.take_sublist _ _).map Row.id)
  exact sorted.nodup_iff.mpr appended

theorem findOrCreate (identified : board.Identified count) (name : String)
    (unique : Option String)
    (left : count + (if (board.find? name unique).isSome then 0 else 1) ≤
      UInt32.size) :
    (board.findOrCreate name unique).2.Identified
      (count + if (board.find? name unique).isSome then 0 else 1) := by
  refine ⟨identified.toNumbered.findOrCreate name unique left, ?_⟩
  apply nodup_findOrCreate identified.distinct
  intro absent fresh id _ member
  rw [absent, Option.isSome_none, if_neg Bool.false_ne_true] at left
  obtain ⟨row, present, same⟩ := List.mem_map.mp member
  exact identified.fresh (by omega) row present (same.trans id)

theorem update (identified : board.Identified count) (id : RankId)
    (delta : StatBlock) : (board.update id delta).2.Identified count :=
  ⟨identified.toNumbered.update id delta,
    nodup_update id delta (fun row => row.id_gain _ _) identified.distinct⟩

theorem rename (identified : board.Identified count) (id : RankId)
    (name : String) :
    ((board.rename? id name).getD board).Identified count := by
  refine ⟨identified.toNumbered.rename id name, ?_⟩
  rw [map_rename Row.id (fun _ _ => rfl)]
  exact identified.distinct

theorem clear (identified : board.Identified count) :
    board.clear.Identified count :=
  ⟨identified.toNumbered.clear, List.nodup_nil⟩

theorem change (identified : board.Identified count) (change : Change)
    (left : count + board.createdBy change ≤ UInt32.size) :
    (board.change change).Identified (count + board.createdBy change) := by
  cases change with
  | enter entry =>
      exact (identified.findOrCreate entry.name entry.unique left).update _ _
  | rename id name => exact identified.rename id name
  | clear => exact identified.clear
  | load path content =>
      cases content with
      | error fault => exact identified.clear
      | ok bytes =>
          simp only [Board.change, loadContent, loadBytes, createdBy] at left ⊢
          cases decoded : Image.decode bytes with
          | error failure => exact identified.clear
          | ok records =>
              rw [decoded] at left
              exact ⟨identified.toNumbered.ofRecords records left,
                identified.ofRecords records left⟩

theorem changes (identified : board.Identified count) (list : List Change)
    (left : count + board.created list ≤ UInt32.size) :
    (board.changes list).Identified (count + board.created list) := by
  induction list generalizing board count with
  | nil => exact identified
  | cons change rest ih =>
      rw [created, ← Nat.add_assoc] at left ⊢
      have first := identified.change change (by omega)
      exact ih first left

end Identified

/-- The position of an identity is that of the first row that has it. -/
theorem positionOf?_of_first {board : Board} {above below : List Row}
    {row : Row} (rows : board.rows = above ++ row :: below)
    (first : ∀ other ∈ above, other.id ≠ row.id) :
    board.positionOf? row.id = some (above.length + 1) := by
  have absent : above.findIdx? (·.id == row.id) = none := by
    apply List.findIdx?_eq_none_iff.mpr
    intro other member
    simpa using first other member
  simp [positionOf?, rows, List.findIdx?_append, absent, List.findIdx?_cons]

theorem positionOf?_eq_none_iff {board : Board} {id : RankId} :
    board.positionOf? id = none ↔ ∀ row ∈ board.rows, row.id ≠ id := by
  simp [positionOf?, List.findIdx?_eq_none_iff]

section Distinct

variable {board : Board} (distinct : (board.rows.map Row.id).Nodup)

include distinct

theorem id_ne_of_distinct {above below : List Row} {row : Row}
    (rows : board.rows = above ++ row :: below) :
    ∀ other ∈ above ++ below, other.id ≠ row.id := by
  rw [rows, List.map_append, List.map_cons, List.nodup_middle,
    ← List.map_append] at distinct
  intro other member same
  apply (List.nodup_cons.mp distinct).1
  rw [← same]
  exact List.mem_map_of_mem member

theorem get?_of_distinct {above below : List Row} {row : Row}
    (rows : board.rows = above ++ row :: below) :
    board.get? row.id = some row := by
  have apart := board.id_ne_of_distinct distinct rows
  apply List.find?_eq_some_iff_append.mpr
  refine ⟨beq_self_eq_true _, above, below, rows, ?_⟩
  intro other member
  simpa using apart other (List.mem_append_left below member)

theorem positionOf?_of_distinct {above below : List Row} {row : Row}
    (rows : board.rows = above ++ row :: below) :
    board.positionOf? row.id = some (above.length + 1) :=
  positionOf?_of_first rows fun other member =>
    board.id_ne_of_distinct distinct rows other
      (List.mem_append_left below member)

/-- A rename reaches the row with the identity and no other. -/
theorem rows_rename_of_distinct (id : RankId) (name : String) :
    ((board.rename? id name).getD board).rows =
      board.rows.map fun row =>
        if row.id = id then { row with name := name } else row := by
  have kept {rows : List Row} (apart : ∀ row ∈ rows, row.id ≠ id) :
      (rows.map fun row =>
        if row.id = id then { row with name := name } else row) = rows := by
    calc
      _ = rows.map fun row => row :=
        List.map_congr_left fun row member => if_neg (apart row member)
      _ = rows := List.map_id' rows
  cases found : Cursor.seek? id board.rows with
  | none =>
      rw [rename_of_unknown found]
      exact (kept (Cursor.seek?_eq_none_iff.mp found)).symm
  | some cursor =>
      have rows : board.rows = cursor.above.reverse ++ cursor.row ::
          cursor.below := (Cursor.seek?_rows found).symm
      have here : cursor.row.id = id := Cursor.seek?_row found
      have apart := board.id_ne_of_distinct distinct rows
      rw [here] at apart
      obtain ⟨above, below⟩ := List.forall_mem_append.mp apart
      rw [rename_of_found found, rows, List.map_append, List.map_cons,
        kept above, kept below, if_pos here]
      rfl

end Distinct

end Board

end Fragboard.Rank
