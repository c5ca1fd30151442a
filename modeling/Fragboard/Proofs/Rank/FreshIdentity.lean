import Fragboard.Proofs.Rank.BoardChanges

/-!
# Fresh identities and the order of the board

A life that creates a row is merged into the first row with the identity of the
new one.  That is the new row itself as long as no identity has been handed out
twice, and then the change ends with an ordered board although the new row was
appended below rows of negative score.
-/

namespace Fragboard.Rank

open Storage (Bytes FilePath)

namespace Board

/-- How many rows a change puts on the board under identities of their own, rows
that do not stay included. -/
def createdBy (board : Board) : Change → Nat
  | .enter entry =>
    if (board.find? entry.name entry.unique).isSome then 0 else 1
  | .load _ (.ok bytes) =>
    match Image.decode bytes with
    | .ok records => records.length
    | .error _ => 0
  | _ => 0

/-- How many rows a sequence of changes creates. -/
def created (board : Board) : List Change → Nat
  | [] => 0
  | change :: rest =>
    board.createdBy change + (board.change change).created rest

/-- The identities handed out so far are those below a number. -/
structure Numbered (board : Board) (count : Nat) : Prop where
  next : board.nextId = UInt32.ofNat count
  below : ∀ row ∈ board.rows, row.id.number.toNat < count

theorem numbered_empty (capacity : Nat) (points : PointTable) :
    (Board.empty capacity points).Numbered 0 :=
  ⟨rfl, fun _ member => absurd member List.not_mem_nil⟩

namespace Numbered

variable {board : Board} {count : Nat}

theorem toNat_next (numbered : board.Numbered count)
    (left : count < UInt32.size) : board.nextId.toNat = count := by
  rw [numbered.next, UInt32.toNat_ofNat_of_lt' left]

/-- The next identity is not in use. -/
theorem fresh (numbered : board.Numbered count) (left : count < UInt32.size) :
    ∀ row ∈ board.rows, row.id ≠ { number := board.nextId } := by
  intro row member same
  have below := numbered.below row member
  rw [same, numbered.toNat_next left] at below
  omega

theorem ofRows (numbered : board.Numbered count) {rows : List Row}
    (old : ∀ row ∈ rows, ∃ before ∈ board.rows, row.id = before.id) :
    ({ board with rows := rows } : Board).Numbered count := by
  refine ⟨numbered.next, ?_⟩
  intro row member
  obtain ⟨before, beforeMember, same⟩ := old row member
  rw [same]
  exact numbered.below before beforeMember

theorem append (numbered : board.Numbered count) (left : count < UInt32.size)
    (name unique : String) (stats : StatBlock) :
    (board.append name unique stats).Numbered (count + 1) := by
  constructor
  · simp [Board.append, numbered.next]
  · intro row member
    rcases List.mem_append.mp member with old | fresh
    · have below := numbered.below row old
      omega
    · rw [List.mem_singleton.mp fresh]
      simp [numbered.toNat_next left]

theorem appendRecords (numbered : board.Numbered count)
    (records : List RankRecord) (left : count + records.length ≤ UInt32.size) :
    (records.foldl appendRecord board).Numbered (count + records.length) := by
  induction records generalizing board count with
  | nil => exact numbered
  | cons record records ih =>
      simp only [List.length_cons] at left ⊢
      have first := numbered.append (by omega) record.name.unpack
        record.unique.unpack record.stats
      have rest := ih first (by omega)
      have sum : count + 1 + records.length = count + (records.length + 1) := by
        omega
      rw [sum] at rest
      exact rest

theorem evict (numbered : board.Numbered count) :
    board.evict.Numbered count :=
  numbered.ofRows fun row member =>
    ⟨row, List.mem_of_mem_take member, rfl⟩

theorem findOrCreate (numbered : board.Numbered count) (name : String)
    (unique : Option String)
    (left : count + (if (board.find? name unique).isSome then 0 else 1) ≤
      UInt32.size) :
    (board.findOrCreate name unique).2.Numbered
      (count + if (board.find? name unique).isSome then 0 else 1) := by
  unfold Board.findOrCreate
  cases found : board.find? name unique with
  | some id => exact numbered
  | none =>
      simp only [found, Option.isSome_none, Bool.false_eq_true, if_false]
        at left
      exact numbered.evict.append (by omega) name (unique.getD "") _

theorem update (numbered : board.Numbered count) (id : RankId)
    (delta : StatBlock) : (board.update id delta).2.Numbered count := by
  constructor
  · cases found : Cursor.seek? id board.rows with
    | none =>
        rw [update_of_unknown delta found]
        exact numbered.next
    | some cursor =>
        rw [update_of_found delta found]
        exact numbered.next
  · intro row member
    rcases mem_update member with same | ⟨old, oldMember, updated⟩
    · exact numbered.below row same
    · rw [updated, Row.gain]
      exact numbered.below old oldMember

theorem rename (numbered : board.Numbered count) (id : RankId)
    (name : String) :
    ((board.rename? id name).getD board).Numbered count := by
  constructor
  · cases found : Cursor.seek? id board.rows with
    | none =>
        rw [rename_of_unknown found]
        exact numbered.next
    | some cursor =>
        rw [rename_of_found found]
        exact numbered.next
  · intro row member
    obtain ⟨old, oldMember, kept, rfl⟩ := exists_of_mem_rename member
    exact numbered.below old oldMember

theorem clear (numbered : board.Numbered count) : board.clear.Numbered count :=
  ⟨numbered.next, fun _ member => absurd member List.not_mem_nil⟩

theorem ofRecords (numbered : board.Numbered count)
    (records : List RankRecord) (left : count + records.length ≤ UInt32.size) :
    (board.ofRecords records).Numbered (count + records.length) := by
  have appended := numbered.clear.appendRecords
    (records.mergeSort fun first second => first.position ≤ second.position)
    (by simpa using left)
  rw [List.length_mergeSort] at appended
  refine ⟨appended.next, ?_⟩
  intro row member
  exact appended.below row
    (List.mem_mergeSort.mp (List.mem_of_mem_take member))

theorem change (numbered : board.Numbered count) (change : Change)
    (left : count + board.createdBy change ≤ UInt32.size) :
    (board.change change).Numbered (count + board.createdBy change) := by
  cases change with
  | enter entry =>
      exact (numbered.findOrCreate entry.name entry.unique left).update _ _
  | rename id name => exact numbered.rename id name
  | clear => exact numbered.clear
  | load path content =>
      cases content with
      | error fault => exact numbered.clear
      | ok bytes =>
          simp only [Board.change, loadContent, loadBytes, createdBy]
            at left ⊢
          cases decoded : Image.decode bytes with
          | error failure => exact numbered.clear
          | ok records =>
              simp only [decoded] at left
              exact numbered.ofRecords records left

end Numbered

/-- Entering a life into an ordered board leaves it ordered: only the row of the
life can be out of place. -/
theorem descending_enter {board : Board} {count : Nat}
    (numbered : board.Numbered count)
    (fits : board.rows.length ≤ board.capacity)
    (sorted : Descending board.rows) (entry : LifeEntry)
    (left : count + board.createdBy (.enter entry) ≤ UInt32.size) :
    Descending (board.enter entry).rows := by
  apply (descending_update_iff _ _ _).mpr
  suffices others : Descending
      ((board.findOrCreate entry.name entry.unique).2.others
        (board.findOrCreate entry.name entry.unique).1) from
    others.take _
  unfold Board.findOrCreate
  cases found : board.find? entry.name entry.unique with
  | some id => exact sorted.sublist List.eraseP_sublist
  | none =>
      simp only [createdBy, found, Option.isSome_none, Bool.false_eq_true,
        if_false] at left
      have unused := numbered.fresh (by omega)
      have whole : board.rows.take board.capacity = board.rows :=
        List.take_of_length_le fits
      simp only [others, Board.append, Board.evict, whole]
      rw [List.eraseP_append_right _ (by simpa using unused)]
      simpa using sorted

theorem descending_change {board : Board} {count : Nat}
    (numbered : board.Numbered count)
    (fits : board.rows.length ≤ board.capacity)
    (sorted : Descending board.rows) (change : Change)
    (left : count + board.createdBy change ≤ UInt32.size) :
    Descending (board.change change).rows := by
  cases change with
  | enter entry => exact descending_enter numbered fits sorted entry left
  | rename id name =>
      have same := board.map_rename Row.score (fun _ _ => rfl) id name
      rw [descending_iff_scores] at sorted ⊢
      rw [Board.change, same]
      exact sorted
  | clear => exact List.Pairwise.nil
  | load path content =>
      cases content with
      | error fault => exact List.Pairwise.nil
      | ok bytes => exact descending_loadBytes board bytes

/-- What holds of a board between its changes, when so many rows have been
created.  The order depends on the number: a fresh identity is told apart from
those in use until all have been handed out. -/
structure Ranked (board : Board) (count : Nat) : Prop where
  scored : board.Scored
  fits : board.rows.length ≤ board.capacity
  ordered : count ≤ UInt32.size → board.Numbered count ∧ Descending board.rows

theorem ranked_empty (capacity : Nat) (points : PointTable) :
    (Board.empty capacity points).Ranked 0 where
  scored := fun _ member => absurd member List.not_mem_nil
  fits := Nat.zero_le _
  ordered := fun _ => ⟨numbered_empty capacity points, List.Pairwise.nil⟩

theorem Ranked.change {board : Board} {count : Nat}
    (ranked : board.Ranked count) (change : Change) :
    (board.change change).Ranked (count + board.createdBy change) := by
  refine ⟨ranked.scored.change change, length_change_le ranked.fits change, ?_⟩
  intro left
  obtain ⟨numbered, sorted⟩ := ranked.ordered (by omega)
  exact ⟨numbered.change change left,
    descending_change numbered ranked.fits sorted change left⟩

theorem Ranked.changes {board : Board} {count : Nat}
    (ranked : board.Ranked count) (list : List Change) :
    (board.changes list).Ranked (count + board.created list) := by
  induction list generalizing board count with
  | nil => exact ranked
  | cons change rest ih =>
      have later := ih (ranked.change change)
      rw [Nat.add_assoc] at later
      exact later

end Board

end Fragboard.Rank
