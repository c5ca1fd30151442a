import Fragboard.Proofs.KeyedLists
import Fragboard.Proofs.Storage.FilePlaces
import Fragboard.Toml.Document

/-!
# Distinct keys

A document that assigns to a key twice is refused.  So in a table that was read no
key stands twice, and the same is true of every table inside it: whatever a
statement does, it changes tables at the ends of paths (`Fields.changeAt`), and
each change asks first whether the key is there.
-/

namespace Fragboard.Toml

open Storage (exists_of_bind_ok)

/-- What every step of a fold keeps holds in the end, if no step fails. -/
theorem holds_of_foldlM {ε α β : Type} (holds : β → Prop)
    {step : β → α → Except ε β} {items : List α}
    (keeps : ∀ item ∈ items, ∀ before after, holds before →
      step before item = .ok after → holds after)
    {start last : β} (held : holds start)
    (done : items.foldlM step start = .ok last) : holds last := by
  induction items generalizing start with
  | nil =>
      obtain rfl := Except.ok.inj done
      exact held
  | cons item rest ih =>
      obtain ⟨here, later⟩ := List.forall_mem_cons.mp keeps
      rw [List.foldlM_cons] at done
      obtain ⟨next, stepped, onward⟩ := exists_of_bind_ok done
      exact ih later (here start next held stepped) onward

/-- No key stands twice, in the value and in whatever is inside it. -/
inductive Value.Keyed : Value → Prop
  | string (text : String) : Keyed (.string text)
  | integer (value : Int) : Keyed (.integer value)
  | float (value : Float) : Keyed (.float value)
  | boolean (value : Bool) : Keyed (.boolean value)
  | moment : Keyed .moment
  | array {items : List Value} (each : ∀ item ∈ items, Keyed item) :
      Keyed (.array items)
  | table (origin : Origin) {fields : Fields}
      (distinct : (fields.map Prod.fst).Nodup)
      (each : ∀ field ∈ fields, Keyed field.2) : Keyed (.table origin fields)
  | series {tables : List Fields}
      (each : ∀ fields ∈ tables, Keyed (.table .header fields)) :
      Keyed (.series tables)

structure Fields.Keyed (fields : Fields) : Prop where
  distinct : (fields.map Prod.fst).Nodup
  each : ∀ field ∈ fields, field.2.Keyed

theorem Value.keyed_table_iff {origin : Origin} {fields : Fields} :
    (Value.table origin fields).Keyed ↔ fields.Keyed := by
  constructor
  · rintro (_ | _ | _ | _ | _ | _ | ⟨_, distinct, each⟩ | _)
    exact ⟨distinct, each⟩
  · exact fun keyed => .table origin keyed.distinct keyed.each

theorem Value.keyed_series_iff {tables : List Fields} :
    (Value.series tables).Keyed ↔ ∀ fields ∈ tables, fields.Keyed := by
  constructor
  · rintro (_ | _ | _ | _ | _ | _ | _ | each) fields member
    exact keyed_table_iff.mp (each fields member)
  · exact fun each => .series fun fields member =>
      keyed_table_iff.mpr (each fields member)

namespace Fields

theorem keyed_nil : Keyed [] :=
  ⟨List.nodup_nil, fun _ member => absurd member List.not_mem_nil⟩

section Keyed

variable {fields : Fields} {key : String} {value : Value}

theorem Keyed.lookup (keyed : fields.Keyed)
    (found : fields.lookup key = some value) : value.Keyed :=
  keyed.each (key, value) (mem_of_lookup found)

theorem Keyed.append (keyed : fields.Keyed) (absent : fields.lookup key = none)
    (inner : value.Keyed) : Keyed (fields ++ [(key, value)]) := by
  refine ⟨?_, ?_⟩
  · have fresh := lookup_eq_none_iff_notMem.mp absent
    rw [List.map_append]
    exact (List.perm_append_singleton key _).nodup_iff.mpr
      (List.nodup_cons.mpr ⟨fresh, keyed.distinct⟩)
  · intro field member
    rcases List.mem_append.mp member with old | added
    · exact keyed.each field old
    · rw [List.mem_singleton.mp added]
      exact inner

theorem Keyed.replace (keyed : fields.Keyed) (inner : value.Keyed) :
    (fields.replace key value).Keyed := by
  have keys : (fields.replace key value).map Prod.fst =
      fields.map Prod.fst := by
    rw [Fields.replace, List.map_map]
    apply List.map_congr_left
    intro field _
    rw [Function.comp_apply]
    split
    · next same => exact same.symm
    · rfl
  refine ⟨keys ▸ keyed.distinct, ?_⟩
  intro field member
  obtain ⟨old, oldMember, rfl⟩ := List.mem_map.mp member
  split
  · exact inner
  · exact keyed.each old oldMember

/-- The change keeps the keys of a table apart. -/
def Change.KeepsKeyed (change : Change) : Prop :=
  ∀ origin fields changed, Keyed fields → change origin fields = .ok changed →
    changed.Keyed

/-- What keeps the keys apart at the end of a path keeps them apart on the
whole. -/
theorem Keyed.changeAt {made : Origin} {change : Change}
    (keeps : change.KeepsKeyed) {origin : Origin} {path : List String}
    {changed : Fields} (keyed : fields.Keyed)
    (succeeded : Fields.changeAt made change origin fields path = .ok changed) :
    changed.Keyed := by
  induction path generalizing origin fields changed with
  | nil => exact keeps origin fields changed keyed succeeded
  | cons key path ih =>
      rw [Fields.changeAt] at succeeded
      split at succeeded
      · next absent =>
        obtain ⟨inner, made, same⟩ := exists_of_bind_ok succeeded
        obtain rfl := Except.ok.inj same
        exact keyed.append absent (Value.keyed_table_iff.mpr (ih keyed_nil made))
      · next origin inner found =>
        split at succeeded
        · contradiction
        · obtain ⟨deeper, reached, same⟩ := exists_of_bind_ok succeeded
          obtain rfl := Except.ok.inj same
          have before := Value.keyed_table_iff.mp (keyed.lookup found)
          exact keyed.replace (Value.keyed_table_iff.mpr (ih before reached))
      · next tables found =>
        split at succeeded
        · contradiction
        · next latest last =>
          obtain ⟨deeper, reached, same⟩ := exists_of_bind_ok succeeded
          obtain rfl := Except.ok.inj same
          have before := Value.keyed_series_iff.mp (keyed.lookup found)
          have inner := ih (before latest (List.mem_of_getLast? last)) reached
          refine keyed.replace (Value.keyed_series_iff.mpr ?_)
          intro table member
          rcases List.mem_append.mp member with early | now
          · exact before table ((List.dropLast_sublist tables).subset early)
          · rw [List.mem_singleton.mp now]
            exact inner
      · contradiction

theorem Keyed.define (keyed : fields.Keyed) (inner : value.Keyed)
    {changed : Fields} (succeeded : fields.define key value = .ok changed) :
    changed.Keyed := by
  rw [Fields.define] at succeeded
  split at succeeded
  · contradiction
  · next absent =>
    obtain rfl := Except.ok.inj succeeded
    exact keyed.append (Option.not_isSome_iff_eq_none.mp absent) inner

theorem Keyed.assign {path : List String} (keyed : fields.Keyed)
    (inner : value.Keyed) {changed : Fields}
    (succeeded : fields.assign path key value = .ok changed) :
    changed.Keyed := by
  refine keyed.changeAt ?_ succeeded
  intro origin here after keyedHere defined
  dsimp only at defined
  split at defined
  · exact keyedHere.define inner defined
  · contradiction

theorem Keyed.open? {path : List String} (keyed : fields.Keyed)
    {changed : Fields} (succeeded : fields.open? path key = .ok changed) :
    changed.Keyed := by
  refine keyed.changeAt ?_ succeeded
  intro origin here after keyedHere opened
  dsimp only at opened
  split at opened
  · next absent =>
    obtain rfl := Except.ok.inj opened
    exact keyedHere.append absent (Value.keyed_table_iff.mpr keyed_nil)
  · next inner found =>
    obtain rfl := Except.ok.inj opened
    have before := Value.keyed_table_iff.mp (keyedHere.lookup found)
    exact keyedHere.replace (Value.keyed_table_iff.mpr before)
  · contradiction

theorem Keyed.extend {path : List String} (keyed : fields.Keyed)
    {changed : Fields} (succeeded : fields.extend path key = .ok changed) :
    changed.Keyed := by
  refine keyed.changeAt ?_ succeeded
  intro origin here after keyedHere extended
  dsimp only at extended
  split at extended
  · next absent =>
    obtain rfl := Except.ok.inj extended
    refine keyedHere.append absent (Value.keyed_series_iff.mpr ?_)
    intro table member
    rw [List.mem_singleton.mp member]
    exact keyed_nil
  · next tables found =>
    obtain rfl := Except.ok.inj extended
    have before := Value.keyed_series_iff.mp (keyedHere.lookup found)
    refine keyedHere.replace (Value.keyed_series_iff.mpr ?_)
    intro table member
    rcases List.mem_append.mp member with early | now
    · exact before table early
    · rw [List.mem_singleton.mp now]
      exact keyed_nil
  · contradiction

end Keyed

end Fields

namespace Scan

variable {α β : Type} {holds : β → Prop} {first : Scan α} {scan other : Scan β}

/-- All that the scanner reads has the property. -/
def Yields (scan : Scan β) (holds : β → Prop) : Prop :=
  ∀ text value rest, scan text = some (value, rest) → holds value

theorem yields_fail : (fail : Scan β).Yields holds := by
  intro text value rest found
  contradiction

theorem yields_pure {value : β} (held : holds value) :
    (pure value : Scan β).Yields holds := by
  intro text result rest found
  obtain ⟨rfl, _⟩ := Prod.mk.inj (Option.some.inj found)
  exact held

theorem Yields.bind {before : α → Prop} {next : α → Scan β}
    (earlier : first.Yields before)
    (later : ∀ value, before value → (next value).Yields holds) :
    (first >>= next).Yields holds := by
  intro text result rest found
  obtain ⟨⟨value, left⟩, read, onward⟩ := Option.bind_eq_some_iff.mp found
  exact later value (earlier text value left read) left result rest onward

/-- What is read first does not matter. -/
theorem Yields.after {next : α → Scan β}
    (later : ∀ value, (next value).Yields holds) :
    (first >>= next).Yields holds := by
  have anything : first.Yields fun _ => True := fun _ _ _ _ => trivial
  exact anything.bind fun value _ => later value

theorem Yields.orElse (left : scan.Yields holds)
    (right : other.Yields holds) : (scan <|> other).Yields holds := by
  intro text value rest found
  have choice : (scan <|> other) text = (scan text).or (other text) := by
    rw [Option.or_eq_orElse]
    rfl
  rw [choice] at found
  rcases Option.or_eq_some_iff.mp found with here | ⟨_, there⟩
  · exact left text value rest here
  · exact right text value rest there

end Scan

open Scan

namespace Scalar

theorem yields_bounded (value : Int) : (bounded value).Yields Value.Keyed := by
  unfold bounded
  split
  · exact yields_pure (.integer value)
  · exact yields_fail

theorem yields_based (mark : String) (base : Nat) :
    (based mark base).Yields Value.Keyed :=
  .after fun _ => .after fun _ => yields_bounded _

theorem yields_integer : integer.Yields Value.Keyed := by
  refine (yields_based _ _).orElse ((yields_based _ _).orElse
    ((yields_based _ _).orElse ?_))
  exact .after fun _ => .after fun _ => yields_bounded _

theorem yields_decimal : decimal.Yields Value.Keyed := by
  refine .after fun negative => .after fun _ => .after fun _ => ?_
  dsimp only
  split
  · exact yields_pure (.float _)
  · split
    · exact yields_fail
    · exact yields_pure (.float _)

theorem yields_value : value.Yields Value.Keyed := by
  have text : (Value.string <$> Quoted.text).Yields Value.Keyed :=
    .after fun _ => yields_pure (.string _)
  have truth : boolean.Yields Value.Keyed :=
    .orElse (.after fun _ => yields_pure (.boolean true))
      (.after fun _ => yields_pure (.boolean false))
  have time : moment.Yields Value.Keyed :=
    .orElse (.after fun _ => .after fun _ => yields_pure .moment)
      (.after fun _ => yields_pure .moment)
  have special : exceptional.Yields Value.Keyed :=
    .after fun _ => .after fun _ => yields_pure (.float _)
  exact text.orElse (truth.orElse (time.orElse
    (yields_decimal.orElse (special.orElse yields_integer))))

end Scalar

namespace Value

section Nested

variable {item : Scan Value} (inner : item.Yields Keyed)

include inner

theorem yields_items (bound : Nat) :
    (items item bound).Yields fun read => ∀ value ∈ read, value.Keyed := by
  induction bound with
  | zero => exact yields_fail
  | succ bound ih =>
      refine .after fun _ => .after fun closed => ?_
      split
      · exact yields_pure fun _ member => absurd member List.not_mem_nil
      · refine inner.bind fun first keyed => .after fun _ => .after fun more => ?_
        split
        · exact ih.bind fun others each =>
            yields_pure (List.forall_mem_cons.mpr ⟨keyed, each⟩)
        · refine .after fun _ => yields_pure ?_
          exact List.forall_mem_singleton.mpr keyed

theorem yields_pairs (bound : Nat) :
    (pairs item bound).Yields fun read => ∀ pair ∈ read, pair.2.Keyed := by
  induction bound with
  | zero => exact yields_fail
  | succ bound ih =>
      refine .after fun key => .after fun _ => .after fun _ =>
        inner.bind fun value keyed => .after fun _ => .after fun more => ?_
      split
      · exact ih.bind fun others each =>
          yields_pure (List.forall_mem_cons.mpr ⟨keyed, each⟩)
      · refine .after fun _ => yields_pure ?_
        exact List.forall_mem_singleton.mpr keyed

end Nested

theorem keyed_ofPairs {assignments : List (Key × Value)}
    (each : ∀ pair ∈ assignments, pair.2.Keyed) {value : Value}
    (made : ofPairs assignments = .ok value) : value.Keyed := by
  obtain ⟨fields, assigned, same⟩ := exists_of_bind_ok made
  obtain rfl := Except.ok.inj same
  refine keyed_table_iff.mpr (holds_of_foldlM Fields.Keyed ?_ Fields.keyed_nil
    assigned)
  exact fun pair member before after keyed done =>
    keyed.assign (each pair member) done

theorem yields_bracedTable {item : Scan Value} (inner : item.Yields Keyed) :
    (bracedTable item).Yields Keyed := by
  refine .after fun _ => .after fun closed => ?_
  split
  · exact yields_pure (keyed_table_iff.mpr Fields.keyed_nil)
  · have listed : Yields (fun text => pairs item text.length text)
        fun read => ∀ pair ∈ read, pair.2.Keyed :=
      fun text => yields_pairs inner text.length text
    refine listed.bind fun assignments each => ?_
    split
    · next made => exact yields_pure (keyed_ofPairs each made)
    · exact yields_fail

theorem yields_scan (depth : Nat) : (scan depth).Yields Keyed := by
  induction depth with
  | zero => exact Scalar.yields_value
  | succ depth ih =>
      intro text value rest found
      dsimp only [scan] at found
      split at found
      · next inside =>
        have nested : (Value.array <$> items (scan depth)
            (inside.length + 1)).Yields Keyed :=
          (yields_items ih _).bind fun _ each => yields_pure (.array each)
        exact nested inside value rest found
      · exact yields_bracedTable ih _ value rest found
      · exact Scalar.yields_value text value rest found

end Value

namespace Statement

/-- What the statement assigns, if anything, keeps its keys apart. -/
def Keyed : Statement → Prop
  | .assignment _ value => value.Keyed
  | _ => True

theorem yields_header? : header?.Yields Keyed := by
  refine .after fun _ => .after fun doubled => ?_
  split
  · exact .after fun _ => .after fun _ => yields_pure trivial
  · exact .after fun _ => .after fun _ => yields_pure trivial

theorem yields_assignment? : assignment?.Yields Keyed :=
  .after fun _ => .after fun _ => .after fun _ =>
    (Value.yields_scan deepestNesting).bind fun _ keyed => yields_pure keyed

theorem yields_line :
    line.Yields fun read => ∀ statement ∈ read, statement.Keyed := by
  have finish {read : Scan (Option Statement)}
      (reads : read.Yields fun statement => ∀ one ∈ statement, one.Keyed) :
      (read >>= fun statement => lineEnd >>= fun _ => pure statement).Yields
        fun statement => ∀ one ∈ statement, one.Keyed :=
    reads.bind fun _ each => .after fun _ => yields_pure each
  have wrapped {read : Scan Statement} (reads : read.Yields Keyed) :
      (some <$> read).Yields fun statement => ∀ one ∈ statement, one.Keyed :=
    reads.bind fun _ keyed => yields_pure (by simpa using keyed)
  have nothing : (pure none : Scan (Option Statement)).Yields fun statement =>
      ∀ one ∈ statement, one.Keyed := yields_pure (by simp)
  refine .after fun _ => .after fun next => ?_
  dsimp only
  split
  · exact finish nothing
  · exact finish nothing
  · exact finish nothing
  · exact finish nothing
  · exact finish (wrapped yields_header?)
  · exact finish (wrapped yields_assignment?)

theorem yields_lines (bound : Nat) :
    (lines bound).Yields fun read => ∀ statement ∈ read, statement.Keyed := by
  induction bound with
  | zero => exact yields_fail
  | succ bound ih =>
      refine .after fun next => ?_
      split
      · exact yields_pure fun _ member => absurd member List.not_mem_nil
      · refine yields_line.bind fun first here => ih.bind fun others later =>
          yields_pure ?_
        intro statement member
        rcases List.mem_append.mp member with now | rest
        · exact here statement (Option.mem_toList.mp now)
        · exact later statement rest

end Statement

namespace Document

theorem keyed_of_statements? {text : String} {statements : List Statement}
    (read : statements? text = some statements) :
    ∀ statement ∈ statements, statement.Keyed := by
  obtain ⟨⟨all, rest⟩, found, rfl⟩ := Option.map_eq_some_iff.mp read
  exact Statement.yields_lines _ _ all rest found

theorem Draft.keyed_carryOut {draft next : Draft} (keyed : draft.fields.Keyed)
    {statement : Statement} (inner : statement.Keyed)
    (done : draft.carryOut statement = .ok next) : next.fields.Keyed := by
  cases statement with
  | assignment key value =>
      obtain ⟨fields, changed, same⟩ := exists_of_bind_ok done
      obtain rfl := Except.ok.inj same
      exact keyed.changeAt (fun _ _ _ here assigned =>
        here.assign inner assigned) changed
  | header key =>
      obtain ⟨fields, opened, same⟩ := exists_of_bind_ok done
      obtain rfl := Except.ok.inj same
      exact keyed.open? opened
  | seriesHeader key =>
      obtain ⟨fields, extended, same⟩ := exists_of_bind_ok done
      obtain rfl := Except.ok.inj same
      exact keyed.extend extended

/-- In a document that was read no key stands twice, at any depth. -/
theorem keyed_of_parse {text : String} {value : Value}
    (parsed : parse text = .ok value) : value.Keyed := by
  rw [parse] at parsed
  split at parsed
  · contradiction
  · next statements read =>
    obtain ⟨fields, made, same⟩ := exists_of_bind_ok parsed
    obtain rfl := Except.ok.inj same
    obtain ⟨last, done, finished⟩ := exists_of_bind_ok made
    obtain rfl := Except.ok.inj finished
    have kept := holds_of_foldlM (fun draft : Draft => draft.fields.Keyed)
      (fun statement member _ _ keyed carried => Draft.keyed_carryOut keyed
        (keyed_of_statements? read statement member) carried)
      Fields.keyed_nil done
    exact Value.keyed_table_iff.mpr kept

end Document

end Fragboard.Toml
