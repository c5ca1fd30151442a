import Fragboard.Points.Document
import Fragboard.Proofs.Toml.DistinctKeys

/-!
# Weights of single weapons

A point table file gives default weights and, under the names of weapons, weights
that replace them.  Names belong to weapons one to one and stand in a file at most
once, so what a weapon's own entry says, and where it is silent the defaults, are
all that its weights depend on.  An entry under another name does not touch them,
and neither does the order of the entries.
-/

namespace Fragboard

open Storage (exists_of_bind_ok)

namespace Weapon

theorem nodup_names : (all.map name).Nodup := by
  decide +kernel

theorem named?_eq_some_iff {name : String} {weapon : Weapon} :
    named? name = some weapon ↔ weapon.name = name := by
  rw [named?, find?_key_eq_some_iff nodup_names]
  exact and_iff_right weapon.mem_all

theorem named?_eq_none_iff {name : String} :
    named? name = none ↔ ∀ weapon : Weapon, weapon.name ≠ name := by
  simp only [Option.eq_none_iff_forall_ne_some, ne_eq, named?_eq_some_iff]

end Weapon

namespace PointTable

theorem weapon_setWeapon (table : PointTable) (changed other : Weapon)
    (points : WeaponPoints) :
    (table.setWeapon changed points).weapon other =
      if changed = other then points else table.weapon other := by
  have index : changed.index = other.index ↔ changed = other :=
    ⟨fun same => congrArg Weapon.mk same, congrArg Weapon.index⟩
  simp only [setWeapon, weapon, Cells.get_set, index]

theorem ext_weapons {left right : PointTable}
    (death : left.death = right.death)
    (headshot : left.headshot = right.headshot)
    (weapons : ∀ weapon, left.weapon weapon = right.weapon weapon) :
    left = right := by
  have same : left.weapons = right.weapons :=
    Cells.ext_get fun index => weapons { index := index }
  cases left
  cases right
  exact (PointTable.mk.injEq ..).mpr ⟨death, headshot, same⟩

end PointTable

namespace PointDocument

/-- No name stands twice among the overrides. -/
def Distinct (document : PointDocument) : Prop :=
  (document.overrides.map Prod.fst).Nodup

instance : DecidablePred Distinct := fun document =>
  inferInstanceAs (Decidable (document.overrides.map Prod.fst).Nodup)

/-- What the document changes for a name. -/
def override (document : PointDocument) (name : String) : PointOverride :=
  (document.overrides.lookup name).getD {}

/-- The documents differ in nothing but the entry of one name, which either may
lack. -/
structure AgreeBut (name : String) (left right : PointDocument) : Prop where
  death : left.death = right.death
  headshot : left.headshot = right.headshot
  defaults : left.defaults = right.defaults
  others : ∀ other ≠ name,
    left.overrides.lookup other = right.overrides.lookup other

section Entries

variable (document : PointDocument) (table : PointTable)

theorem weapon_applyOverride (entry : String × PointOverride)
    (weapon : Weapon) :
    (document.applyOverride table entry).weapon weapon =
      if weapon.name = entry.1 then entry.2.applyTo document.defaults
      else table.weapon weapon := by
  rw [applyOverride]
  cases found : Weapon.named? entry.1 with
  | none =>
      rw [if_neg (Weapon.named?_eq_none_iff.mp found weapon)]
  | some changed =>
      dsimp only
      have named (other : Weapon) :
          changed = other ↔ other.name = entry.1 := by
        rw [← Weapon.named?_eq_some_iff, found, Option.some.injEq]
      simp only [PointTable.weapon_setWeapon, named]

theorem bonuses_applyOverride (entry : String × PointOverride) :
    (document.applyOverride table entry).death = table.death ∧
    (document.applyOverride table entry).headshot = table.headshot := by
  rw [applyOverride]
  split
  · exact ⟨rfl, rfl⟩
  · exact ⟨rfl, rfl⟩

variable {document} {entries : List (String × PointOverride)}

theorem weapon_foldl (distinct : (entries.map Prod.fst).Nodup)
    (weapon : Weapon) :
    (entries.foldl document.applyOverride table).weapon weapon =
      ((entries.lookup weapon.name).map (·.applyTo document.defaults)).getD
        (table.weapon weapon) := by
  induction entries generalizing table with
  | nil => rfl
  | cons entry rest ih =>
      rw [List.map_cons, List.nodup_cons] at distinct
      obtain ⟨single, others⟩ := distinct
      rw [List.foldl_cons, ih _ others, weapon_applyOverride]
      by_cases here : weapon.name = entry.1
      · have absent : rest.lookup weapon.name = none :=
          lookup_eq_none_iff_notMem.mpr (here ▸ single)
        rw [absent, if_pos here, here, List.lookup_cons_self]
        rfl
      · rw [if_neg here, List.lookup_cons, beq_eq_false_iff_ne.mpr here]

theorem bonuses_foldl :
    (entries.foldl document.applyOverride table).death = table.death ∧
    (entries.foldl document.applyOverride table).headshot =
      table.headshot := by
  induction entries generalizing table with
  | nil => exact ⟨rfl, rfl⟩
  | cons entry rest ih =>
      obtain ⟨death, headshot⟩ := ih (document.applyOverride table entry)
      obtain ⟨death', headshot'⟩ := bonuses_applyOverride document table entry
      exact ⟨death.trans death', headshot.trans headshot'⟩

end Entries

section Tables

variable {document : PointDocument}

theorem bonuses_table (document : PointDocument) :
    document.table.death = document.death ∧
    document.table.headshot = document.headshot :=
  bonuses_foldl _

/-- A weapon gets the default weights, changed by its own entry. -/
theorem weapon_table (distinct : document.Distinct) (weapon : Weapon) :
    document.table.weapon weapon =
      (document.override weapon.name).applyTo document.defaults := by
  have start : ((PointTable.uniform document.defaults).withBonuses
      document.death document.headshot).weapon weapon = document.defaults :=
    Cells.get_fill _ _
  rw [table, weapon_foldl _ distinct, start, override]
  cases document.overrides.lookup weapon.name with
  | none => rfl
  | some change => rfl

/-- Documents whose entries are told apart have equal tables if they look alike to
every weapon. -/
theorem table_eq_of_override {other : PointDocument}
    (distinct : document.Distinct) (distinct' : other.Distinct)
    (death : other.death = document.death)
    (headshot : other.headshot = document.headshot)
    (defaults : other.defaults = document.defaults)
    (alike : ∀ weapon : Weapon,
      other.override weapon.name = document.override weapon.name) :
    other.table = document.table := by
  obtain ⟨deathHere, headshotHere⟩ := document.bonuses_table
  obtain ⟨deathThere, headshotThere⟩ := other.bonuses_table
  apply PointTable.ext_weapons
  · rw [deathThere, deathHere, death]
  · rw [headshotThere, headshotHere, headshot]
  · intro weapon
    rw [weapon_table distinct', weapon_table distinct, alike, defaults]

end Tables

theorem keyed_of_record {names : List String} {value : Toml.Value}
    (keyed : value.Keyed) {record : Toml.Record}
    (read : Toml.Reader.record names value = .ok record) {name : String}
    {inner : Toml.Value} (found : record name = some inner) :
    inner.Keyed := by
  cases keyed with
  | table origin distinct each =>
      obtain rfl := Except.ok.inj read
      exact each _ (mem_of_lookup found)
  | array each =>
      obtain rfl := Except.ok.inj read
      exact each _ (List.of_mem_zip (mem_of_lookup found)).2
  | series each =>
      obtain rfl := Except.ok.inj read
      obtain ⟨fields, member, rfl⟩ :=
        List.mem_map.mp (List.of_mem_zip (mem_of_lookup found)).2
      exact each fields member
  | moment =>
      obtain rfl := Except.ok.inj read
      contradiction
  | _ => contradiction

theorem keys_of_mapM {α : Type} {read : Toml.Reader α} {fields : Toml.Fields}
    {entries : List (String × α)}
    (taken : fields.mapM (fun field => do
      let value ← read field.2
      .ok (field.1, value)) = .ok entries) :
    entries.map Prod.fst = fields.map Prod.fst := by
  induction fields generalizing entries with
  | nil =>
      obtain rfl := Except.ok.inj taken
      rfl
  | cons field rest ih =>
      rw [List.mapM_cons] at taken
      obtain ⟨entry, first, onward⟩ := exists_of_bind_ok taken
      obtain ⟨others, later, same⟩ := exists_of_bind_ok onward
      obtain ⟨value, _, same'⟩ := exists_of_bind_ok first
      obtain rfl := Except.ok.inj same
      obtain rfl := Except.ok.inj same'
      rw [List.map_cons, List.map_cons, ih later]

/-- A table with free keys is read with the keys that it has. -/
theorem nodup_of_table {α : Type} {read : Toml.Reader α} {value : Toml.Value}
    (keyed : value.Keyed) {entries : List (String × α)}
    (taken : Toml.Reader.table read value = .ok entries) :
    (entries.map Prod.fst).Nodup := by
  cases keyed with
  | table origin distinct each => exact keys_of_mapM taken ▸ distinct
  | _ => contradiction

theorem distinct_of_read {value : Toml.Value} (keyed : value.Keyed)
    {document : PointDocument} (taken : read value = .ok document) :
    document.Distinct := by
  obtain ⟨record, opened, taken⟩ := exists_of_bind_ok taken
  obtain ⟨death, _, taken⟩ := exists_of_bind_ok taken
  obtain ⟨headshot, _, taken⟩ := exists_of_bind_ok taken
  obtain ⟨defaults, _, taken⟩ := exists_of_bind_ok taken
  obtain ⟨overrides, listed, taken⟩ := exists_of_bind_ok taken
  obtain rfl := Except.ok.inj taken
  rw [Toml.Record.field] at listed
  split at listed
  · obtain rfl := Except.ok.inj listed
    exact List.nodup_nil
  · next inner found =>
    exact nodup_of_table (keyed_of_record keyed opened found) listed

/-- The document that a text is read as. -/
def ofText (text : String) : Except Toml.Fault PointDocument :=
  Toml.Document.parse text >>= read

theorem distinct_of_text {text : String} {document : PointDocument}
    (taken : ofText text = .ok document) : document.Distinct := by
  obtain ⟨value, parsed, taken⟩ := exists_of_bind_ok taken
  exact distinct_of_read (Toml.Document.keyed_of_parse parsed) taken

/-- Every document that is read off a text has each name at most once.  With such a
document each weight of a weapon is the one that its own entry names, and else the
default; deaths and headshots weigh what the document says.  A change of the
entry of one name, also its coming or going, touches no weapon of another name and
neither deaths nor headshots, and nothing at all if no weapon has the name.  The
order of the entries does not matter. -/
theorem overrides_merge_independently :
    (∀ text document, ofText text = .ok document →
      document.Distinct ∧ PointTable.parse text = .ok document.table) ∧
    ∀ document : PointDocument, document.Distinct →
      (∀ weapon,
        let own := document.overrides.lookup weapon.name
        let weights := document.table.weapon weapon
        weights.kill = (own.bind (·.kill)).getD document.defaults.kill ∧
        weights.hit = (own.bind (·.hit)).getD document.defaults.hit ∧
        weights.teamkill =
          (own.bind (·.teamkill)).getD document.defaults.teamkill) ∧
      document.table.death = document.death ∧
      document.table.headshot = document.headshot ∧
      (∀ name (other : PointDocument), other.Distinct →
        AgreeBut name other document →
        (∀ weapon : Weapon, weapon.name ≠ name →
          other.table.weapon weapon = document.table.weapon weapon) ∧
        other.table.death = document.table.death ∧
        other.table.headshot = document.table.headshot ∧
        (Weapon.named? name = none → other.table = document.table)) ∧
      ∀ overrides, overrides.Perm document.overrides →
        { document with overrides := overrides }.table = document.table := by
  refine ⟨?_, ?_⟩
  · intro text document taken
    refine ⟨distinct_of_text taken, ?_⟩
    rw [ofText] at taken
    rw [PointTable.parse, taken]
  · intro document distinct
    obtain ⟨death, headshot⟩ := document.bonuses_table
    refine ⟨?_, death, headshot, ?_, ?_⟩
    · intro weapon own weights
      have merged : weights = (own.getD {}).applyTo document.defaults :=
        weapon_table distinct weapon
      rw [merged]
      cases own with
      | none => exact ⟨rfl, rfl, rfl⟩
      | some change => exact ⟨rfl, rfl, rfl⟩
    · intro name other distinct' agree
      obtain ⟨death', headshot'⟩ := other.bonuses_table
      have alike (weapon : Weapon) (apart : weapon.name ≠ name) :
          other.override weapon.name = document.override weapon.name := by
        rw [override, override, agree.others weapon.name apart]
      refine ⟨?_, ?_, ?_, ?_⟩
      · intro weapon apart
        rw [weapon_table distinct', weapon_table distinct, alike weapon apart,
          agree.defaults]
      · rw [death', death, agree.death]
      · rw [headshot', headshot, agree.headshot]
      · intro unknown
        exact table_eq_of_override distinct distinct' agree.death
          agree.headshot agree.defaults fun weapon =>
            alike weapon (Weapon.named?_eq_none_iff.mp unknown weapon)
    · intro overrides permuted
      refine table_eq_of_override distinct ?_ rfl rfl rfl fun weapon => ?_
      · exact (permuted.map Prod.fst).nodup_iff.mpr distinct
      · rw [override, override, lookup_perm distinct permuted weapon.name]

/-- The file names one weight of one weapon, and a weapon that there is not.  That
entry may as well be dropped, and the entries may change places. -/
theorem overrides_of_text :
    let text := "death = -1\n[default]\nkill = 3\nteamkill = -3\n" ++
      "[weapons.mg42]\nkill = 1\n[weapons.railgun]\nkill = 50\n"
    let document : PointDocument :=
      { death := -1
        defaults := { kill := 3, teamkill := -3 }
        overrides := [("mg42", { kill := some 1 }),
          ("railgun", { kill := some 50 })] }
    let other : PointDocument :=
      { document with overrides := [("mg42", { kill := some 1 })] }
    let mg42 : Weapon := ⟨17⟩
    ofText text = .ok document ∧ document.Distinct ∧
    PointTable.parse text = .ok document.table ∧
    document.table.weapon mg42 = { kill := 1, hit := 0, teamkill := -3 } ∧
    AgreeBut "railgun" other document ∧ other.table = document.table ∧
    { document with overrides := document.overrides.reverse }.table =
      document.table := by
  intro text document other mg42
  obtain ⟨read, merged⟩ := overrides_merge_independently
  have taken : ofText text = .ok document := by decide +kernel
  obtain ⟨distinct, parsed⟩ := read text document taken
  obtain ⟨weights, _, _, changed, reordered⟩ := merged document distinct
  have agree : AgreeBut "railgun" other document := by
    refine ⟨rfl, rfl, rfl, fun name apart => ?_⟩
    simp [other, document, List.lookup_cons, beq_eq_false_iff_ne.mpr apart]
  obtain ⟨_, _, _, unknown⟩ := changed "railgun" other (by decide) agree
  obtain ⟨kill, hit, teamkill⟩ := weights mg42
  have mg42Weights : document.table.weapon mg42 =
      { kill := 1, hit := 0, teamkill := -3 } :=
    (WeaponPoints.mk.injEq ..).mpr ⟨kill, hit, teamkill⟩
  exact ⟨taken, distinct, parsed, mg42Weights, agree,
    unknown (by decide +kernel),
    reordered _ (List.reverse_perm document.overrides)⟩

end PointDocument

end Fragboard
