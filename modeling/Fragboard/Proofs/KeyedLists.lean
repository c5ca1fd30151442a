import Mathlib.Data.List.Nodup

/-!
# Lists with keys

In a list in which no key stands twice, a look-up finds the only entry of its key,
wherever that stands.
-/

namespace Fragboard

/-- Among things with keys of their own, the first with a key is the only
one. -/
theorem find?_key_eq_some_iff {α κ : Type} [DecidableEq κ] {key : α → κ}
    {items : List α} (distinct : (items.map key).Nodup) {wanted : κ}
    {item : α} :
    items.find? (key · == wanted) = some item ↔
      item ∈ items ∧ key item = wanted := by
  constructor
  · intro found
    have same := List.find?_some found
    exact ⟨List.mem_of_find?_eq_some found, eq_of_beq same⟩
  · rintro ⟨member, rfl⟩
    have present : (items.find? (key · == key item)).isSome = true :=
      List.find?_isSome.mpr ⟨item, member, beq_self_eq_true _⟩
    obtain ⟨other, found⟩ := Option.isSome_iff_exists.mp present
    have sameKey := List.find?_some found
    have same : other = item :=
      List.inj_on_of_nodup_map distinct (List.mem_of_find?_eq_some found)
        member (eq_of_beq sameKey)
    rw [found, same]

section Lookup

variable {κ α : Type} [DecidableEq κ] {entries : List (κ × α)}

theorem mem_of_lookup {key : κ} {value : α}
    (found : entries.lookup key = some value) : (key, value) ∈ entries := by
  obtain ⟨above, below, rfl, _⟩ := List.lookup_eq_some_iff.mp found
  exact List.mem_append_right above List.mem_cons_self

theorem lookup_eq_none_iff_notMem {key : κ} :
    entries.lookup key = none ↔ key ∉ entries.map Prod.fst := by
  rw [List.lookup_eq_none_iff]
  constructor
  · intro apart present
    obtain ⟨entry, member, rfl⟩ := List.mem_map.mp present
    exact absurd rfl (bne_iff_ne.mp (apart entry member))
  · rintro absent entry member
    refine bne_iff_ne.mpr fun same => absent ?_
    exact same ▸ List.mem_map_of_mem member

theorem lookup_eq_some_iff_mem (distinct : (entries.map Prod.fst).Nodup)
    {key : κ} {value : α} :
    entries.lookup key = some value ↔ (key, value) ∈ entries := by
  constructor
  · exact mem_of_lookup
  · intro member
    cases found : entries.lookup key with
    | none =>
        have present := List.mem_map_of_mem (f := Prod.fst) member
        exact absurd present (lookup_eq_none_iff_notMem.mp found)
    | some other =>
        have same : (key, other) = (key, value) :=
          List.inj_on_of_nodup_map distinct (mem_of_lookup found) member rfl
        rw [(Prod.mk.inj same).2]

/-- Where no key stands twice, the order does not matter to look-ups. -/
theorem lookup_perm {others : List (κ × α)}
    (distinct : (entries.map Prod.fst).Nodup) (permuted : others.Perm entries)
    (key : κ) : others.lookup key = entries.lookup key := by
  have distinct' : (others.map Prod.fst).Nodup :=
    (permuted.map Prod.fst).nodup_iff.mpr distinct
  apply Option.ext
  intro value
  rw [lookup_eq_some_iff_mem distinct', lookup_eq_some_iff_mem distinct,
    permuted.mem_iff]

end Lookup

end Fragboard
