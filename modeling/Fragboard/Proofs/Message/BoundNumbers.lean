import Fragboard.Proofs.KeyedLists
import Fragboard.Proofs.Message.DeliveredMeanings

/-!
# Kinds and their numbers

Whatever names and numbers a registry is asked to bind, its two tables are the
inverse of each other.  `Registry.Coherent` is what an accepted attempt keeps,
since it enters a pair in both tables at places that were empty; a rejected
attempt names a fault that the attempt really has, and changes nothing.
-/

namespace Fragboard.Message

namespace MessageKind

theorem mem_all (kind : MessageKind) : kind ∈ all := by
  cases kind <;> decide

theorem nodup_all : all.Nodup := by
  decide

theorem nodup_names : (all.map name).Nodup := by
  decide

theorem named?_eq_some_iff {name : String} {kind : MessageKind} :
    named? name = some kind ↔ kind.name = name := by
  rw [named?, find?_key_eq_some_iff nodup_names]
  exact and_iff_right kind.mem_all

theorem named?_eq_none_iff {name : String} :
    named? name = none ↔ ∀ kind : MessageKind, kind.name ≠ name := by
  simp only [Option.eq_none_iff_forall_ne_some, ne_eq, named?_eq_some_iff]

end MessageKind

theorem MessageKind.ordinal_injective {kind other : MessageKind}
    (same : kind.ordinal = other.ordinal) : kind = other := by
  revert same
  cases kind <;> cases other <;> decide

theorem messageIndex?_isSome {id : Int32} :
    (messageIndex? id).isSome = true ↔ IsMessageId id := by
  unfold messageIndex?
  split
  · next inside => simp [inside]
  · next outside => simp [outside]

/-- What the error says of the attempt is so. -/
def BindError.Applies (registry : Registry) (name : String) (id : Int32) :
    BindError → Prop
  | .unknownName given =>
    given = name ∧ ∀ kind : MessageKind, kind.name ≠ name
  | .idOutOfRange given => given = id ∧ ¬IsMessageId id
  | .kindBound kind previous =>
    kind.name = name ∧ registry.idOf? kind = some previous
  | .idTaken given holder => given = id ∧ registry.kindOf? id = some holder

namespace Registry

/-- A name is bound exactly if no fault applies. -/
theorem bind_eq_ok_iff {registry : Registry} {name : String} {id : Int32}
    {kind : MessageKind} :
    (registry.bind name id).1 = .ok kind ↔
      kind.name = name ∧ IsMessageId id ∧ registry.idOf? kind = none ∧
      registry.kindOf? id = none := by
  rw [← messageIndex?_isSome]
  constructor
  · intro accepted
    obtain ⟨index, found, inside, unbound, _⟩ := bind_of_ok accepted
    have free := (kindOf?_of_bound accepted id).1
    rw [inside]
    exact ⟨MessageKind.named?_eq_some_iff.mp found, rfl, unbound, free⟩
  · rintro ⟨named, isId, unbound, free⟩
    obtain ⟨index, inside⟩ := Option.isSome_iff_exists.mp isId
    rw [kindOf?, inside, Option.bind_some] at free
    rw [idOf?] at unbound
    simp only [bind, MessageKind.named?_eq_some_iff.mpr named, inside, unbound,
      free]

theorem applies_of_bind_eq_error {registry : Registry} {name : String}
    {id : Int32} {failure : BindError}
    (rejected : (registry.bind name id).1 = .error failure) :
    failure.Applies registry name id := by
  unfold bind at rejected
  split at rejected
  · next unknown =>
      obtain rfl := Except.error.inj rejected
      exact ⟨rfl, MessageKind.named?_eq_none_iff.mp unknown⟩
  · next known found =>
      have named := MessageKind.named?_eq_some_iff.mp found
      split at rejected
      · next outside =>
          obtain rfl := Except.error.inj rejected
          refine ⟨rfl, fun isId => ?_⟩
          rw [← messageIndex?_isSome, outside] at isId
          contradiction
      · next index inside =>
          split at rejected
          · next previous taken =>
              obtain rfl := Except.error.inj rejected
              exact ⟨named, taken⟩
          · split at rejected
            · next holder taken =>
                obtain rfl := Except.error.inj rejected
                refine ⟨rfl, ?_⟩
                rw [kindOf?, inside, Option.bind_some, taken]
            · contradiction

/-- An accepted attempt gives the kind its number and leaves the others. -/
theorem idOf?_of_bound {registry : Registry} {name : String} {id : Int32}
    {kind : MessageKind} (accepted : (registry.bind name id).1 = .ok kind)
    (other : MessageKind) :
    (registry.bind name id).2.idOf? other =
      if kind = other then some id else registry.idOf? other := by
  obtain ⟨index, _, _, _, _, bound⟩ := bind_of_ok accepted
  simp only [bound, idOf?, Cells.get_set]
  by_cases same : kind = other
  · simp [same]
  · have apart : kind.ordinal ≠ other.ordinal :=
      fun equal => same (MessageKind.ordinal_injective equal)
    simp [same, apart]

theorem isMessageId_of_kindOf? {registry : Registry} {id : Int32}
    {kind : MessageKind} (known : registry.kindOf? id = some kind) :
    IsMessageId id := by
  obtain ⟨index, inside, _⟩ := Option.bind_eq_some_iff.mp known
  exact messageIndex?_isSome.mp (by rw [inside]; rfl)

/-- The two tables are the inverse of each other. -/
def Coherent (registry : Registry) : Prop :=
  ∀ id kind, registry.kindOf? id = some kind ↔ registry.idOf? kind = some id

theorem mem_unbound_iff {registry : Registry} {kind : MessageKind} :
    kind ∈ registry.unbound ↔ registry.idOf? kind = none := by
  simp [unbound, kind.mem_all]

theorem coherent_empty : empty.Coherent := by
  intro id kind
  cases index : messageIndex? id <;> simp [kindOf?, idOf?, empty, index]

section Coherent

variable {registry : Registry} (coherent : registry.Coherent)

include coherent

/-- An accepted pair stands in both tables, and neither its number nor its kind
stands anywhere else. -/
theorem Coherent.bind {name : String} {id : Int32} {kind : MessageKind}
    (accepted : (registry.bind name id).1 = .ok kind) :
    (registry.bind name id).2.Coherent := by
  obtain ⟨_, _, unbound, free⟩ := bind_eq_ok_iff.mp accepted
  intro number other
  rw [(kindOf?_of_bound accepted number).2, idOf?_of_bound accepted other]
  by_cases sameId : id = number
  · by_cases sameKind : kind = other
    · simp [sameId, sameKind]
    · have elsewhere : registry.idOf? other ≠ some number := by
        rw [← sameId, Ne, ← coherent id other, free]
        exact nofun
      simp [sameId, sameKind, elsewhere]
  · by_cases sameKind : kind = other
    · have elsewhere : registry.kindOf? number ≠ some other := by
        rw [← sameKind, Ne, coherent number kind, unbound]
        exact nofun
      simp [sameId, sameKind, elsewhere]
    · simp [sameId, sameKind, coherent number other]

theorem Coherent.afterBind (attempt : String × Int32) :
    (registry.afterBind attempt).Coherent := by
  unfold Registry.afterBind
  cases result : (registry.bind attempt.1 attempt.2).1 with
  | error failure =>
      rw [bind_of_error result]
      exact coherent
  | ok kind => exact coherent.bind result

theorem Coherent.afterBinds (attempts : List (String × Int32)) :
    (registry.afterBinds attempts).Coherent := by
  induction attempts generalizing registry with
  | nil => exact coherent
  | cons attempt rest ih => exact ih (coherent.afterBind attempt)

end Coherent

/-- After any attempts, the two tables are the inverse of each other: a number has
a kind exactly if the kind has the number.  No other numbers than the engine's have
kinds, and the unbound kinds are those without a number.  The next attempt is
accepted exactly if it names a kind that has no number, and gives a number of the
right range that has no kind; then it adds this pair and no other to both tables.
Otherwise it reports one of its faults and changes neither. -/
theorem numbers_after_attempts (attempts : List (String × Int32)) :
    let registry := empty.afterBinds attempts
    (∀ id kind,
      registry.kindOf? id = some kind ↔ registry.idOf? kind = some id) ∧
    (∀ id, (registry.kindOf? id).isSome → IsMessageId id) ∧
    (registry.unbound.Nodup ∧
      ∀ kind, kind ∈ registry.unbound ↔ registry.idOf? kind = none) ∧
    ∀ name id,
      let result := (registry.bind name id).1
      let after := (registry.bind name id).2
      ((∃ kind, result = .ok kind) ↔
        IsMessageId id ∧ registry.kindOf? id = none ∧
        ∃ kind : MessageKind, kind.name = name ∧
          registry.idOf? kind = none) ∧
      (∀ failure, result = .error failure →
        failure.Applies registry name id ∧ after = registry) ∧
      ∀ kind, result = .ok kind →
        kind.name = name ∧
        (∀ number, after.kindOf? number =
          if id = number then some kind else registry.kindOf? number) ∧
        ∀ other, after.idOf? other =
          if kind = other then some id else registry.idOf? other := by
  intro registry
  refine ⟨coherent_empty.afterBinds attempts, ?_,
    ⟨MessageKind.nodup_all.filter _, fun kind => mem_unbound_iff⟩, ?_⟩
  · intro id bound
    obtain ⟨kind, known⟩ := Option.isSome_iff_exists.mp bound
    exact isMessageId_of_kindOf? known
  · intro name id result after
    refine ⟨?_, ?_, ?_⟩
    · constructor
      · rintro ⟨kind, accepted⟩
        obtain ⟨named, isId, unbound, free⟩ := bind_eq_ok_iff.mp accepted
        exact ⟨isId, free, kind, named, unbound⟩
      · rintro ⟨isId, free, kind, named, unbound⟩
        exact ⟨kind, bind_eq_ok_iff.mpr ⟨named, isId, unbound, free⟩⟩
    · intro failure rejected
      exact ⟨applies_of_bind_eq_error rejected, bind_of_error rejected⟩
    · intro kind accepted
      exact ⟨(bind_eq_ok_iff.mp accepted).1,
        fun number => (kindOf?_of_bound accepted number).2,
        idOf?_of_bound accepted⟩

/-- Four attempts fail, each by another fault, and the last number still goes
to the kind that asks for it. -/
theorem numbers_amid_refusals :
    let attempts : List (String × Int32) :=
      [("Health", 12), ("Health", 13), ("ResetHUD", 12), ("Nope", 14),
        ("PTeam", 256), ("PTeam", -1)]
    let registry := empty.afterBinds attempts
    let refused := registry.bind "ResetHUD" 12
    let bound := (registry.bind "PTeam" 255).2
    refused.1 = .error (.idTaken 12 .health) ∧ refused.2 = registry ∧
    ∃ kind, (registry.bind "PTeam" 255).1 = .ok kind ∧ kind.name = "PTeam" ∧
      bound.kindOf? 255 = some kind ∧ bound.idOf? kind = some 255 ∧
      bound.kindOf? 12 = some .health := by
  intro attempts registry refused bound
  have taken : refused.1 = .error (.idTaken 12 .health) := by decide +kernel
  have health : registry.kindOf? 12 = some .health := by decide +kernel
  have unbound : registry.kindOf? 255 = none ∧
      registry.idOf? .playerTeam = none := by decide +kernel
  obtain ⟨_, _, _, next⟩ := numbers_after_attempts attempts
  obtain ⟨_, rejected, _⟩ := next "ResetHUD" 12
  obtain ⟨accepted, _, added⟩ := next "PTeam" 255
  obtain ⟨kind, result⟩ := accepted.mpr
    ⟨by decide, unbound.1, .playerTeam, rfl, unbound.2⟩
  obtain ⟨named, numbers, kinds⟩ := added kind result
  refine ⟨taken, (rejected _ taken).2, kind, result, named, ?_, ?_, ?_⟩
  · exact (numbers 255).trans (if_pos rfl)
  · exact (kinds kind).trans (if_pos rfl)
  · exact ((numbers 12).trans (if_neg (by decide))).trans health

end Registry

end Fragboard.Message
