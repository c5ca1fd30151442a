import Fragboard.Message.Decoder
import Mathlib.Data.List.Induction

/-!
# What a decoder delivers

A decoder is fed with inputs in any order: bindings, starts of messages, fields
and ends.  What a field or an end means can be read off the inputs before it:
the last start names the message and its subject, the bindings before that start
give the kind, and the fields since it give the position in the schema.  From an
end to the next start nothing is delivered.
-/

namespace Fragboard.Message

/-- No two numbers share a place. -/
theorem messageIndex?_inj {id other : Int32} {index : Fin messageIdCount}
    (first : messageIndex? id = some index)
    (second : messageIndex? other = some index) : id = other := by
  unfold messageIndex? at first second
  split at first
  · next inside =>
      split at second
      · next outside =>
          have same := congrArg Fin.val
            ((Option.some.inj first).trans (Option.some.inj second).symm)
          dsimp only at same
          apply Int32.toInt_inj.mp
          rw [← Int.toNat_of_nonneg inside.1, same,
            Int.toNat_of_nonneg outside.1]
      · contradiction
  · contradiction

namespace Registry

/-- The registry after an attempt to bind a name, successful or not. -/
def afterBind (registry : Registry) (attempt : String × Int32) : Registry :=
  (registry.bind attempt.1 attempt.2).2

def afterBinds (registry : Registry) (attempts : List (String × Int32)) :
    Registry :=
  attempts.foldl afterBind registry

theorem bind_of_error {registry : Registry} {name : String} {id : Int32}
    {failure : BindError}
    (rejected : (registry.bind name id).1 = .error failure) :
    (registry.bind name id).2 = registry := by
  unfold bind at rejected ⊢
  split
  · rfl
  · next kind found =>
      simp only [found] at rejected
      split
      · rfl
      · next index inside =>
          simp only [inside] at rejected
          split
          · rfl
          · next unbound =>
              simp only [unbound] at rejected
              split
              · rfl
              · next free =>
                  simp only [free] at rejected
                  contradiction

/-- What has to be so for an attempt to be accepted, and what it enters. -/
theorem bind_of_ok {registry : Registry} {name : String} {id : Int32}
    {kind : MessageKind} (accepted : (registry.bind name id).1 = .ok kind) :
    ∃ index, MessageKind.named? name = some kind ∧
      messageIndex? id = some index ∧ registry.idOf? kind = none ∧
      registry.kinds.get index = none ∧
      (registry.bind name id).2 =
        { kinds := registry.kinds.set index (some kind)
          ids := registry.ids.set kind.ordinal (some id) } := by
  unfold bind at accepted ⊢
  split at accepted
  · contradiction
  · next known found =>
      split at accepted
      · contradiction
      · next index inside =>
          split at accepted
          · contradiction
          · next unbound =>
              split at accepted
              · contradiction
              · next free =>
                  obtain rfl := Except.ok.inj accepted
                  exact ⟨index, found, inside, unbound, free, rfl⟩

/-- An accepted attempt gives the number its kind and leaves the others. -/
theorem kindOf?_of_bound {registry : Registry} {name : String} {id : Int32}
    {kind : MessageKind} (accepted : (registry.bind name id).1 = .ok kind)
    (other : Int32) :
    registry.kindOf? id = none ∧
    (registry.bind name id).2.kindOf? other =
      if id = other then some kind else registry.kindOf? other := by
  obtain ⟨index, _, inside, _, free, bound⟩ := bind_of_ok accepted
  rw [bound]
  refine ⟨by simp [kindOf?, inside, free], ?_⟩
  cases found : messageIndex? other with
  | none =>
      have apart : id ≠ other := by
        rintro rfl
        rw [inside] at found
        contradiction
      simp [kindOf?, found, apart]
  | some place =>
      simp only [kindOf?, found, Option.bind_some, Cells.get_set]
      by_cases same : id = other
      · rw [same, found, Option.some.injEq] at inside
        simp [inside, same]
      · have apart : index ≠ place := by
          rintro rfl
          exact same (messageIndex?_inj inside found)
        simp [same, apart]

theorem kindOf?_afterBind_iff (registry : Registry)
    (attempt : String × Int32) (id : Int32) (kind : MessageKind) :
    (registry.afterBind attempt).kindOf? id = some kind ↔
      registry.kindOf? id = some kind ∨
      attempt.2 = id ∧ (registry.bind attempt.1 attempt.2).1 = .ok kind := by
  unfold afterBind
  cases result : (registry.bind attempt.1 attempt.2).1 with
  | error failure => simp [bind_of_error result]
  | ok given =>
      obtain ⟨free, after⟩ := kindOf?_of_bound result id
      rw [after]
      by_cases same : attempt.2 = id
      · rw [same] at free
        simp [same, free]
      · simp [same]

/-- A number has the kind that it had at first, or the one that an accepted
attempt gave it. -/
theorem kindOf?_afterBinds_iff (registry : Registry)
    (attempts : List (String × Int32)) (id : Int32) (kind : MessageKind) :
    (registry.afterBinds attempts).kindOf? id = some kind ↔
      registry.kindOf? id = some kind ∨
      ∃ earlier name later, attempts = earlier ++ (name, id) :: later ∧
        ((registry.afterBinds earlier).bind name id).1 = .ok kind := by
  induction attempts using List.reverseRecOn with
  | nil => simp [afterBinds]
  | append_singleton attempts last ih =>
      have whole : registry.afterBinds (attempts ++ [last]) =
          (registry.afterBinds attempts).afterBind last :=
        List.foldl_append
      rw [whole, kindOf?_afterBind_iff, ih, or_assoc]
      apply or_congr_right
      constructor
      · rintro (⟨earlier, name, later, rfl, accepted⟩ | ⟨rfl, accepted⟩)
        · exact ⟨earlier, name, later ++ [last], by simp, accepted⟩
        · exact ⟨attempts, last.1, [], rfl, accepted⟩
      · rintro ⟨earlier, name, later, split, accepted⟩
        rcases List.eq_nil_or_concat later with rfl | ⟨front, final, rfl⟩
        · obtain ⟨rfl, final⟩ := List.append_inj' split rfl
          obtain rfl := List.singleton_inj.mp final
          exact .inr ⟨rfl, accepted⟩
        · rw [List.concat_eq_append, ← List.cons_append,
            ← List.append_assoc] at split
          obtain ⟨rfl, _⟩ := List.append_inj' split rfl
          exact .inl ⟨earlier, name, front, rfl, accepted⟩

end Registry

namespace Decoder

inductive Input where
  | bind (name : String) (id : Int32)
  | start (id : Int32) (subject : Option Slot)
  | field
  | finish
deriving DecidableEq

namespace Input

def isStart : Input → Bool
  | .start _ _ => true
  | _ => false

/-- The input neither starts nor ends a message. -/
def isInside : Input → Bool
  | .bind _ _ | .field => true
  | .start _ _ | .finish => false

theorem unstarted_of_inside {input : Input} (inside : input.isInside = true) :
    input.isStart = false := by
  cases input with
  | start id subject => contradiction
  | _ => rfl

def attempt? : Input → Option (String × Int32)
  | .bind name id => some (name, id)
  | _ => none

end Input

/-- The bindings that were attempted, the earliest first. -/
def attempts (inputs : List Input) : List (String × Int32) :=
  inputs.filterMap Input.attempt?

def feed (decoder : Decoder) : Input → Decoder
  | .bind name id =>
    { decoder with registry := decoder.registry.afterBind (name, id) }
  | .start id subject => decoder.start id subject
  | .field => decoder.field.2
  | .finish => decoder.finish.2

def run (decoder : Decoder) (inputs : List Input) : Decoder :=
  inputs.foldl feed decoder

theorem run_append (decoder : Decoder) (first second : List Input) :
    decoder.run (first ++ second) = (decoder.run first).run second :=
  List.foldl_append

theorem registry_field (decoder : Decoder) :
    decoder.field.2.registry = decoder.registry := by
  unfold field
  split <;> rfl

theorem registry_finish (decoder : Decoder) :
    decoder.finish.2.registry = decoder.registry := by
  unfold finish
  split <;> rfl

theorem registry_feed (decoder : Decoder) (input : Input) :
    (decoder.feed input).registry =
      decoder.registry.afterBinds input.attempt?.toList := by
  cases input with
  | bind name id => rfl
  | start id subject => rfl
  | field => exact decoder.registry_field
  | finish => exact decoder.registry_finish

/-- Only the attempted bindings matter to the registry. -/
theorem registry_run (decoder : Decoder) (inputs : List Input) :
    (decoder.run inputs).registry =
      decoder.registry.afterBinds (attempts inputs) := by
  induction inputs generalizing decoder with
  | nil => rfl
  | cons input rest ih =>
      have later := ih (decoder.feed input)
      rw [registry_feed] at later
      rw [attempts, List.filterMap_cons]
      cases input <;> exact later

theorem context_finish (decoder : Decoder) :
    decoder.finish.2.context = none := by
  unfold finish
  split
  · next idle => exact idle
  · rfl

theorem context_field (decoder : Decoder) :
    decoder.field.2.context =
      decoder.context.map fun context =>
        { context with position := context.position + 1 } := by
  unfold field
  cases current : decoder.context with
  | none => exact current
  | some context => rfl

theorem context_feed_inside (decoder : Decoder) {input : Input}
    (inside : input.isInside = true) :
    (decoder.feed input).context =
      decoder.context.map fun context =>
        { context with
          position := context.position + [input].count .field } := by
  cases input with
  | bind name id => simp [feed]
  | field => exact decoder.context_field
  | start id subject => contradiction
  | finish => contradiction

/-- Inside a message only the position moves, and it counts the fields. -/
theorem context_run_inside (decoder : Decoder) {between : List Input}
    (inside : ∀ input ∈ between, input.isInside = true) :
    (decoder.run between).context =
      decoder.context.map fun context =>
        { context with
          position := context.position + between.count .field } := by
  induction between generalizing decoder with
  | nil => simp [run]
  | cons input rest ih =>
      obtain ⟨first, later⟩ := List.forall_mem_cons.mp inside
      have count : (input :: rest).count .field =
          [input].count .field + rest.count .field := by
        rw [← List.count_append, List.singleton_append]
      rw [run, List.foldl_cons, ← run, ih _ later, context_feed_inside _ first,
        Option.map_map, count]
      apply congrArg (Option.map · decoder.context)
      funext context
      simp [Nat.add_assoc]

theorem context_run_unstarted (decoder : Decoder)
    (idle : decoder.context = none) {inputs : List Input}
    (unstarted : ∀ input ∈ inputs, input.isStart = false) :
    (decoder.run inputs).context = none := by
  induction inputs generalizing decoder with
  | nil => exact idle
  | cons input rest ih =>
      obtain ⟨first, later⟩ := List.forall_mem_cons.mp unstarted
      apply ih (decoder.feed input) _ later
      cases input with
      | bind name id => exact idle
      | start id subject => contradiction
      | field => rw [feed, context_field, idle, Option.map_none]
      | finish => exact decoder.context_finish

theorem field_of_context {decoder : Decoder} {context : Context}
    (current : decoder.context = some context) :
    decoder.field.1 =
      (context.kind.bind (·.schema.fields[context.position]?)).map
        (Call.mk · context.subject) := by
  simp only [field, current]

theorem finish_of_context {decoder : Decoder} {context : Context}
    (current : decoder.context = some context) :
    decoder.finish.1 =
      (context.kind.bind (·.schema.atEnd)).map
        (Call.mk · context.subject) := by
  simp only [finish, current]

theorem answers_of_idle {decoder : Decoder} (idle : decoder.context = none) :
    decoder.field.1 = none ∧ decoder.finish.1 = none := by
  simp only [field, finish, idle, and_self]

/-- No message has been started since the last end, or none at all. -/
def Idle (inputs : List Input) : Prop :=
  ∃ before after, inputs = before ++ after ∧
    (before = [] ∨ before.getLast? = some .finish) ∧
    ∀ input ∈ after, input.isStart = false

theorem context_run_of_idle (registry : Registry) {inputs : List Input}
    (idle : Idle inputs) : ((new registry).run inputs).context = none := by
  obtain ⟨before, after, rfl, ended, unstarted⟩ := idle
  rw [run_append]
  apply context_run_unstarted _ _ unstarted
  rcases ended with rfl | ended
  · rfl
  · obtain ⟨front, rfl⟩ := List.getLast?_eq_some_iff.mp ended
    rw [run_append]
    exact context_finish _

/-- What the context is after a start and inputs inside its message. -/
theorem context_run_of_started (registry : Registry) (before : List Input)
    (id : Int32) (subject : Option Slot) {between : List Input}
    (inside : ∀ input ∈ between, input.isInside = true) :
    ((new registry).run (before ++ .start id subject :: between)).context =
      some
        { kind := (registry.afterBinds (attempts before)).kindOf? id
          subject := subject
          position := between.count .field } := by
  have known : ((new registry).run before).registry =
      registry.afterBinds (attempts before) := registry_run _ before
  rw [run_append, run, List.foldl_cons, ← run, context_run_inside _ inside,
    ← known]
  simp [feed, start]

/-- Every history is idle or ends in a message. -/
theorem idle_or_started (inputs : List Input) :
    Idle inputs ∨
    ∃ before id subject between,
      inputs = before ++ .start id subject :: between ∧
      ∀ input ∈ between, input.isInside = true := by
  induction inputs using List.reverseRecOn with
  | nil => exact .inl ⟨[], [], rfl, .inl rfl, by simp⟩
  | append_singleton inputs last ih =>
      cases inside : last.isInside with
      | true =>
          rcases ih with ⟨before, after, rfl, ended, unstarted⟩ |
            ⟨before, id, subject, between, rfl, quiet⟩
          · refine .inl ⟨before, after ++ [last], by simp, ended, ?_⟩
            exact List.forall_mem_append.mpr
              ⟨unstarted, by simpa using Input.unstarted_of_inside inside⟩
          · refine .inr ⟨before, id, subject, between ++ [last], by simp, ?_⟩
            exact List.forall_mem_append.mpr ⟨quiet, by simpa using inside⟩
      | false =>
          cases last with
          | start id subject =>
              exact .inr ⟨inputs, id, subject, [], rfl, by simp⟩
          | finish =>
              exact .inl ⟨inputs ++ [.finish], [], by simp, by simp, by simp⟩
          | bind name id => contradiction
          | field => contradiction

/-- Inside a message a field means what the schema has at its position, and the
end what the schema asks for at the end, both for the subject of the start; the
kind is the one to which the number was bound at the start, by whatever binding
was accepted before it.  Outside messages, so also at a second end, nothing is
delivered.  Every history is of one of these two forms. -/
theorem answers_of_history (registry : Registry) :
    (∀ before id subject between,
      (∀ input ∈ between, input.isInside = true) →
      let kind? := (registry.afterBinds (attempts before)).kindOf? id
      let decoder :=
        (new registry).run (before ++ .start id subject :: between)
      decoder.field.1 =
        (kind?.bind (·.schema.fields[between.count .field]?)).map
          (Call.mk · subject) ∧
      decoder.finish.1 =
        (kind?.bind (·.schema.atEnd)).map (Call.mk · subject)) ∧
    (∀ inputs, Idle inputs →
      let decoder := (new registry).run inputs
      decoder.field.1 = none ∧ decoder.finish.1 = none) ∧
    (∀ inputs, Idle inputs ∨
      ∃ before id subject between,
        inputs = before ++ .start id subject :: between ∧
        ∀ input ∈ between, input.isInside = true) ∧
    ∀ before id kind,
      (registry.afterBinds (attempts before)).kindOf? id = some kind ↔
        registry.kindOf? id = some kind ∨
        ∃ earlier name later,
          attempts before = earlier ++ (name, id) :: later ∧
          ((registry.afterBinds earlier).bind name id).1 = .ok kind := by
  refine ⟨?_, ?_, idle_or_started, ?_⟩
  · intro before id subject between inside kind? decoder
    have context := context_run_of_started registry before id subject inside
    exact ⟨field_of_context context, finish_of_context context⟩
  · intro inputs idle decoder
    exact answers_of_idle (context_run_of_idle registry idle)
  · exact fun before => registry.kindOf?_afterBinds_iff (attempts before)

/-- A message abandons another one, its number is asked for by a second kind in
vain, and one more kind is bound before its second field.  After its end nothing
is left of it. -/
theorem answers_amid_bindings :
    let slot : Slot := { index := 3 }
    let before : List Input :=
      [.bind "CurWeapon" 5, .start 5 none, .field, .bind "TeamScore" 6,
        .bind "SetFOV" 6]
    let between : List Input := [.field, .bind "Object" 7]
    let message := before ++ .start 6 (some slot) :: between
    let ended := message ++ [.finish, .field, .bind "SetFOV" 8]
    (∀ input ∈ between, input.isInside = true) ∧
    ((new Registry.empty).run message).field.1 =
      some { meaning := .teamScore, subject := some slot } ∧
    ((new Registry.empty).run message).finish.1 = none ∧
    Idle ended ∧ ((new Registry.empty).run ended).field.1 = none ∧
    ((new Registry.empty).run ended).finish.1 = none := by
  intro slot before between message ended
  have inside : ∀ input ∈ between, input.isInside = true := by decide
  have kind : (Registry.empty.afterBinds (attempts before)).kindOf? 6 =
      some .teamScore := by decide
  have idle : Idle ended :=
    ⟨message ++ [.finish], [.field, .bind "SetFOV" 8], rfl, .inr rfl,
      by decide⟩
  obtain ⟨started, outside, _, _⟩ := answers_of_history Registry.empty
  obtain ⟨field, finish⟩ := started before 6 (some slot) between inside
  rw [kind] at field finish
  exact ⟨inside, field, finish, idle, outside ended idle⟩

end Decoder

end Fragboard.Message
