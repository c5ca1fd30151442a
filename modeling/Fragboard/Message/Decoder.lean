import Fragboard.Message.Registry

/-!
# Message decoder

The decoder follows one message at a time, from its begin through its fields to
its end, and says what each of them means.  A begin abandons the message before
it.  Fields beyond the schema, messages without a binding, and anything outside
a message mean nothing.
-/

namespace Fragboard.Message

structure Context where
  /-- None when the number of the message is not bound. -/
  kind : Option MessageKind
  /-- The player whom the message concerns. -/
  subject : Option Slot
  position : Nat
deriving DecidableEq

/-- What a field or an end means, and for whom. -/
structure Call (α : Type) where
  meaning : α
  subject : Option Slot
deriving DecidableEq

structure Decoder where
  registry : Registry
  context : Option Context
deriving DecidableEq

namespace Decoder

def new (registry : Registry) : Decoder :=
  { registry := registry, context := none }

def start (decoder : Decoder) (id : Int32) (subject : Option Slot) : Decoder :=
  let context : Context :=
    { kind := decoder.registry.kindOf? id, subject := subject, position := 0 }
  { decoder with context := some context }

def field (decoder : Decoder) : Option (Call FieldMeaning) × Decoder :=
  match decoder.context with
  | none => (none, decoder)
  | some context =>
    let meaning? := context.kind.bind fun kind =>
      kind.schema.fields[context.position]?
    let call := meaning?.map fun meaning =>
      { meaning := meaning, subject := context.subject }
    let next := { context with position := context.position + 1 }
    (call, { decoder with context := some next })

def finish (decoder : Decoder) : Option (Call EndAction) × Decoder :=
  match decoder.context with
  | none => (none, decoder)
  | some context =>
    let action? := context.kind.bind fun kind => kind.schema.atEnd
    let call := action?.map fun action =>
      { meaning := action, subject := context.subject }
    (call, { decoder with context := none })

end Decoder

end Fragboard.Message
