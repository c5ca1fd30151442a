import Fragboard.Proofs.Match.SessionEvents
import Fragboard.Proofs.Message.DeliveredMeanings

/-!
# The message in flight

The decoder of a session is fed by the calls (`Session.decoder_perform`), so the
kind and the subject of a message stay the same from its start to its end or to
the start of another one.  While there is a message in flight, some call started
it and no call has started or ended a message since
(`Session.exists_messageBegun`).
-/

namespace Fragboard.Match

open Message (Decoder EndAction FieldMeaning FieldValue MessageKind Registry)

namespace Session

variable {World : Type}

def Call.startsMessage : Call World → Bool
  | .messageBegin _ _ => true
  | _ => false

/-- The call starts or ends a message. -/
def Call.boundsMessage : Call World → Bool
  | .messageBegin _ _ | .messageEnd => true
  | _ => false

theorem Call.boundsMessage_of_starts {call : Call World}
    (starts : call.startsMessage = true) : call.boundsMessage = true := by
  cases call with
  | messageBegin id subject => rfl
  | _ => contradiction

variable [GameWorld World]

theorem decoder_applyEnd (session : Session World) (action : EndAction)
    (slot : Slot) :
    (session.applyEnd action slot).decoder = session.decoder := by
  by_cases damage : action = .damage
  · simp only [damage, applyEnd, endDamage]
    split
    · rfl
    · exact (SameCourse.emitAll (.refl _) _).decoder
  · exact (session.sameCourse_applyEnd damage slot).decoder

theorem decoder_flushLife (session : Session World) (slot : Slot) :
    (session.flushLife slot).decoder = session.decoder :=
  flushLife_part Session.decoder (fun _ _ => rfl) (fun _ _ _ => rfl) session
    slot

theorem decoder_closing (session : Session World) (slots : List Slot) :
    (slots.foldl closeLife session).decoder = session.decoder :=
  closing_part Session.decoder (fun _ _ => rfl) (fun _ _ _ => rfl)
    (fun _ _ => rfl) session slots

theorem decoder_think (session : Session World) (slot : Slot) :
    (session.think slot).decoder = session.decoder := by
  unfold think
  dsimp only
  split
  · rfl
  · rw [(sameCourse_announceScore _ slot).decoder]
    exact applyDue_part Session.decoder (fun _ _ => rfl) (fun _ _ _ => rfl)
      (fun _ _ => rfl) _ slot _

/-- What a call feeds to the decoder. -/
def decoderInput? (session : Session World) :
    Call World → Option Decoder.Input
  | .register name id => some (.bind name id)
  | .messageBegin id subject =>
    some (.start id (subject.bind (GameWorld.playerOf session.world)))
  | .messageField _ => some .field
  | .messageEnd => some .finish
  | _ => none

theorem decoder_perform (session : Session World) (call : Call World) :
    (session.perform call).decoder =
      (session.decoderInput? call).elim session.decoder
        session.decoder.feed := by
  cases call with
  | register name id => rfl
  | disconnect slot =>
      simp only [perform, disconnect]
      split
      · exact session.decoder_flushLife slot
      · rfl
  | rename slot name =>
      simp only [perform, rename]
      split
      · rfl
      · cases session.config.rankBy <;> rfl
  | messageField value =>
      simp only [perform, messageField]
      split
      · rfl
      · exact (sameCourse_applyField _ _ _ _).decoder
  | messageEnd =>
      simp only [perform]
      cases closing : session.closing? with
      | none =>
          obtain ⟨subject, ended⟩ := messageEnd_of_idle closing
          rw [ended]
          rfl
      | some closed =>
          rw [messageEnd_of_closing closing]
          exact decoder_applyEnd _ _ _
  | projectileTrace owner projectile className position =>
      simp only [perform, projectileTrace]
      split
      · rfl
      · exact (SameCourse.emitAll (.refl _) _).decoder
  | think slot => exact session.decoder_think slot
  | resetPlayerStats slot =>
      exact (session.sameCourse_resetPlayerStats slot).decoder
  | resetAllStats => exact session.sameCourse_resetAllStats.decoder
  | flushAllStats => exact (SameCourse.emitAll (.refl session) _).decoder
  | teardown tree => exact session.decoder_closing _
  | teardownBackground saver => exact session.decoder_closing _
  | _ => rfl

/-- The kind and the subject of the message in flight. -/
def inFlight? (session : Session World) :
    Option (Option MessageKind × Option Slot) :=
  session.decoder.context.map fun context => (context.kind, context.subject)

theorem inside_of_unbounded {session : Session World} {call : Call World}
    (unbounded : call.boundsMessage = false) {input : Decoder.Input}
    (fed : session.decoderInput? call = some input) :
    input.isInside = true := by
  cases call with
  | register name id =>
      obtain rfl := Option.some.inj fed
      rfl
  | messageField value =>
      obtain rfl := Option.some.inj fed
      rfl
  | messageBegin id subject => contradiction
  | messageEnd => contradiction
  | _ => contradiction

theorem inFlight?_perform {session : Session World} {call : Call World}
    (unbounded : call.boundsMessage = false) :
    (session.perform call).inFlight? = session.inFlight? := by
  rw [inFlight?, decoder_perform]
  cases fed : session.decoderInput? call with
  | none => rfl
  | some input =>
      rw [Option.elim_some, Decoder.context_feed_inside _
        (inside_of_unbounded unbounded fed), Option.map_map]
      rfl

theorem inFlight?_run {session : Session World} {calls : List (Call World)}
    (unbounded : ∀ call ∈ calls, call.boundsMessage = false) :
    (session.run calls).inFlight? = session.inFlight? := by
  induction calls generalizing session with
  | nil => rfl
  | cons call rest ih =>
      obtain ⟨first, others⟩ := List.forall_mem_cons.mp unbounded
      exact (ih others).trans (inFlight?_perform first)

theorem inFlight?_messageEnd (session : Session World) :
    (session.perform .messageEnd).inFlight? = none := by
  rw [inFlight?, decoder_perform]
  exact congrArg (Option.map _) (Decoder.context_finish _)

/-- The message in flight at the end of some calls: the call that started it,
and what came since. -/
def MessageBegun (start : Session World) (calls : List (Call World)) : Type :=
  Since start (fun _ call => call.startsMessage = true)
    (fun _ call => call.boundsMessage = true) calls

theorem exists_messageBegun (config : Config) (world : World)
    (points : PointTable) {calls : List (Call World)}
    (flying : ((Session.new config world points).run calls).inFlight?.isSome =
      true) :
    Nonempty (MessageBegun (Session.new config world points) calls) := by
  refine exists_since (·.inFlight?.isSome = true) ?_ ?_ flying
  · exact Bool.false_ne_true
  · intro earlier call flies
    cases bounds : call.boundsMessage with
    | false =>
        rw [inFlight?_perform bounds] at flies
        exact .inr ⟨flies, Bool.false_ne_true⟩
    | true =>
        cases call with
        | messageBegin id subject => exact .inl rfl
        | messageEnd =>
            rw [inFlight?_messageEnd] at flies
            contradiction
        | _ => exact absurd bounds Bool.false_ne_true

end Session

end Fragboard.Match
