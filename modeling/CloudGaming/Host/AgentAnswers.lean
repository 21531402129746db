import CloudGaming.Async.Gives
import CloudGaming.Host.AgentDispatch
/-!
# AgentAnswers — the requests the agent answers

Which commands can be carried out without an exception and answered in UTF-8, and from this which requests are given an
answer of their id that can be encoded.  An exception on the way loses the id; a text that is not UTF-8 has no encoding.
-/
namespace CloudGaming
namespace Host
namespace AgentServer

open Async
open Bytes (ascii utf8 decode decode_utf8)
open GameInventory (Game SecureIdBytes manualGameId generateRoomId isIdByte isIdByte_lt)
open Inventory (manual)

/-! ## Answers that can be encoded -/

/-- The strings of the body are UTF-8. -/
def Body.Sound : Body → Prop
  | .result v => v.valid = true
  | .error _ message _ => Utf8 message

section
variable {i : Inventory}

end

/-! ## The commands -/

variable (o : Outside)

/-- The state file takes another game: its games have ids, none of them this, and the new one can be saved or the error
be told. -/
def Takes (title : String) (executable : Executable) : Prop :=
  Gives (fun taken => taken = false →
      Gives (fun _ => True) o.secureIdBytes ∧ Gives (fun _ => True) executable.canonical ∧
        ((∃ items, manual o.inventory.loadState = .arr items) ∨ manual o.inventory.loadState = .null) ∧
          ∀ error ∈ o.inventory.save, Utf8 error)
    (configured (manualGameId (utf8 title)) (elements (manual o.inventory.loadState)))

section
variable {o} {params : Json}

end

/-! ## The requests -/

/-- The id of a request, empty where it cannot be read. -/
def requestIdOf : Except Bytes Json → String
  | .error _ => ""
  | .ok request => strOf request "requestId"

/-- The response has this id, and can be encoded. -/
def Response.Due (r : Response) (id : String) : Prop := r.requestId = id ∧ r.body.Sound

section
variable {o} {request : Json}

end

end AgentServer
end Host
end CloudGaming
