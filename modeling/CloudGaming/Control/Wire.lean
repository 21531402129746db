import CloudGaming.Host.Runtime
import CloudGaming.Market.Types
import Mathlib.Tactic.Ring
/-!
# Wire — what crosses the control socket

How ids are spelled, the commands as the gateway sends them and the host parses them, and the events as the host sends
them and the gateway reads them.
-/
namespace CloudGaming
namespace Control

open Market Host

/-! ## Ids -/

/-- The last `k` hexadecimal digits of `n`. -/
def hexDigits : Nat → Nat → List Char
  | 0, _ => []
  | k + 1, n => hexDigits k (n / 16) ++ [Nat.digitChar (n % 16)]

def hexDigit (c : Char) : Nat := if c.isDigit then c.toNat - 48 else c.toNat - 87

/-- The number that digits denote after `n`; the hyphens of a UUID do not count. -/
def hexValue (n : Nat) (cs : List Char) : Nat := cs.foldl (fun n c => if c = '-' then n else 16 * n + hexDigit c) n

/-- How many digits a UUID has: 32, a random one never more. -/
def uuidDigits (n : Nat) : Nat := if n < 16 ^ 32 then 32 else n

/-- The lower-case spelling of a UUID. -/
def spell (n : Nat) : String :=
  .ofList (hexDigits (uuidDigits n - 24) (n / 16 ^ 24) ++ '-' :: (hexDigits 4 (n / 16 ^ 20) ++ '-' ::
    (hexDigits 4 (n / 16 ^ 16) ++ '-' :: (hexDigits 4 (n / 16 ^ 12) ++ '-' :: hexDigits 12 n))))

/-- The UUID a string spells. -/
def readUuid (s : String) : Option Nat :=
  if spell (hexValue 0 s.toList) = s then some (hexValue 0 s.toList) else none

theorem hexValue_append (n : Nat) (cs ds : List Char) : hexValue n (cs ++ ds) = hexValue (hexValue n cs) ds :=
  List.foldl_append

theorem hexValue_hyphen (n : Nat) (cs : List Char) : hexValue n ('-' :: cs) = hexValue n cs := rfl

theorem hexDigit_digitChar {d : Nat} (h : d < 16) :
    Nat.digitChar d ≠ '-' ∧ hexDigit (Nat.digitChar d) = d := by
  have hall : ∀ d : Fin 16, Nat.digitChar d ≠ '-' ∧ hexDigit (Nat.digitChar d) = d := by decide
  exact hall ⟨d, h⟩

theorem hexValue_hexDigits (k : Nat) : ∀ m n, hexValue m (hexDigits k n) = m * 16 ^ k + n % 16 ^ k := by
  induction k with
  | zero => intro m n; simp [hexDigits, hexValue, Nat.mod_one]
  | succ k ih =>
    intro m n
    obtain ⟨hne, hd⟩ := hexDigit_digitChar (Nat.mod_lt n (by decide : 0 < 16))
    have hlast : ∀ m, hexValue m [Nat.digitChar (n % 16)] = 16 * m + n % 16 := fun m => by simp [hexValue, hne, hd]
    have hmod : n % 16 ^ (k + 1) = n % 16 + 16 * (n / 16 % 16 ^ k) := by rw [Nat.pow_succ', Nat.mod_mul]
    rw [hexDigits, hexValue_append, ih, hlast, hmod, Nat.pow_succ]
    ring

/-- Two groups of digits that follow one another. -/
theorem group_join (n j k w : Nat) :
    n / 16 ^ (k + j) % 16 ^ w * 16 ^ j + n / 16 ^ k % 16 ^ j = n / 16 ^ k % 16 ^ (w + j) := by
  rw [Nat.pow_add 16 w j, Nat.mul_comm (16 ^ w), Nat.mod_mul, Nat.div_div_eq_div_mul, ← Nat.pow_add]
  ring

theorem lt_uuidDigits (n : Nat) : n < 16 ^ (uuidDigits n - 24 + 24) := by
  have hle : 24 ≤ uuidDigits n := by
    unfold uuidDigits
    split
    · decide
    · rename_i h
      exact Nat.le_trans (by decide) (Nat.not_lt.1 h)
  rw [Nat.sub_add_cancel hle]
  unfold uuidDigits
  split
  · assumption
  · exact Nat.lt_pow_self (by decide)

theorem hexValue_spell (n : Nat) : hexValue 0 (spell n).toList = n := by
  unfold spell
  rw [String.toList_ofList]
  simp only [hexValue_append, hexValue_hyphen, hexValue_hexDigits]
  have h₁ := group_join n 4 20 (uuidDigits n - 24)
  have h₂ := group_join n 4 16 (uuidDigits n - 24 + 4)
  have h₃ := group_join n 4 12 (uuidDigits n - 24 + 4 + 4)
  have h₄ := group_join n 12 0 (uuidDigits n - 24 + 4 + 4 + 4)
  simp only [Nat.reduceAdd, Nat.pow_zero, Nat.div_one, Nat.zero_add] at h₁ h₂ h₃ h₄
  rw [Nat.zero_mul, Nat.zero_add, h₁, h₂, h₃, h₄]
  exact Nat.mod_eq_of_lt (lt_uuidDigits n)

/-- **The spelling of a UUID is read back.** -/
@[simp] theorem readUuid_spell (n : Nat) : readUuid (spell n) = some n := by
  unfold readUuid
  rw [hexValue_spell, if_pos rfl]

theorem spell_inj {m n : Nat} (h : spell m = spell n) : m = n := by
  rw [← hexValue_spell m, h, hexValue_spell]

theorem spell_ne_empty (n : Nat) : spell n ≠ "" := by
  intro h
  have hlen := congrArg (fun s => s.toList.length) h
  simp [spell] at hlen

/-! ## Commands -/

def gameJson (g : Game) : Json :=
  .obj [("enabled", .bool g.enabled), ("id", .str g.id.name), ("localManifestId", .str g.localManifestId),
    ("source", .str (match g.source with | .steam => "steam" | .manual => "manual")), ("title", .str g.title)]

def profileJson (p : StreamProfile) : Json :=
  .obj [("fps", .int p.fps), ("height", .int p.height), ("width", .int p.width)]

/-- The payload of a command; an undefined offering is left out. -/
def payloadJson : Command → Json
  | .prepare _ offering roomId durationSeconds prepareDeadline streamProfile =>
    .obj (("durationSeconds", .int durationSeconds) :: (offering.map fun g => ("offering", gameJson g)).toList ++
      [("prepareDeadline", .int prepareDeadline), ("roomId", .str (.ofList (hexDigits 32 roomId.bytes))),
        ("streamProfile", profileJson streamProfile)])
  | .stop _ reason => .obj [("reason", .str reason)]

def commandType : Command → String
  | .prepare .. => "session.prepare"
  | .stop .. => "session.stop"

def commandSession : Command → SessionId
  | .prepare id .. => id
  | .stop id _ => id

/-- What a packet parses to at the host. -/
def packetJson : Packet → Json
  | .ready hostId => .obj [("hostId", .str (spell hostId.uuid)), ("type", .str "control.ready")]
  | .command commandId body => .obj [("commandId", .str (spell commandId.uuid)), ("payload", payloadJson body),
      ("sessionId", .str (spell (commandSession body).uuid)), ("type", .str (commandType body))]

open Runtime in
theorem readCommand_ready (hostId : HostId) :
    readCommand (packetJson (.ready hostId)) = some ⟨"control.ready", "", "", .obj []⟩ := rfl

open Runtime in
theorem readCommand_command (commandId : CommandId) (body : Command) :
    readCommand (packetJson (.command commandId body)) =
      some ⟨commandType body, spell (commandSession body).uuid, spell commandId.uuid, payloadJson body⟩ := rfl

/-! ## Events -/

def readEventType (s : String) : Option EventType :=
  if s = "host.hello" then some .hello
  else if s = "session.launch_ack" then some .launchAck
  else if s = "session.game_ready" then some .gameReady
  else if s = "session.stream_connected" then some .streamConnected
  else if s = "session.ended" then some .ended
  else if s = "session.failed" then some .failed
  else none

/-- The event the gateway's schema reads; `Send` leaves an empty session id out. -/
def readEvent (r : Runtime.Report) : Option HostEvent := do
  let type ← readEventType r.eventType
  let code := r.payload.lookup "code"
  if r.sessionId = "" then return { type := type, sessionId := none, code := code }
  else return { type := type, sessionId := some ⟨← readUuid r.sessionId⟩, code := code }

theorem readEvent_session {eventType commandId : String} {type : EventType} {payload : List (String × String)} (S : SessionId)
    (h : readEventType eventType = some type) :
    readEvent ⟨eventType, spell S.uuid, commandId, payload⟩ =
      some { type := type, sessionId := some S, code := payload.lookup "code" } := by
  unfold readEvent
  rw [h]
  simp [spell_ne_empty]

theorem readEvent_nobody {eventType commandId : String} {type : EventType} {payload : List (String × String)}
    (h : readEventType eventType = some type) :
    readEvent ⟨eventType, "", commandId, payload⟩ = some { type := type, sessionId := none, code := payload.lookup "code" } := by
  unfold readEvent
  rw [h]
  rfl

end Control
end CloudGaming
