import CloudGaming.Host.Json
/-!
# Signaling — the session manager, the stream profile manager, and which signaling messages are well formed
-/
namespace CloudGaming
namespace Host

/-! ## The session manager -/

namespace SessionManager

inductive State where
  | idle | pairing | authorized | connected | reconnecting | terminating | failed
  deriving DecidableEq, Repr

end SessionManager

structure SessionManager where
  state : SessionManager.State := .idle
  sessionId : String := ""
  failureReason : String := ""
  deriving DecidableEq

namespace SessionManager

def isIdCharacter (c : Char) : Bool := c.isAlphanum || c = '-' || c = '_'

/-- `Authorize`, which refuses an id of the wrong size or with other characters. -/
def authorize (m : SessionManager) (sessionId : String) : Bool × SessionManager :=
  if sessionId.utf8ByteSize < 16 || sessionId.utf8ByteSize > 128 || !sessionId.toList.all isIdCharacter then (false, m)
  else (true, ⟨.authorized, sessionId, ""⟩)

def accepts (m : SessionManager) (sessionId : String) : Bool :=
  m.sessionId ≠ "" && m.sessionId = sessionId && m.state ≠ .terminating && m.state ≠ .idle

def markConnected (m : SessionManager) (sessionId : String) : SessionManager :=
  if m.sessionId = sessionId then { m with state := .connected } else m

def markReconnecting (m : SessionManager) : SessionManager :=
  if m.sessionId ≠ "" then { m with state := .reconnecting } else m

def terminate (_ : SessionManager) (reason : String) : SessionManager := ⟨.idle, "", reason⟩

end SessionManager

/-! ## The stream profile manager -/

structure Profile where
  width : Int := 1920
  height : Int := 1080
  fps : Int := 60
  bitrate : Int := 8000000
  deriving DecidableEq

structure ClientCapabilities where
  maxWidth : Int := 0
  maxHeight : Int := 0
  maxFps : Int := 0
  maxBitrate : Int := 0
  h264 : Bool := false

namespace StreamProfileManager

inductive State where
  | configured | pending | active | rejected
  deriving DecidableEq, Repr

end StreamProfileManager

structure StreamProfileManager where
  allow120Fps : Bool := false
  minBitrate : Int := 500000
  maxBitrate : Int := 50000000
  operatorDefault : Profile := {}
  requested : Option Profile := none
  pending : Option Profile := none
  active : Option Profile := none
  requestedBySession : String := ""
  rejectionReason : String := ""
  state : StreamProfileManager.State := .configured
  generation : Nat := 0
  deriving DecidableEq

namespace StreamProfileManager

def isSupported (m : StreamProfileManager) (profile : Profile) : Except String Unit := do
  unless (profile.width, profile.height) ∈ [((1280 : Int), (720 : Int)), (1920, 1080), (2560, 1440)] do
    throw "unsupported resolution (allowed: 720p, 1080p, 1440p)"
  unless profile.fps = 30 || profile.fps = 60 || (m.allow120Fps && profile.fps = 120) do
    throw "unsupported frame rate (allowed: 30/60, or configured 120)"
  if profile.bitrate < m.minBitrate || profile.bitrate > m.maxBitrate then
    throw "bitrate outside configured limits"

/-- What is wrong with a request. -/
def refusal (m : StreamProfileManager) (sessionId : String) (profile : Profile) (capabilities : ClientCapabilities) :
    Except String Unit := do
  if sessionId = "" then throw "missing authorized session"
  if !capabilities.h264 then throw "client did not advertise H.264 support"
  if capabilities.maxWidth < profile.width || capabilities.maxHeight < profile.height ||
      capabilities.maxFps < profile.fps || capabilities.maxBitrate < profile.bitrate then
    throw "requested profile exceeds client capabilities"
  m.isSupported profile

/-- `Request`, with the error of a request that is refused. -/
def request (m : StreamProfileManager) (sessionId : String) (profile : Profile) (capabilities : ClientCapabilities) :
    Except String Unit × StreamProfileManager :=
  match m.refusal sessionId profile capabilities with
  | .ok () =>
    (.ok (), { m with
      requested := some profile
      pending := some profile
      requestedBySession := sessionId
      rejectionReason := ""
      state := .pending
      generation := (m.generation + 1) % 2 ^ 64 })
  | .error e =>
    (.error e, { m with
      requested := some profile
      pending := none
      requestedBySession := sessionId
      rejectionReason := e
      state := .rejected
      generation := (m.generation + 1) % 2 ^ 64 })

/-- `ClearSession`: back to the operator's default, where the session made the last request. -/
def clearSession (m : StreamProfileManager) (sessionId : String) : StreamProfileManager :=
  if m.requestedBySession ≠ sessionId then m
  else { m with
    requested := some m.operatorDefault
    pending := some m.operatorDefault
    requestedBySession := ""
    rejectionReason := ""
    state := .pending
    generation := (m.generation + 1) % 2 ^ 64 }

/-- Clearing a session changes nothing exactly when the session did not make the last request. -/
theorem clearSession_eq_iff {m : StreamProfileManager} {sessionId : String} (hs : sessionId ≠ "") :
    m.clearSession sessionId = m ↔ m.requestedBySession ≠ sessionId := by
  unfold clearSession
  refine ⟨fun h heq => ?_, fun h => if_pos h⟩
  rw [if_neg (not_not.2 heq)] at h
  have := congrArg requestedBySession h
  dsimp only at this
  exact hs (this.trans heq).symm

end StreamProfileManager

/-! ## The schema -/

namespace SignalingSchema

def hasOnly (value : Json) (fields : List String) : Bool :=
  match value with
  | .obj members => members.length ≤ fields.length && members.all (·.1 ∈ fields)
  | _ => false

def isHexDigit (c : Char) : Bool := c.isDigit || ('a' ≤ c && c ≤ 'f') || ('A' ≤ c && c ≤ 'F')

/-- The characters of a session id, dashes at their places. -/
def isSessionIdText : List Char → Nat → Bool
  | [], i => i = 36
  | c :: cs, i => (if i ∈ [8, 13, 18, 23] then c = '-' else isHexDigit c) && isSessionIdText cs (i + 1)

def isSessionId (value : Json) : Bool := value.str?.any fun id => isSessionIdText id.toList 0

def isIntInRange (value : Json) (minimum maximum : Int) : Bool :=
  value.isInteger && value.int64?.any fun n => minimum ≤ n && n ≤ maximum

/-- The field is there and passes the test. -/
def has (message : Json) (key : String) (test : Json → Bool) : Bool := (message.field? key).any test

/-- The field passes the test, where it is there. -/
def hasOptional (message : Json) (key : String) (test : Json → Bool) : Bool := (message.field? key).all test

def isText (maximum : Nat) (value : Json) : Bool := value.str?.any (·.utf8ByteSize ≤ maximum)

def isNonemptyText (maximum : Nat) (value : Json) : Bool :=
  value.str?.any fun s => s ≠ "" && s.utf8ByteSize ≤ maximum

def offerShape (m : Json) : Bool :=
  hasOnly m ["type", "sessionId", "sdp"] && has m "sessionId" isSessionId && has m "sdp" (isNonemptyText (256 * 1024))

def candidateShape (m : Json) : Bool :=
  hasOnly m ["type", "sessionId", "candidate", "sdpMid", "sdpMLineIndex"] && has m "sessionId" isSessionId &&
    has m "candidate" (isNonemptyText 4096) && hasOptional m "sdpMid" (isText 64) &&
    hasOptional m "sdpMLineIndex" (isIntInRange · 0 64)

def profileShape (m : Json) : Bool :=
  hasOnly m ["type", "sessionId", "width", "height", "fps", "bitrate", "capabilities"] &&
    has m "sessionId" isSessionId && has m "width" (isIntInRange · 640 3840) &&
    has m "height" (isIntInRange · 360 2160) && has m "fps" (isIntInRange · 30 120) &&
    has m "bitrate" (isIntInRange · 500000 50000000) && has m "capabilities" Json.isObject

def capabilitiesShape (caps : Json) : Bool :=
  hasOnly caps ["maxWidth", "maxHeight", "maxFps", "maxBitrate", "h264"] &&
    has caps "maxWidth" (isIntInRange · 640 7680) && has caps "maxHeight" (isIntInRange · 360 4320) &&
    has caps "maxFps" (isIntInRange · 30 240) && has caps "maxBitrate" (isIntInRange · 500000 100000000) &&
    has caps "h264" Json.isBoolean

def controlShape (m : Json) : Bool :=
  hasOnly m ["type", "sessionId", "action", "payload"] && has m "action" (isText 64) &&
    hasOptional m "sessionId" isSessionId && hasOptional m "payload" (fun p => p.isObject && p.size ≤ 16)

def actions : List String :=
  ["terminate", "replace", "profile-request", "profile-accepted", "profile-rejected", "schema-error", "session-ready",
    "ping"]

def disconnectShape (m : Json) : Bool := hasOnly m ["type", "sessionId"] && hasOptional m "sessionId" isSessionId

def messageType? (message : Json) : Option String := (message.field? "type").bind Json.str?

def validate (message : Json) : Except String Unit :=
  match messageType? message with
  | none => throw "message must be an object with a string type"
  | some "offer" => if offerShape message then pure () else throw "invalid offer"
  | some "candidate" => if candidateShape message then pure () else throw "invalid candidate"
  | some "stream-profile" => do
    unless profileShape message do throw "invalid stream profile"
    unless has message "capabilities" capabilitiesShape do throw "invalid stream capabilities"
  | some "control" => do
    unless controlShape message do throw "invalid control message"
    unless has message "action" (·.str?.any (· ∈ actions)) do throw "unknown control action"
  | some "peer-disconnected" => if disconnectShape message then pure () else throw "invalid disconnect notification"
  | some _ => throw "unsupported signaling type"

end SignalingSchema

end Host
end CloudGaming
