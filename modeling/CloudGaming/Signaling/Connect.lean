import CloudGaming.Async.Among
import CloudGaming.Signaling.Tokens
/-!
# Connect — setting up a connection

`handleNewConnection` as a program over the store and the sockets of all instances.  `Outside` is what others write as
well: the rooms, the keys of the matchmaker, the counters, what a JWT verifies to.  A socket has a `Line`, on which frames
arrive from the moment it is open; a frame without a listener is discarded.  The fields `claimed`, `seated`, `arrived`,
`early`, `passed` and `overflowed` are history.
-/
namespace CloudGaming
namespace Signaling
namespace Setup

open Async Redis

/-! ## Sockets -/

/-- A socket.  `waiting` are the frames in its message chain, `busy` while `handleMessage` works on one; `arrived` are all
frames, `early` counts those that found no listener, `passed` are those `handleMessage` was called with. -/
structure Line where
  isOpen : Bool := true
  closedDuringSetup : Bool := false
  refusal : Option Refusal := none
  joined : Bool := false
  listeners : Nat := 0
  waiting : List String := []
  busy : Bool := false
  arrived : List String := []
  early : Nat := 0
  passed : List String := []
  overflowed : Bool := false

namespace Line

variable (l : Line)

def close (refusal : Refusal) : Line :=
  { l with isOpen := false, refusal := if l.isOpen then some refusal else l.refusal }

def pendingMessages : Nat := l.waiting.length + if l.busy then 1 else 0

/-- The `message` listener. -/
def receive (message : String) : Line :=
  if l.pendingMessages ≥ 64 then { l.close ⟨1013, "Too many pending messages"⟩ with overflowed := true }
  else { l with waiting := l.waiting ++ [message] }

/-- A frame arrives: every listener is called with it. -/
def arrive (message : String) : Line :=
  (fun l => l.receive message)^[l.listeners]
    { l with arrived := l.arrived ++ [message], early := if l.listeners = 0 then l.early + 1 else l.early }

/-- The chain goes on with the next frame. -/
def take : Line :=
  match l.busy, l.waiting with
  | false, message :: waiting => { l with busy := true, waiting, passed := l.passed ++ [message] }
  | _, _ => l

def finish : Line := { l with busy := false }

end Line

/-! ## The world -/

structure Circuit where
  failureCount : Nat := 0
  openUntil : Nat := 0

structure Outside where
  rooms : Rooms
  strings : String → Option String
  counts : String → Nat
  fallback : Bool
  jwt : String → Option Json
  randomUuid : Uuid
  circuits : Uuid → Circuit

/-- A registered connection: what the others see of it. -/
structure Member where
  socket : Nat
  server : Uuid
  room : Room
  who : Identity

/-- A token that was claimed or joined with, and the socket of the attempt. -/
structure Presented where
  claims : PairingClaims
  socket : Nat
  deriving DecidableEq

structure World where
  now : Nat
  outside : Outside
  used : Keys String fun _ => String
  lines : Nat → Line
  localRooms : List Member
  claimed : List Presented
  seated : List Presented

namespace World

variable (w : World)

def updateLine (socket : Nat) (f : Line → Line) : World :=
  { w with lines := Function.update w.lines socket (f (w.lines socket)) }

/-- `SET pairing-used:<jti> 1 NX PX ttl`. -/
def claim (claims : PairingClaims) (socket ttlMs : Nat) : World :=
  if (w.used.get claims.jti.text).isSome then w
  else { w with
    used := w.used.set claims.jti.text "1" (w.now + ttlMs)
    claimed := ⟨claims, socket⟩ :: w.claimed }

/-- The connection that is replaced by `m`. -/
def replaces (m existing : Member) : Bool :=
  existing.server = m.server && existing.room = m.room && existing.who.role = m.who.role &&
    existing.who.roleOwner = m.who.roleOwner

/-- The connection becomes a member of its room on its instance; those it replaces are closed. -/
def register (m : Member) (claims : Option PairingClaims) : World :=
  { w with
    lines := fun socket =>
      let line := if w.localRooms.any (fun existing => existing.socket = socket && replaces m existing) then
        (w.lines socket).close ⟨1000, "Replaced by authenticated reconnect"⟩ else w.lines socket
      if socket = m.socket then { line with joined := true } else line
    localRooms := m :: w.localRooms
    seated := (claims.map fun claims => ⟨claims, m.socket⟩).toList ++ w.seated }

end World

/-! ## Commands and calls -/

inductive Cmd where
  | increment (ip : String)
  | get (key : String)
  | jwtVerify (token : String)
  | claim (claims : PairingClaims) (socket ttlMs : Nat)
  | join (x : Client)
  | leave (x : Client)

@[reducible] def Cmd.Reply : Cmd → Type
  | increment _ => Nat
  | get _ => Option String
  | jwtVerify _ => Option Json
  | claim .. => Bool
  | join _ => Int
  | leave _ => Nat

inductive Call where
  | dateNow
  | randomUuid
  | allowFallback
  | verifySync (token : String)
  | circuit (server : Uuid)
  | noteRedis (server : Uuid) (succeeded : Bool)
  | close (socket : Nat) (refusal : Refusal)
  | isOpen (socket : Nat)
  | register (m : Member) (claims : Option PairingClaims)
  | listen (socket : Nat)

@[reducible] def Call.Answer : Call → Type
  | dateNow => Nat
  | randomUuid => Uuid
  | allowFallback => Bool
  | verifySync _ => Option Json
  | circuit _ => Circuit
  | isOpen _ => Bool
  | _ => Unit

@[reducible] def sig : Sig := ⟨Cmd, Cmd.Reply, Call, Call.Answer⟩

abbrev Js (α : Type) := Prog sig α

abbrev await (c : Cmd) : Js c.Reply := Prog.send (σ := sig) c

abbrev invoke (o : Call) : Js o.Answer := Prog.invoke (σ := sig) o

variable (node : Node) (cfg : ServerConfig)

def setRooms (w : World) (rooms : Rooms) : World := { w with outside := { w.outside with rooms } }

def exec : (c : Cmd) → World → c.Reply × World
  | .increment ip, w =>
    (w.outside.counts ip + 1,
      { w with outside := { w.outside with counts := Function.update w.outside.counts ip (w.outside.counts ip + 1) } })
  | .get key, w => (w.outside.strings key, w)
  | .jwtVerify token, w => (w.outside.jwt token, w)
  | .claim claims socket ttlMs, w => ((w.used.get claims.jti.text).isNone, w.claim claims socket ttlMs)
  | .join x, w =>
    let joined := luaJoin w.now cfg.roomTtlSeconds cfg.roomCapacity x w.outside.rooms
    (joined.1, setRooms w joined.2)
  | .leave x, w => ((luaLeave x w.outside.rooms).1, setRooms w (luaLeave x w.outside.rooms).2)

/-- `noteRedisSuccess` and `noteRedisFailure`. -/
def Circuit.note (now : Nat) (c : Circuit) (succeeded : Bool) : Circuit :=
  if succeeded then { failureCount := 0, openUntil := if c.openUntil ≤ now then 0 else c.openUntil }
  else
    { failureCount := c.failureCount + 1
      openUntil := if c.failureCount + 1 ≥ cfg.cbErrorThreshold then now + cfg.cbOpenMs else c.openUntil }

def call : (o : Call) → World → o.Answer × World
  | .dateNow, w => (w.now, w)
  | .randomUuid, w => (w.outside.randomUuid, w)
  | .allowFallback, w => (w.outside.fallback, w)
  | .verifySync token, w => (w.outside.jwt token, w)
  | .circuit server, w => (w.outside.circuits server, w)
  | .noteRedis server succeeded, w =>
    ((), { w with outside := { w.outside with
      circuits := Function.update w.outside.circuits server ((w.outside.circuits server).note cfg w.now succeeded) } })
  | .close socket refusal, w => ((), w.updateLine socket (·.close refusal))
  | .isOpen socket, w => (!(w.lines socket).closedDuringSetup && (w.lines socket).isOpen, w)
  | .register m claims, w => ((), w.register m claims)
  | .listen socket, w => ((), w.updateLine socket fun l => { l with listeners := l.listeners + 1 })

def machine : Machine sig World := ⟨exec cfg, call cfg⟩

/-! ## handleNewConnection -/

/-- The connection is closed and the setup returns. -/
def refuse {α : Type} (request : Request) (refusal : Refusal) : Js (Option α) := do
  invoke (.close request.socket refusal)
  return none

/-- `rateLimiter.allow`. -/
def allow (ip : String) : Js Bool :=
  Prog.tryCatch (do
    let count ← await (.increment ip)
    return decide (count ≤ cfg.rateLimitConnPer10s))
  (if cfg.production then return false else invoke .allowFallback)

/-- A connection that has been authenticated, with the claims of its pairing token. -/
structure Admission where
  room : Room
  who : Identity
  claims : Option PairingClaims := none

/-- Whether the session a host is leased for runs in the room; `none` is a text that is no JSON, or `null`. -/
def marketplaceRoom (hostId : String) (room : Room) (rawSession : String) : Option Bool :=
  match node.parse rawSession with
  | none | some .null => none
  | some session =>
    some ((session.field? "hostId").bind Json.str? = some hostId && (session.field? "roomId").bind Json.str? = some room.text &&
      !(["ended", "failed"].map some).contains ((session.field? "state").bind Json.str?))

/-- The marketplace session of the host, where its registered room is another one. -/
def findMarketplaceRoom (hostId : String) (room : Room) : Js Bool := do
  let lease ← await (.get ("market:host-lease:" ++ hostId))
  match lease with
  | none => return false
  | some lease =>
    let rawSession ← await (.get ("market:session:" ++ lease))
    match rawSession with
    | none => return false
    | some rawSession =>
      match marketplaceRoom node hostId room rawSession with
      | none => Prog.throw
      | some found => return found

/-- Whether the host may host the room. -/
def hostsRoom (hostId : String) (room : Room) (registeredRoom : Option String) : Js Bool :=
  if registeredRoom = some room.text then return true else findMarketplaceRoom node hostId room

def admitHost (request : Request) (m : Metadata) : Js (Option Admission) :=
  match readUuid m.hostIdParameter with
  | none => refuse request ⟨1008, "Unauthorized host"⟩
  | some hostId =>
    if !hostCredentialValid cfg m.hostIdParameter (bearerToken request.authorization) then
      refuse request ⟨1008, "Unauthorized host"⟩
    else do
      let registeredRoom ← await (.get ("host-room:" ++ m.hostIdParameter))
      let registered ← hostsRoom node m.hostIdParameter m.room registeredRoom
      if registered then return some { room := m.room, who := .host hostId }
      else refuse request ⟨1008, "Host is not registered for this room"⟩

def admitPlayer (request : Request) (m : Metadata) : Js (Option Admission) := do
  let now ← invoke .dateNow
  match verifyPairingToken node cfg (extractProtocolCredential request.protocols "cg-pairing.") now with
  | none => refuse request ⟨1008, "Invalid or expired pairing token"⟩
  | some claims =>
    if claims.roomId ≠ m.room.text then refuse request ⟨1008, "Invalid or expired pairing token"⟩
    else return some { room := m.room, who := .player claims.sessionId claims.hostId, claims := some claims }

def admitInDevelopment (m : Metadata) : Js (Option Admission) :=
  match m.role with
  | .host => return some { room := m.room, who := .host (hostIdOfRoom m.room) }
  | .player => do
    let sessionId ← invoke .randomUuid
    return some { room := m.room, who := .player sessionId (hostIdOfRoom m.room) }

/-- Whether the payload of an access token authorizes a player for the room. -/
def authorizes (room : Room) (payload : Json) : Bool :=
  let validSub := ((payload.field? "sub").bind Json.str?).any fun sub => 1 ≤ utf16Length sub && utf16Length sub ≤ 128
  let allowedRooms := ((payload.field? cfg.roomsClaim).bind Json.arr?).any fun rooms => rooms.length ≤ 32 &&
    rooms.all (fun value => value.str?.any validateRoomId) && rooms.any fun value => value.str? = some room.text
  validSub && (payload.field? "role").bind Json.str? = some "player" && allowedRooms

/-- What the access token of a player verifies to; `none` where the verification throws. -/
def verifyAccessToken (token : String) : Js (Option Json) :=
  if cfg.usesJwks then (await (.jwtVerify token)).tryCatch (return none) else invoke (.verifySync token)

/-- The access token of the subprotocol header, or that of the authorization header. -/
def accessToken (request : Request) : String :=
  let token := extractProtocolCredential request.protocols "cg-access."
  if token = "" then bearerToken request.authorization else token

/-- The JWT of a player. -/
def authorize (request : Request) (admission : Admission) : Js (Option Admission) :=
  if !cfg.enableAuth || admission.who.role = .host then return some admission
  else if accessToken request = "" then refuse request ⟨1008, "Unauthorized"⟩
  else do
    let payload ← verifyAccessToken cfg (accessToken request)
    match payload with
    | none => refuse request ⟨1008, "Unauthorized"⟩
    | some payload =>
      if authorizes cfg admission.room payload then return some admission else refuse request ⟨1008, "Forbidden"⟩

/-- Who the connection is, by its credentials. -/
def authenticate (request : Request) (m : Metadata) : Js (Option Admission) :=
  if !cfg.enableSessionAuth then admitInDevelopment m
  else match m.role with
    | .host => admitHost node cfg request m
    | .player => admitPlayer node cfg request m

/-- `handleNewConnection` up to the claim of the pairing token: the circuit, the rate limiter, the metadata and the
credentials.  `none` is an early return. -/
def vet (request : Request) : Js (Option Admission) := do
  let now ← invoke .dateNow
  let circuit ← invoke (.circuit request.server)
  if now < circuit.openUntil then refuse request ⟨1013, "Service unavailable"⟩
  else if !request.wellFormed then refuse request ⟨1008, "Malformed request"⟩
  else
    let allowed ← allow cfg (request.remoteAddress.getD "unknown")
    if !allowed then refuse request ⟨1013, "Rate limited"⟩
    else match readMetadata node cfg request with
      | .error refusal => refuse request refusal
      | .ok m =>
        let admission ← authenticate node cfg request m
        match admission with
        | none => return none
        | some admission => authorize cfg request admission

/-- `Math.max(1, exp - Date.now())`. -/
def remaining (claims : PairingClaims) (now : Nat) : Nat := (max 1 (claims.exp - now)).toNat

/-- The claim of the pairing token: whether the setup goes on. -/
def claimToken (request : Request) (claims : PairingClaims) : Js Bool := do
  let now ← invoke .dateNow
  let claimed ← (do
    let claimed ← await (.claim claims request.socket (remaining claims now))
    return some claimed : Js (Option Bool)).tryCatch (return none)
  match claimed with
  | some true => return true
  | some false =>
    invoke (.close request.socket ⟨1008, "Pairing token already used"⟩)
    return false
  | none =>
    invoke (.close request.socket ⟨1011, "Pairing service unavailable"⟩)
    return false

/-- What the connection joins its room with. -/
def clientOf (admission : Admission) (uuid : Uuid) : Client :=
  ⟨uuid.clientId, admission.room.text, admission.who.role, admission.who.roleOwner.owner⟩

/-- The atomic join: whether the setup goes on. -/
def joinRoom (request : Request) (x : Client) : Js Bool := do
  let result ← (do
    let result ← await (.join x)
    return some result : Js (Option Int)).tryCatch (return none)
  match result with
  | none =>
    invoke (.noteRedis request.server false)
    invoke (.close request.socket ⟨1011, "Internal error"⟩)
    return false
  | some result =>
    invoke (.noteRedis request.server true)
    if result = -1 then
      invoke (.close request.socket ⟨1000, "Room is full"⟩)
      return false
    else if result = -2 then
      invoke (.close request.socket ⟨1008, "Role already connected"⟩)
      return false
    else return true

/-- The token of the `session-ready` message is signed, if the socket is open; the signing throws where a claim is not
well formed. -/
def rotateToken (admission : Admission) (isOpen : Bool) (now : Nat) : Js Unit :=
  if admission.claims.isSome && isOpen && !signable cfg admission.room.text
      ((admission.who.sessionId.map Uuid.text).getD "") admission.who.hostId.text
      (now + cfg.pairingTokenTtlSeconds * 1000) then Prog.throw
  else return ()

/-- The handlers are attached and the connection is a member of its room. -/
def attach (request : Request) (admission : Admission) : Js Unit := do
  invoke (.register ⟨request.socket, request.server, admission.room, admission.who⟩ admission.claims)
  let isOpen ← invoke (.isOpen request.socket)
  let now ← invoke .dateNow
  rotateToken cfg admission isOpen now
  invoke (.listen request.socket)

/-- From the join on. -/
def enterRoom (request : Request) (admission : Admission) : Js Unit := do
  let uuid ← invoke .randomUuid
  let joined ← joinRoom request (clientOf admission uuid)
  if joined then
    let isOpen ← invoke (.isOpen request.socket)
    if !isOpen then
      (do let _ ← await (.leave (clientOf admission uuid))
          return () : Js Unit).tryCatch (return ())
    else attach cfg request admission

def handleNewConnection (request : Request) : Js Unit :=
  Prog.tryCatch (do
    let admission ← vet node cfg request
    match admission with
    | none => return ()
    | some admission =>
      match admission.claims with
      | none => enterRoom cfg request admission
      | some claims =>
        let claimed ← claimToken request claims
        if claimed then enterRoom cfg request admission)
  (invoke (.close request.socket ⟨1011, "Internal server error"⟩))

end Setup
end Signaling
end CloudGaming
