import CloudGaming.Signaling.Expiry
import CloudGaming.Signaling.Routing
/-!
# Network — the instances of the signaling server

The connections of any number of instances, with the asynchronous handlers that run on them: each step is a Redis command
with the synchronous code that follows its reply, or an event of a connection.  What is published reaches every instance
(`Task.arrive`).  A handler may also fail at any of its awaits.
-/
namespace CloudGaming
namespace Signaling

open Redis Async

/-- A handler at the await it is in, with what it still needs; the numbers are those of connections.  `late` tells of a
message that its sender had been replaced when `handleMessage` took it up; no handler reads it. -/
inductive Task where
  | setup (n : Nat)
  | ask (n : Nat) (sessionId : String) (data : Json) (late : Bool)
  | limit (n : Nat) (sessionId : Option String) (data : Json) (late : Bool)
  | publish (room : String) (e : Envelope) (late : Bool)
  | arrive (server : Uuid) (room : String) (e : Envelope) (late : Bool)
  | read (server : Uuid) (room : String) (e : Envelope) (leaseOwner roleOwner : Option (Option String)) (late : Bool)
  | leave (n : Nat) (notify : Bool)

/-- A message handed to a connection other than its sender. -/
structure Delivery where
  receiver : Nat
  sender : String
  data : Json
  late : Bool

/-- The history is what has been sent, which clients have been replaced, and whom a notice of a disconnect is owed to. -/
structure Network where
  clock : Clocked := {}
  sockets : List Socket := []
  tasks : List Task := []
  sent : List Delivery := []
  replaced : List String := []
  owed : List (Nat × Nat) := []

/-- What happens next: a connection joins, is sent a frame, starts to close, has its `close` event, is drained or congested;
the handler `k` resumes or fails; a heartbeat; the clock. -/
inductive Happening where
  | join (ws : Socket)
  | frame (n : Nat) (tokens : Bool) (frame : Frame)
  | task (k : Nat) (allowed : Bool)
  | fail (k : Nat)
  | closing (n : Nat)
  | close (n : Nat)
  | drain (n : Nat)
  | buffered (n : Nat) (amount : Nat)
  | heartbeat (n : Nat)
  | elapse (now : Nat)

namespace Network

variable (cfg : Config) (servers : List Uuid) (s : Network)

/-- `localRooms.get(room)` on the server. -/
def inRoom (server : Uuid) (room : String) (ws : Socket) : Bool := ws.registered && ws.server = server && ws.room = room

/-- The connections that satisfy `p`, by their numbers. -/
def receivers (p : Nat → Socket → Bool) : List Nat :=
  (s.sockets.zipIdx.filter fun q => p q.2 q.1).map Prod.snd

def update (n : Nat) (f : Socket → Socket) : Network := { s with sockets := s.sockets.modify n f }

/-- The handler `k` ends or goes on as another task. -/
def next (k : Nat) (ts : List Task) : Network := { s with tasks := s.tasks.eraseIdx k ++ ts }

/-- Whom a take-over by `x` replaces. -/
def replaces (x : Client) : List String :=
  match (s.clock.db.roles.get (x.room, x.role)).bind matchRole with
  | some (_, existingClient) => [existingClient]
  | none => []

/-- `LUA_JOIN` of a new connection; where it is joined, its continuation is due. -/
def joinRoom (ws : Socket) : Option Network :=
  let x := ws.client
  (s.clock.step cfg.roomTtlSeconds cfg.roomCapacity (.join x)).map fun clock =>
    if 1 ≤ (luaJoin s.clock.now cfg.roomTtlSeconds cfg.roomCapacity x s.clock.db).1 then
      { s with
        clock
        sockets := s.sockets ++ [⟨ws.uid, ws.room, ws.who, ws.server, ws.roomOk, true, false, false, 0, none⟩]
        tasks := s.tasks ++ [.setup s.sockets.length]
        replaced := s.replaced ++ s.replaces x }
    else { s with clock }

/-- A connection of the same role and owner on this instance is closed. -/
def closeReplaced (ws existing : Socket) : Socket :=
  if inRoom ws.server ws.room existing && existing.role = ws.role && existing.who.roleOwner = ws.who.roleOwner then
    { existing with isOpen := false }
  else existing

def setup (k n : Nat) (ws : Socket) : Network :=
  if ws.isOpen then
    { (s.next k []) with
      sockets := (s.sockets.map (closeReplaced ws)).modify n fun ws => { ws with registered := true } }
  else s.next k [.leave n false]

/-- `handleMessage`, up to its first await. -/
def receive (n : Nat) (tokens : Bool) (frame : Frame) (ws : Socket) : Network :=
  let late := s.replaced.contains ws.clientId
  match screen cfg ws (s.sockets.filter (inRoom ws.server ws.room)) tokens frame with
  | .drop | .schemaError => s
  | .close => s.update n fun ws => { ws with isOpen := false }
  | .ask sid data => { s with tasks := s.tasks ++ [.ask n sid data late] }
  | .pass sid data =>
    let s := if cfg.enableSessionAuth && ws.role = .host then s.update n fun ws => { ws with currentSessionId := sid }
      else s
    { s with tasks := s.tasks ++ [.limit n sid data late] }

/-- The role key of the player is of the session. -/
def knows (sid : String) : Option String → Bool
  | some owner => (sid ++ "|").toList.isPrefixOf owner.toList
  | none => false

/-- The role key of the player has been read. -/
def answer (k n : Nat) (sid : String) (data : Json) (late : Bool) (ws : Socket) : Network :=
  if knows sid (s.clock.db.roles.get (ws.room, .player)) then
    (s.update n fun ws => { ws with currentSessionId := some sid }).next k [.limit n (some sid) data late]
  else s.next k []

/-- The other connections of the room on the sender's instance that are sent its message. -/
def localReceivers (n : Nat) (ws : Socket) (sid : Option String) : List Nat :=
  s.receivers fun m peer => m ≠ n && inRoom ws.server ws.room peer && localReceives cfg ws sid peer

/-- The rate limiters have answered: local fan-out, and the message is to be published. -/
def fanOut (k n : Nat) (sid : Option String) (data : Json) (late : Bool) (ws : Socket) : Network :=
  { (s.next k [.publish ws.room (envelope ws sid data) late]) with
    sent := s.sent ++ (s.localReceivers cfg n ws sid).map fun m => ⟨m, ws.clientId, data, late⟩ }

/-- A congested connection that would be sent the message is closed. -/
def shed (server : Uuid) (room : String) (e : Envelope) (client : Socket) : Socket :=
  if inRoom server room client && (client.clientId ≠ e.senderId && client.isOpen && client.hostId = e.hostId &&
      shouldRoute cfg e.senderRole e.sessionId client && client.bufferedAmount > cfg.backpressureCloseThresholdBytes) then
    { client with isOpen := false }
  else client

/-- The end of `handleRedisMessage`. -/
def relay (k : Nat) (server : Uuid) (room : String) (e : Envelope) (leaseOwner roleOwner : Option String) (late : Bool) :
    Network :=
  if e.vouched leaseOwner roleOwner then
    { (s.next k []) with
      sockets := s.sockets.map (shed cfg server room e)
      sent := s.sent ++ (s.receivers fun _ client => inRoom server room client && redisReceives cfg e client).map
        fun m => ⟨m, e.senderId, e.data, late⟩ }
  else s.next k []

/-- `ws.sessionId || ws.currentSessionId`. -/
def disconnectSessionId (ws : Socket) : Option String := ws.sessionId <|> ws.currentSessionId

def notice (sid : String) : Json := .obj [("type", .str "peer-disconnected"), ("sessionId", .str sid)]

/-- The clients that remain in the room with a lease, and that a message of `ws` is routed to. -/
def remaining (n : Nat) (ws : Socket) (sid : String) : List Nat :=
  s.receivers fun m peer => m ≠ n && peer.room = ws.room && (peer.client ∈ s.clock.roster.present : Bool) &&
    s.clock.db.live peer.clientId && shouldRoute cfg ws.role (some sid) peer

/-- `LUA_LEAVE`, and the notice that follows it. -/
def leaveRoom (k n : Nat) (notify : Bool) (ws : Socket) : Option Network :=
  (s.clock.step cfg.roomTtlSeconds cfg.roomCapacity (.leave ws.client)).map fun clock =>
    match notify, disconnectSessionId ws with
    | true, some sid =>
      { (s.next k [.publish ws.room (envelope ws (some sid) (notice sid)) false]) with
        clock
        owed := s.owed ++ (s.remaining cfg n ws sid).map (n, ·) }
    | _, _ => { (s.next k []) with clock }

/-- A handler goes on by one await; `allowed` is the answer of the rate limiters. -/
def resume (k : Nat) (allowed : Bool) : Task → Option Network
  | .setup n => (s.sockets[n]?).map fun ws => s.setup k n ws
  | .ask n sid data late => (s.sockets[n]?).map fun ws => s.answer k n sid data late ws
  | .limit n sid data late =>
    (s.sockets[n]?).map fun ws => if allowed then s.fanOut cfg k n sid data late ws else s.next k []
  | .publish room e late => some (s.next k (servers.map fun server => .arrive server room e late))
  | .arrive server room e late =>
    some (if e.admitted server room then s.next k [.read server room e none none late] else s.next k [])
  | .read server room e none roleOwner late =>
    some (s.next k [.read server room e (some (s.clock.db.leases.get e.senderId)) roleOwner late])
  | .read server room e (some leaseOwner) none late =>
    some (s.next k [.read server room e (some leaseOwner) (some (s.clock.db.roles.get (room, e.senderRole))) late])
  | .read server room e (some leaseOwner) (some roleOwner) late =>
    some (s.relay cfg k server room e leaseOwner roleOwner late)
  | .leave n notify => (s.sockets[n]?).bind fun ws => s.leaveRoom cfg k n notify ws

def step : Happening → Option Network
  | .join ws => if ws.server ∈ servers then s.joinRoom cfg ws else none
  | .frame n tokens frame =>
    (s.sockets[n]?).bind fun ws =>
      if ws.registered || ws.disconnected then some (s.receive cfg n tokens frame ws) else none
  | .task k allowed => (s.tasks[k]?).bind (s.resume cfg servers k allowed)
  | .fail k => some (s.next k [])
  | .closing n => some (s.update n fun ws => { ws with isOpen := false })
  | .close n =>
    (s.sockets[n]?).bind fun ws =>
      if ws.registered then
        some { (s.update n fun ws => { ws with isOpen := false, registered := false, disconnected := true }) with
          tasks := s.tasks ++ [.leave n true] }
      else none
  | .drain n =>
    (s.sockets[n]?).bind fun ws =>
      if ws.registered then
        some { (s.update n fun ws => { ws with isOpen := false }) with tasks := s.tasks ++ [.leave n false] }
      else none
  | .buffered n amount => some (s.update n fun ws => { ws with bufferedAmount := amount })
  | .heartbeat n =>
    (s.sockets[n]?).bind fun ws =>
      if ws.isOpen then
        (s.clock.step cfg.roomTtlSeconds cfg.roomCapacity (.heartbeat ws.client)).map fun clock => { s with clock }
      else none
  | .elapse now =>
    (s.clock.step cfg.roomTtlSeconds cfg.roomCapacity (.elapse now)).map fun clock => { s with clock }

end Network

end Signaling
end CloudGaming
