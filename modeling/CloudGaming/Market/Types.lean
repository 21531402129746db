import CloudGaming.Redis
import Mathlib.Algebra.Order.Ring.Rat
/-!
# Types — the records of the marketplace

Hosts, games, presences and sessions as the matchmaker stores them, and the commands and events that cross a control
socket.  A UUID is the number its lower-case spelling denotes, so the lexicographic order of the spellings is the order
of the numbers.  Fields of a record that no handler reads are left out.
-/
namespace CloudGaming
namespace Market

structure HostId where
  uuid : Nat
  deriving DecidableEq, Repr

structure SessionId where
  uuid : Nat
  deriving DecidableEq, Repr

instance : LE HostId := ⟨fun a b => a.uuid ≤ b.uuid⟩
instance : LE SessionId := ⟨fun a b => a.uuid ≤ b.uuid⟩
instance : DecidableLE HostId := fun a b => Nat.decLe a.uuid b.uuid
instance : DecidableLE SessionId := fun a b => Nat.decLe a.uuid b.uuid

structure CommandId where
  uuid : Nat
  deriving DecidableEq, Repr

/-- Sixteen random bytes. -/
structure RoomId where
  bytes : Nat
  deriving DecidableEq, Repr

/-- The subject of an authenticated player. -/
structure PlayerId where
  sub : String
  deriving DecidableEq, Repr

/-- `steam:<appid>` or `manual:<slug>`. -/
structure GameId where
  name : String
  deriving DecidableEq, Repr

inductive GameSource where
  | steam | manual
  deriving DecidableEq, Repr

structure Game where
  id : GameId
  source : GameSource
  title : String
  localManifestId : String
  enabled : Bool
  deriving DecidableEq, Repr

inductive HostState where
  | idle | reserved | preparing | ready | streaming | cleaning | failed
  deriving DecidableEq, Repr

structure Network where
  probeRegion : String
  probeRttMs : ℚ
  deriving DecidableEq

/-- A presence that `PresenceSchema` accepted. -/
structure Presence where
  hostId : HostId
  state : HostState
  games : List Game
  network : Option Network

/-- The record of a host, as the Lua scripts write it. -/
structure HostRecord where
  hostId : HostId
  state : HostState
  games : List Game
  network : Option Network
  lastSeenAt : Nat
  sessionId : Option SessionId := none
  failureCount : Option Nat := none

structure Probe where
  region : String
  rttMs : ℚ
  deriving DecidableEq

structure StreamProfile where
  width : Nat
  height : Nat
  fps : Nat
  deriving DecidableEq, Repr

/-- A request that `SessionRequestSchema` accepted. -/
structure SessionRequest where
  gameId : GameId
  durationSeconds : Nat
  streamProfile : StreamProfile
  probes : List Probe
  duration_min : 300 ≤ durationSeconds
  duration_max : durationSeconds ≤ 8 * 60 * 60

inductive SessionState where
  | allocating | reserved | preparing | ready | active | ending | ended | failed
  deriving DecidableEq, Repr

namespace SessionState

/-- `['ended', 'failed'].includes(state)`. -/
def terminal : SessionState → Bool
  | ended | failed => true
  | _ => false

/-- `['reserved', 'preparing'].includes(state)`. -/
def launching : SessionState → Bool
  | reserved | preparing => true
  | _ => false

/-- `['reserved', 'preparing', 'ready'].includes(state)`. -/
def connectable : SessionState → Bool
  | reserved | preparing | ready => true
  | _ => false

/-- `['active', 'ending'].includes(state)`. -/
def started : SessionState → Bool
  | active | ending => true
  | _ => false

end SessionState

structure Session where
  id : SessionId
  playerId : PlayerId
  gameId : GameId
  durationSeconds : Nat
  streamProfile : StreamProfile
  state : SessionState
  roomId : RoomId
  probes : List Probe
  attemptedHostIds : List HostId
  createdAt : Nat
  updatedAt : Nat
  hostId : Option HostId := none
  commandId : Option CommandId := none
  prepareDeadlineAt : Option Nat := none
  failureCode : Option String := none
  startsAt : Option Nat := none
  endsAt : Option Nat := none
  endedAt : Option Nat := none
  deriving DecidableEq

/-- A command the matchmaker sends to a host, without its `commandId`. -/
inductive Command where
  | prepare (sessionId : SessionId) (offering : Option Game) (roomId : RoomId) (durationSeconds : Nat)
      (prepareDeadline : Nat) (streamProfile : StreamProfile)
  | stop (sessionId : SessionId) (reason : String)

/-- What a control socket carries towards the host. -/
inductive Packet where
  | ready (hostId : HostId)
  | command (commandId : CommandId) (body : Command)

inductive EventType where
  | hello | launchAck | gameReady | streamConnected | ended | failed
  deriving DecidableEq, Repr

/-- A host event that the gateway's schema accepted; `code` is the payload's. -/
structure HostEvent where
  type : EventType
  sessionId : Option SessionId
  code : Option String := none
  deriving DecidableEq

/-- A control socket the gateway accepted: whether it is open, whether more than 64 KiB wait to be sent, and what was
handed to it. -/
structure Socket where
  isOpen : Bool
  congested : Bool
  outbox : List Packet

/-! ## Pure helpers of the orchestration -/

/-- `Math.max(86400, seconds + 3600)`. -/
def sessionTtl (seconds : Nat) : Nat := max 86400 (seconds + 3600)

def hostScore (host : HostRecord) (probes : List Probe) : ℚ :=
  let latency := match host.network with
    | none => 200
    | some network => match probes.find? (·.region = network.probeRegion) with
      | some probe => probe.rttMs + network.probeRttMs
      | none => 200
  latency + (host.failureCount.getD 0) * 25

/-- The session of a request, with the id and the room drawn for it. -/
def newSession (id : SessionId) (roomId : RoomId) (createdAt : Nat) (playerId : PlayerId) (request : SessionRequest) :
    Session where
  id := id
  playerId := playerId
  gameId := request.gameId
  durationSeconds := request.durationSeconds
  streamProfile := request.streamProfile
  state := .allocating
  roomId := roomId
  probes := request.probes
  attemptedHostIds := []
  createdAt := createdAt
  updatedAt := createdAt

end Market
end CloudGaming
