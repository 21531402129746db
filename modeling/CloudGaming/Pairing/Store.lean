import CloudGaming.Async.Interleave
import CloudGaming.Market.Types
/-!
# Store — pairing codes in Redis

Heartbeats publish the pairing code of a host, `POST /api/match/find` exchanges it for a session.  Every Redis command
and every Lua script is one transformation of `World`.  Keys do not expire here, so their TTLs are left out; two codes
have two hashes.  The fields `publisher`, `publishing`, `claimed` and `answered` are history.
-/
namespace CloudGaming
namespace Pairing

open Async Redis
open Market (HostId)

/-- The SHA-256 of a pairing code. -/
structure PairingHash where
  pairingCode : String
  deriving DecidableEq, Repr

def sha256 (pairingCode : String) : PairingHash := ⟨pairingCode⟩

inductive Status where
  | idle | busy | allocated
  deriving DecidableEq, Repr

/-- The record of a host. -/
structure Host where
  hostId : HostId
  roomId : String
  status : Status
  capacity : Nat
  availableSlots : Nat
  deriving DecidableEq, Repr

/-- An exchange: the number of the request, and the code. -/
structure Exchange where
  request : Nat
  pairingHash : PairingHash
  deriving DecidableEq, Repr

structure World where
  hosts : HostId → Option Host := fun _ => none
  idleHosts : List HostId := []
  reservations : HostId → Nat := fun _ => 0
  pairing : PairingHash → Option HostId := fun _ => none
  hostRoom : HostId → Option String := fun _ => none
  consumed : HostId → Option PairingHash := fun _ => none
  -- the host that published a code, and the code of a host's last heartbeat
  publisher : PairingHash → Option HostId := fun _ => none
  publishing : HostId → Option PairingHash := fun _ => none
  claimed : List Exchange := []
  answered : List Exchange := []

open Function (update)

namespace World

/-- The slots a heartbeat leaves. -/
def slots (w : World) (host : Host) : Nat := min host.capacity (host.availableSlots - w.reservations host.hostId)

def statusOf (available : Nat) : Status := if available > 0 then .idle else .busy

/-- `HEARTBEAT_SCRIPT`. -/
def heartbeat (w : World) (host : Host) (pairingHash : PairingHash) : World :=
  let available := w.slots host
  let pairingConsumed := w.consumed host.hostId = some pairingHash
  { w with
    hosts := update w.hosts host.hostId
      (some { host with availableSlots := available, status := statusOf available })
    idleHosts := if available > 0 ∧ ¬pairingConsumed then sadd w.idleHosts host.hostId else srem w.idleHosts host.hostId
    pairing := update w.pairing pairingHash (if available > 0 ∧ ¬pairingConsumed then some host.hostId else none)
    consumed := if pairingConsumed then w.consumed else update w.consumed host.hostId none
    hostRoom := update w.hostRoom host.hostId (some host.roomId)
    publisher := update w.publisher pairingHash (some host.hostId)
    publishing := update w.publishing host.hostId (some pairingHash) }

/-- The host `CLAIM_HOST_SCRIPT` takes a slot of. -/
def claimable (w : World) (h : HostId) : Option Host := (w.hosts h).filter fun host => host.availableSlots > 0

def claimedHost (host : Host) : Host :=
  { host with availableSlots := host.availableSlots - 1, status := statusOf (host.availableSlots - 1) }

/-- `CLAIM_HOST_SCRIPT`, for request `n`. -/
def claim (w : World) (n : Nat) (h : HostId) (pairingHash : PairingHash) : World :=
  match w.claimable h with
  | none => { w with idleHosts := srem w.idleHosts h }
  | some host => { w with
      hosts := update w.hosts h (some (claimedHost host))
      reservations := update w.reservations h (w.reservations h + 1)
      pairing := update w.pairing pairingHash none
      consumed := update w.consumed h (some pairingHash)
      idleHosts := if host.availableSlots - 1 > 0 then sadd w.idleHosts h else srem w.idleHosts h
      claimed := ⟨n, pairingHash⟩ :: w.claimed }

end World

/-! ## The commands -/

inductive Cmd where
  | idleHosts
  | hostTtls (ids : List HostId)
  | remIdleHosts (ids : List HostId)
  | getPairing (pairingHash : PairingHash)
  | claim (n : Nat) (h : HostId) (pairingHash : PairingHash)
  | heartbeat (host : Host) (pairingHash : PairingHash)
  -- the TURN service, outside the store
  | getIceServers

@[reducible] def Cmd.Reply : Cmd → Type
  | idleHosts => List HostId
  | hostTtls _ => List Bool
  | remIdleHosts _ => Unit
  | getPairing _ => Option HostId
  | claim .. => Option Host
  | heartbeat .. => Nat × Bool
  | getIceServers => Unit

/-- `res.json` of a session. -/
inductive Call where
  | found (n : Nat) (pairingHash : PairingHash)

@[reducible] def sig : Sig := ⟨Cmd, Cmd.Reply, Call, fun _ => Unit⟩

/-- `hostTtls` answers whether the key of a host is there. -/
def exec : (c : Cmd) → World → c.Reply × World
  | .idleHosts, w => (w.idleHosts, w)
  | .hostTtls ids, w => (ids.map fun h => (w.hosts h).isSome, w)
  | .remIdleHosts ids, w => ((), { w with idleHosts := ids.foldl srem w.idleHosts })
  | .getPairing pairingHash, w => (w.pairing pairingHash, w)
  | .claim n h pairingHash, w => ((w.claimable h).map World.claimedHost, w.claim n h pairingHash)
  | .heartbeat host pairingHash, w =>
    ((w.slots host, w.consumed host.hostId = some pairingHash), w.heartbeat host pairingHash)
  | .getIceServers, w => ((), w)

def machine : Machine sig World where
  exec := exec
  call | .found n pairingHash, w => ((), { w with answered := ⟨n, pairingHash⟩ :: w.answered })

abbrev Handler (α : Type) := Prog sig α

abbrev send (c : Cmd) : Handler c.Reply := Prog.send (σ := sig) c

/-! ## The handlers -/

inductive Response where
  | invalid | notFound | failed
  | found (roomId : String)
  | heartbeat (rotatePairingCode : Bool)
  deriving DecidableEq, Repr

def isHex (c : Char) : Bool := c.isDigit || ('a' ≤ c && c ≤ 'f') || ('A' ≤ c && c ≤ 'F')

/-- `/^[a-f0-9]{32}$/i`. -/
@[irreducible] def isId (s : String) : Bool := s.length = 32 && s.toList.all isHex

/-- What `trim` removes. -/
def isSpace (c : Char) : Bool :=
  c.toNat ∈ [0x9, 0xa, 0xb, 0xc, 0xd, 0x20, 0xa0, 0x1680, 0x2028, 0x2029, 0x202f, 0x205f, 0x3000, 0xfeff] ||
    (0x2000 ≤ c.toNat && c.toNat ≤ 0x200a)

def trim (s : String) : String := .ofList ((s.toList.dropWhile isSpace).reverse.dropWhile isSpace).reverse

/-- `toLowerCase`, of hexadecimal digits. -/
def toLowerCase (s : String) : String := .ofList (s.toList.map Char.toLower)

structure HeartbeatBody where
  hostId : HostId
  roomId : String
  pairingCode : String
  status : Option Status := none
  capacity : Option Int := none
  availableSlots : Option Int := none

/-- `HeartbeatSchema`. -/
def HeartbeatBody.accepted (b : HeartbeatBody) : Bool :=
  isId b.roomId && isId b.pairingCode && b.capacity.all (fun n => 1 ≤ n && n ≤ 4) &&
    b.availableSlots.all (fun n => 0 ≤ n && n ≤ 4)

/-- The record a heartbeat sends to the script. -/
def HeartbeatBody.host (b : HeartbeatBody) : Host :=
  let capacity := max 1 (b.capacity.getD 1)
  let availableSlots := max 0 (min capacity (b.availableSlots.getD capacity))
  { hostId := b.hostId
    roomId := toLowerCase b.roomId
    status := if availableSlots > 0 then b.status.getD .idle else b.status.getD .busy
    capacity := capacity.toNat
    availableSlots := availableSlots.toNat }

/-- `POST /api/host/heartbeat`, of a host that is authenticated. -/
def heartbeat (b : HeartbeatBody) : Handler Response :=
  if !b.accepted then pure .invalid
  else
    Prog.tryCatch (do
      let result ← send (.heartbeat b.host (sha256 (toLowerCase b.pairingCode)))
      pure (.heartbeat result.2)) (pure .failed)

def pruneStaleIdleHosts : Handler Unit :=
  Prog.tryCatch (do
    let ids ← send .idleHosts
    if ids = [] then pure ()
    else do
      let ttls ← send (.hostTtls ids)
      let stale := ((ids.zip ttls).filter fun e => !e.2).map Prod.fst
      if stale = [] then pure () else send (.remIdleHosts stale)) (pure ())

/-- The code a body presents: `MatchFindSchema`, in lower case. -/
def presentedCode (body : String) : Option String :=
  if isId (trim body) then some (toLowerCase (trim body)) else none

/-- The exchange of a code, after the pruning. -/
def exchange (n : Nat) (pairingHash : PairingHash) : Handler Response := do
  let requestedHostId ← send (.getPairing pairingHash)
  match requestedHostId with
  | none => pure .notFound
  | some h => do
    let claimed ← send (.claim n h pairingHash)
    match claimed with
    | none => pure .notFound
    | some host => do
      send .getIceServers
      Prog.invoke (σ := sig) (.found n pairingHash)
      pure (.found host.roomId)

/-- `POST /api/match/find`, as request `n`. -/
def find (n : Nat) (body : String) : Handler Response :=
  match presentedCode body with
  | none => pure .invalid
  | some pairingCode =>
    Prog.tryCatch (do
      pruneStaleIdleHosts
      exchange n (sha256 pairingCode)) (pure .failed)

end Pairing
end CloudGaming
