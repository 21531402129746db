import CloudGaming.Async.Prog
import CloudGaming.Market.Types
/-!
# Store — the Redis database and the control gateway of the matchmaker

`World` is what the handlers share: the Redis keys, the control sockets, the clock and the source of fresh UUIDs.  Each
Redis command and each Lua script is one transformation of it (`exec`); each synchronous gateway call is another
(`call`).  `World.trace` is history, newest first: no command and no call reads it.
-/
namespace CloudGaming
namespace Market

open Redis

structure Config where
  hostTtlSeconds : Nat

/-- What the history records. -/
inductive Obs where
  | wrote (s : Session)
  | claimed (h : HostId) (id : SessionId)
  | released (h : HostId) (id : SessionId)
  | prepared (h : HostId) (id : SessionId)
  | heard (h : HostId) (e : HostEvent)
  | presence (h : HostId) (state : HostState)

structure World where
  config : Config
  now : Nat := 0
  nextUuid : Nat := 0
  hosts : Keys HostId (fun h => {r : HostRecord // r.hostId = h}) := fun _ => none
  leases : Keys HostId (fun _ => SessionId) := fun _ => none
  sessions : Keys SessionId (fun id => {s : Session // s.id = id}) := fun _ => none
  players : Keys PlayerId (fun _ => SessionId) := fun _ => none
  idle : GameId → List HostId := fun _ => []
  games : List GameId := []
  gameInfo : GameId → Option Game := fun _ => none
  prepareDeadlines : ZSet SessionId := ∅
  sessionDeadlines : ZSet SessionId := ∅
  disconnectDeadlines : ZSet HostId := ∅
  clients : HostId → Option Socket := fun _ => none
  trace : List Obs := []

def HostRecord.offers (r : HostRecord) (g : GameId) : Bool := r.games.any fun game => game.enabled && game.id = g

namespace World

def host (w : World) (h : HostId) : Option HostRecord := (w.hosts.get h).map Subtype.val

def lease (w : World) (h : HostId) : Option SessionId := w.leases.get h

def session (w : World) (id : SessionId) : Option Session := (w.sessions.get id).map Subtype.val

def player (w : World) (p : PlayerId) : Option SessionId := w.players.get p

/-- `SREM` of the host from the idle set of every game it lists. -/
def delist (w : World) (h : HostId) (games : List Game) : GameId → List HostId :=
  fun g => if games.any (·.id = g) then srem (w.idle g) h else w.idle g

/-- `SADD` of the host to the idle set of every game it enables. -/
def enlist (idle : GameId → List HostId) (h : HostId) (games : List Game) : GameId → List HostId :=
  fun g => if games.any (fun game => game.enabled && game.id = g) then sadd (idle g) h else idle g

/-- `SET market:session:<id>`. -/
def write (w : World) (s : Session) : World :=
  { w with
    sessions := w.sessions.set s.id ⟨s, rfl⟩ (w.now + sessionTtl s.durationSeconds * 1000)
    trace := .wrote s :: w.trace }

/-- The record `CLAIM_SCRIPT` takes: idle, offering the game, its host not leased. -/
def claimable (w : World) (h : HostId) (g : GameId) : Option {r : HostRecord // r.hostId = h} :=
  (w.hosts.get h).filter fun r => w.lease h = none && r.1.state = .idle && r.1.offers g

/-- The writes of a successful `CLAIM_SCRIPT` of host `h`, whose record is `r`, for the allocated session `s`. -/
def reserve (w : World) (h : HostId) (r : {r : HostRecord // r.hostId = h}) (s : Session) : World :=
  { w with
    hosts := w.hosts.set h ⟨{ r.1 with state := .reserved, sessionId := some s.id }, r.2⟩
      (w.now + w.config.hostTtlSeconds * 1000)
    leases := w.leases.set h s.id (w.now + (s.durationSeconds + 300) * 1000)
    idle := w.delist h r.1.games
    trace := .claimed h s.id :: w.trace }.write s

/-- `RELEASE_SCRIPT`. -/
def release (w : World) (h : HostId) (id : SessionId) : World :=
  if w.lease h = some id then
    match w.hosts.get h with
    | none => { w with leases := w.leases.del h, trace := .released h id :: w.trace }
    | some r => { w with
        hosts := w.hosts.set h ⟨{ r.1 with state := .idle, sessionId := none }, r.2⟩
          (w.now + w.config.hostTtlSeconds * 1000)
        leases := w.leases.del h
        idle := enlist w.idle h r.1.games
        trace := .released h id :: w.trace }
  else w

/-- The record `PRESENCE_SCRIPT` writes. -/
def presenceRecord (w : World) (p : Presence) (lastSeenAt : Nat) : HostRecord where
  hostId := p.hostId
  state := if (w.lease p.hostId).isSome ∧ p.state = .idle then .reserved else p.state
  games := p.games
  network := p.network
  lastSeenAt := lastSeenAt

/-- `PRESENCE_SCRIPT`. -/
def presence (w : World) (p : Presence) (lastSeenAt : Nat) : World :=
  let idle := match w.hosts.get p.hostId with
    | none => w.idle
    | some r => w.delist p.hostId r.1.games
  { w with
    hosts := w.hosts.set p.hostId ⟨w.presenceRecord p lastSeenAt, rfl⟩ (w.now + w.config.hostTtlSeconds * 1000)
    idle := if (w.lease p.hostId).isNone ∧ p.state = .idle then enlist idle p.hostId p.games else idle }

/-- `SET market:player-session:<p> <id> NX EX`. -/
def lockPlayer (w : World) (p : PlayerId) (id : SessionId) (seconds : Nat) : World :=
  if (w.player p).isNone then { w with players := w.players.set p id (w.now + seconds * 1000) } else w

/-- `DEL market:player-session:<p>`. -/
def unlockPlayer (w : World) (p : PlayerId) : World :=
  { w with players := w.players.del p }

def addGames (w : World) (games : List Game) : World :=
  { w with
    games := games.foldl (fun l g => sadd l g.id) w.games
    gameInfo := games.foldl (fun m g => Function.update m g.id (some g)) w.gameInfo }

def connected (w : World) (h : HostId) : Bool := (w.clients h).any (·.isOpen)

/-- Whether `controlGateway.send` hands a command to the socket. -/
def deliverable (w : World) (h : HostId) : Bool := (w.clients h).any fun s => s.isOpen && !s.congested

/-- `ws.send`. -/
def push (w : World) (h : HostId) (p : Packet) : World :=
  { w with clients := Function.update w.clients h ((w.clients h).map fun s => { s with outbox := s.outbox ++ [p] }) }

/-- What the history records of a command handed to a socket. -/
def noteCommand (w : World) (h : HostId) : Command → World
  | .prepare id .. => { w with trace := .prepared h id :: w.trace }
  | .stop .. => w

/-- `controlGateway.send` to a socket that takes the command: a fresh `commandId`, and the packet. -/
def dispatch (w : World) (h : HostId) (c : Command) : World :=
  ({ w with nextUuid := w.nextUuid + 1 }.push h (.command ⟨w.nextUuid⟩ c)).noteCommand h c

end World

/-! ## The commands -/

inductive Cmd where
  | getSession (id : SessionId)
  | setSession (s : Session)
  | pushEvent (id : SessionId) (state : SessionState) (t : Nat)
  | expireEvents (id : SessionId) (seconds : Nat)
  | getLease (h : HostId)
  | lockPlayer (p : PlayerId) (id : SessionId) (seconds : Nat)
  | getPlayer (p : PlayerId)
  | delPlayer (p : PlayerId)
  | idleHosts (g : GameId)
  | getHosts (ids : List HostId)
  | claim (h : HostId) (s : Session)
  | release (h : Option HostId) (id : SessionId)
  | addPrepareDeadline (id : SessionId) (score : Nat)
  | remPrepareDeadline (id : SessionId)
  | duePrepareDeadlines (now : Nat)
  | addSessionDeadline (id : SessionId) (score : Nat)
  | remSessionDeadline (id : SessionId)
  | dueSessionDeadlines (now : Nat)
  | addDisconnectDeadline (h : HostId) (score : Nat)
  | remDisconnectDeadline (h : HostId)
  | dueDisconnectDeadlines (now : Nat)
  | addGames (games : List Game)
  | presence (p : Presence) (now : Nat)

@[reducible] def Cmd.Reply : Cmd → Type
  | getSession _ => Option Session
  | getLease _ | getPlayer _ => Option SessionId
  | lockPlayer .. | release .. => Bool
  | idleHosts _ | dueDisconnectDeadlines _ => List HostId
  | getHosts _ => List (Option HostRecord)
  | claim .. => Option HostRecord
  | duePrepareDeadlines _ | dueSessionDeadlines _ => List SessionId
  | presence .. => HostState
  | _ => Unit

/-- The synchronous calls between two awaits. -/
inductive Call where
  | dateNow
  | connected
  | send (h : Option HostId) (c : Command)

@[reducible] def Call.Answer : Call → Type
  | dateNow => Nat
  | connected => HostId → Bool
  | send .. => Option CommandId

@[reducible] def sig : Async.Sig := ⟨Cmd, Cmd.Reply, Call, Call.Answer⟩

def exec : (c : Cmd) → World → c.Reply × World
  | .getSession id, w => (w.session id, w)
  | .setSession s, w => ((), w.write s)
  | .pushEvent .., w => ((), w)
  | .expireEvents .., w => ((), w)
  | .getLease h, w => (w.lease h, w)
  | .lockPlayer p id seconds, w => ((w.player p).isNone, w.lockPlayer p id seconds)
  | .getPlayer p, w => (w.player p, w)
  | .delPlayer p, w => ((), w.unlockPlayer p)
  | .idleHosts g, w => (w.idle g, w)
  | .getHosts ids, w => (ids.map w.host, w)
  | .claim h s, w => match w.claimable h s.gameId with
    | none => (none, w)
    | some r => (some { r.1 with state := .reserved, sessionId := some s.id }, w.reserve h r s)
  | .release none _, w => (false, w)
  | .release (some h) id, w => (w.lease h = some id, w.release h id)
  | .addPrepareDeadline id n, w => ((), { w with prepareDeadlines := w.prepareDeadlines.zadd id n })
  | .remPrepareDeadline id, w => ((), { w with prepareDeadlines := w.prepareDeadlines.zrem id })
  | .duePrepareDeadlines now, w => (w.prepareDeadlines.due now, w)
  | .addSessionDeadline id n, w => ((), { w with sessionDeadlines := w.sessionDeadlines.zadd id n })
  | .remSessionDeadline id, w => ((), { w with sessionDeadlines := w.sessionDeadlines.zrem id })
  | .dueSessionDeadlines now, w => (w.sessionDeadlines.due now, w)
  | .addDisconnectDeadline h n, w => ((), { w with disconnectDeadlines := w.disconnectDeadlines.zadd h n })
  | .remDisconnectDeadline h, w => ((), { w with disconnectDeadlines := w.disconnectDeadlines.zrem h })
  | .dueDisconnectDeadlines now, w => (w.disconnectDeadlines.due now, w)
  | .addGames games, w => ((), w.addGames games)
  | .presence p now, w => ((w.presenceRecord p now).state, w.presence p now)

def call : (o : Call) → World → o.Answer × World
  | .dateNow, w => (w.now, w)
  | .connected, w => (w.connected, w)
  | .send none _, w => (none, w)
  | .send (some h) c, w => if w.deliverable h then (some ⟨w.nextUuid⟩, w.dispatch h c) else (none, w)

def machine : Async.Machine sig World := ⟨exec, call⟩

/-! ## What the transformations leave -/

section lemmas
variable (w : World)

theorem session_id {id : SessionId} {s : Session} (h : w.session id = some s) : s.id = id := by
  unfold World.session at h
  obtain ⟨s', -, rfl⟩ := Option.map_eq_some_iff.1 h
  exact s'.2

theorem session_write_self (s : Session) : (w.write s).session s.id = some s := by simp [World.session, World.write]

theorem session_write_of_ne (s : Session) {id : SessionId} (h : id ≠ s.id) : (w.write s).session id = w.session id := by
  simp [World.session, World.write, Keys.get_set_of_ne _ _ _ h]

theorem session_write (s : Session) (id : SessionId) :
    (w.write s).session id = if id = s.id then some s else w.session id := by
  split
  · rename_i h; subst h; exact session_write_self w s
  · rename_i h; exact session_write_of_ne w s h

theorem session_reserve (h : HostId) (r : {r : HostRecord // r.hostId = h}) (s : Session) (id : SessionId) :
    (w.reserve h r s).session id = if id = s.id then some s else w.session id := session_write _ s id

theorem lease_reserve_self (h : HostId) (r : {r : HostRecord // r.hostId = h}) (s : Session) :
    (w.reserve h r s).lease h = some s.id := by
  simp [World.lease, World.reserve, World.write]

theorem lease_reserve_of_ne (h : HostId) (r : {r : HostRecord // r.hostId = h}) (s : Session) {h' : HostId}
    (hne : h' ≠ h) : (w.reserve h r s).lease h' = w.lease h' := by
  simp [World.lease, World.reserve, World.write, Keys.get_set_of_ne _ _ _ hne]

theorem mem_delist {h h' : HostId} {g : GameId} {games : List Game} :
    h' ∈ w.delist h games g ↔ h' ∈ w.idle g ∧ ¬(h' = h ∧ games.any (·.id = g) = true) := by
  unfold World.delist
  by_cases hg : games.any (·.id = g) = true
  · rw [if_pos hg, mem_srem]
    simp [hg]
  · rw [if_neg hg]
    simp [hg]

theorem mem_enlist {idle : GameId → List HostId} {h h' : HostId} {g : GameId} {games : List Game} :
    h' ∈ World.enlist idle h games g ↔
      h' ∈ idle g ∨ h' = h ∧ ∃ game ∈ games, game.enabled = true ∧ game.id = g := by
  have hany : (games.any fun game => game.enabled && game.id = g) = true ↔
      ∃ game ∈ games, game.enabled = true ∧ game.id = g := by simp
  unfold World.enlist
  by_cases hg : (games.any fun game => game.enabled && game.id = g) = true
  · rw [if_pos hg, mem_sadd, ← hany]
    simp [hg]
  · rw [if_neg hg, ← hany]
    simp [hg]

theorem nodup_delist (hi : ∀ g, (w.idle g).Nodup) (h : HostId) (games : List Game) (g : GameId) :
    (w.delist h games g).Nodup := by
  unfold World.delist
  split
  · exact nodup_srem (hi g)
  · exact hi g

theorem nodup_enlist {idle : GameId → List HostId} (hi : ∀ g, (idle g).Nodup) (h : HostId) (games : List Game)
    (g : GameId) : (World.enlist idle h games g).Nodup := by
  unfold World.enlist
  split
  · exact nodup_sadd (hi g)
  · exact hi g

theorem claimable_eq_some {w : World} {h : HostId} {g : GameId} {r : {r : HostRecord // r.hostId = h}} :
    w.claimable h g = some r ↔
      w.hosts.get h = some r ∧ w.lease h = none ∧ r.1.state = .idle ∧ r.1.offers g = true := by
  simp [World.claimable, Option.filter_eq_some_iff, and_assoc]

theorem exec_claim_none {w : World} {h : HostId} {s : Session} (hc : w.claimable h s.gameId = none) :
    exec (.claim h s) w = (none, w) := by simp [exec, hc]

theorem exec_claim_some {w : World} {h : HostId} {s : Session} {r : {r : HostRecord // r.hostId = h}}
    (hc : w.claimable h s.gameId = some r) :
    exec (.claim h s) w = (some { r.1 with state := .reserved, sessionId := some s.id }, w.reserve h r s) := by
  simp [exec, hc]

theorem call_send_some {w : World} {h : HostId} (hd : w.deliverable h = true) (c : Command) :
    call (.send (some h) c) w = (some ⟨w.nextUuid⟩, w.dispatch h c) := by simp [call, hd]

theorem call_send_none {w : World} {h : HostId} (hd : w.deliverable h = false) (c : Command) :
    call (.send (some h) c) w = (none, w) := by simp [call, hd]

theorem release_of_ne {h : HostId} {id : SessionId} (hne : w.lease h ≠ some id) : w.release h id = w := if_neg hne

theorem leases_release {h : HostId} {id : SessionId} (heq : w.lease h = some id) :
    (w.release h id).leases = w.leases.del h := by
  unfold World.release
  rw [if_pos heq]
  split <;> rfl

theorem lease_release_self (h : HostId) (id : SessionId) : (w.release h id).lease h ≠ some id := by
  by_cases heq : w.lease h = some id
  · rw [World.lease, leases_release w heq, Keys.get_del_self]; nofun
  · rw [release_of_ne w heq]; exact heq

theorem lease_release_of_ne (id : SessionId) {h h' : HostId} (hne : h' ≠ h) : (w.release h id).lease h' = w.lease h' := by
  by_cases heq : w.lease h = some id
  · rw [World.lease, leases_release w heq, Keys.get_del_of_ne _ hne]; rfl
  · rw [release_of_ne w heq]

/-- A release touches only the host record, its lease, the idle sets and the history. -/
theorem release_frame (h : HostId) (id : SessionId) :
    (w.release h id).sessions = w.sessions ∧ (w.release h id).players = w.players ∧
    (w.release h id).prepareDeadlines = w.prepareDeadlines ∧ (w.release h id).sessionDeadlines = w.sessionDeadlines ∧
    (w.release h id).disconnectDeadlines = w.disconnectDeadlines ∧ (w.release h id).clients = w.clients ∧
    (w.release h id).now = w.now ∧ (w.release h id).config = w.config ∧ (w.release h id).nextUuid = w.nextUuid := by
  unfold World.release
  split
  · split <;> exact ⟨rfl, rfl, rfl, rfl, rfl, rfl, rfl, rfl, rfl⟩
  · exact ⟨rfl, rfl, rfl, rfl, rfl, rfl, rfl, rfl, rfl⟩

/-- A command adds to the history. -/
theorem trace_exec (c : Cmd) : ∃ ext, (exec c w).2.trace = ext ++ w.trace := by
  cases c with
  | setSession s => exact ⟨[.wrote s], rfl⟩
  | claim h s =>
    simp only [exec]
    split
    · exact ⟨[], rfl⟩
    · exact ⟨[.wrote s, .claimed h s.id], rfl⟩
  | release h id =>
    cases h with
    | none => exact ⟨[], rfl⟩
    | some h =>
      simp only [exec, World.release]
      split
      · split <;> exact ⟨[.released h id], rfl⟩
      · exact ⟨[], rfl⟩
  | lockPlayer p id seconds =>
    simp only [exec, World.lockPlayer]
    split <;> exact ⟨[], rfl⟩
  | _ => exact ⟨[], rfl⟩

theorem lease_of_release {h h' : HostId} {id id' : SessionId} (hl : (w.release h id).lease h' = some id') :
    w.lease h' = some id' := by
  by_cases hne : h' = h
  · subst hne
    by_cases heq : w.lease h' = some id
    · rw [World.lease, leases_release w heq, Keys.get_del_self] at hl; cases hl
    · rwa [release_of_ne w heq] at hl
  · rwa [lease_release_of_ne w id hne] at hl

theorem lockPlayer_of_some {p : PlayerId} {id' : SessionId} (hp : w.player p = some id') (id : SessionId) (seconds : Nat) :
    w.lockPlayer p id seconds = w := by simp [World.lockPlayer, hp]

theorem lockPlayer_of_none {p : PlayerId} (hp : w.player p = none) (id : SessionId) (seconds : Nat) :
    w.lockPlayer p id seconds = { w with players := w.players.set p id (w.now + seconds * 1000) } := by
  simp [World.lockPlayer, hp]

theorem player_lockPlayer {p : PlayerId} (hp : w.player p = none) (id : SessionId) (seconds : Nat) (p' : PlayerId) :
    (w.lockPlayer p id seconds).player p' = if p' = p then some id else w.player p' := by
  rw [lockPlayer_of_none w hp]
  by_cases h : p' = p
  · subst h; simp [World.player]
  · simp [World.player, Keys.get_set_of_ne _ _ _ h, h]

theorem player_unlockPlayer (p p' : PlayerId) : (w.unlockPlayer p).player p' = if p' = p then none else w.player p' := by
  by_cases h : p' = p
  · subst h; simp [World.player, World.unlockPlayer]
  · simp [World.player, World.unlockPlayer, Keys.get_del_of_ne _ h, h]

end lemmas

end Market
end CloudGaming
