import CloudGaming.Async.Interleave
import CloudGaming.Market.Handlers
/-!
# System — the matchmaker's handlers, one at a time and interleaved

`World.handle` lets one input act alone: a request runs to completion, every command answered.  `concurrent` is the
system in which any number of handlers run interleaved; a thread's ghost value holds the version of each session record
it last read or wrote and what it last read of each player lock.
-/
namespace CloudGaming
namespace Market

open Async

/-- What starts a handler. -/
inductive Request where
  | post (playerId : PlayerId) (request : SessionRequest)
  | delete (sessionId : SessionId) (playerId : Option PlayerId)
  | event (hostId : HostId) (e : HostEvent)
  | presence (p : Presence)
  | control (hostId : HostId) (connected : Bool)
  | expireSessions
  | expirePreparations
  | expireDisconnectedHosts

/-- The handler of a request; `n` is the fresh random number a new session takes its id and room from. -/
def Request.program (n : Nat) : Request → Js Unit
  | post playerId request => (postSessions ⟨n⟩ ⟨n⟩ playerId request).discard
  | delete sessionId playerId => (deleteSession sessionId playerId).discard
  | event hostId e => handleHostEvent hostId e
  | presence p => (postPresence p).discard
  | control hostId connected => handleControlConnection hostId connected
  | expireSessions => Market.expireSessions
  | expirePreparations => Market.expirePreparations
  | expireDisconnectedHosts => Market.expireDisconnectedHosts

/-- What happens to the world outside the handlers. -/
inductive Ambient where
  | advance (millis : Nat)
  | accept (h : HostId)
  | closing (h : HostId)
  | closed (h : HostId)
  | congest (h : HostId) (congested : Bool)
  | expireHost (h : HostId)
  | expireLease (h : HostId)
  | expireSession (id : SessionId)
  | expirePlayer (p : PlayerId)
  | reorder (g : GameId) (ids : List HostId)

def World.ambient (w : World) : Ambient → World
  | .advance millis => { w with now := w.now + millis }
  -- the gateway greets every socket it accepts
  | .accept h => { w with clients := Function.update w.clients h (some ⟨true, false, [.ready h]⟩) }
  | .closing h => { w with clients := Function.update w.clients h ((w.clients h).map ({ · with isOpen := false })) }
  | .closed h => { w with clients := Function.update w.clients h none }
  | .congest h b => { w with clients := Function.update w.clients h ((w.clients h).map ({ · with congested := b })) }
  | .expireHost h => { w with hosts := w.hosts.del h }
  | .expireLease h => { w with leases := w.leases.del h }
  | .expireSession id => { w with sessions := w.sessions.del id }
  | .expirePlayer p => { w with players := w.players.del p }
  -- Redis lists a set in any order
  | .reorder g ids => if ids.Perm (w.idle g) then { w with idle := Function.update w.idle g ids } else w

/-! ## One handler at a time -/

/-- What the history records of a request that arrives. -/
def Request.arrive (w : World) : Request → World
  | event hostId e => { w with trace := .heard hostId e :: w.trace }
  | presence p => { w with trace := .presence p.hostId p.state :: w.trace }
  | _ => w

inductive Input where
  | request (r : Request)
  | connect (h : HostId)
  | disconnect (h : HostId)
  | ambient (a : Ambient)
  | elapse (millis : Nat)

/-- Time passes, and the keys whose TTL elapses by then disappear. -/
def World.elapse (w : World) (millis : Nat) : World :=
  { w with
    now := w.now + millis
    hosts := w.hosts.sweep (w.now + millis)
    leases := w.leases.sweep (w.now + millis)
    sessions := w.sessions.sweep (w.now + millis)
    players := w.players.sweep (w.now + millis) }

/-- A handler runs to completion. -/
def World.serve (w : World) (r : Request) : World :=
  ((r.program w.nextUuid).run machine (r.arrive { w with nextUuid := w.nextUuid + 1 })).2

def World.handle (w : World) : Input → World
  | .request r => w.serve r
  | .connect h => (w.ambient (.accept h)).serve (.control h true)
  | .disconnect h => if (w.clients h).isSome then (w.ambient (.closed h)).serve (.control h false) else w
  | .ambient a => w.ambient a
  | .elapse millis => w.elapse millis

/-- The empty store. -/
def World.init (config : Config) : World := { config := config }

/-- The world after a sequence of inputs, each served to completion. -/
def World.after (config : Config) (inputs : List Input) : World := inputs.foldl World.handle (World.init config)

/-! ## Interleaved handlers -/

/-- How often a session record was stored. -/
def written : List Obs → SessionId → Nat
  | [], _ => 0
  | .wrote s :: tr, id => (if s.id = id then 1 else 0) + written tr id
  | _ :: tr, id => written tr id

/-- The record a session was last stored as. -/
def newest : List Obs → SessionId → Option Session
  | [], _ => none
  | .wrote s :: tr, id => if s.id = id then some s else newest tr id
  | _ :: tr, id => newest tr id

/-- What a thread has seen: the version of each record, and the holder of each player lock. -/
structure Seen where
  version : SessionId → Nat := fun _ => 0
  holder : PlayerId → Option SessionId := fun _ => none

/-- The session whose record a command stores. -/
def stores (w : World) : Cmd → Option SessionId
  | .setSession s => some s.id
  | .claim h s => if (w.claimable h s.gameId).isSome then some s.id else none
  | _ => none

/-- A thread has seen the record it reads, and the one it stores. -/
def noteSeen (c : Cmd) (w : World) (l : Seen) : Seen :=
  match c, stores w c with
  | .getSession id, _ => { l with version := Function.update l.version id (written w.trace id) }
  | .getPlayer p, _ => { l with holder := Function.update l.holder p (w.player p) }
  | _, some id => { l with version := Function.update l.version id (written w.trace id + 1) }
  | _, none => l

/-- The handlers running interleaved from the store `w₀`; `may` says what may happen outside them. -/
def concurrent (may : Ambient → Prop) : System sig World Seen Ambient where
  machine := machine
  spawn n p := ∃ r : Request, p = r.program n
  ambient e w := w.ambient e
  may := may
  fresh := {}
  note := noteSeen

/-! ## Scripts -/

/-- One line of a script: a handler starts, the surroundings act, or thread `i` makes `n` steps. -/
inductive Line where
  | begin (r : Request)
  | around (a : Ambient)
  | go (i n : Nat)

/-- The schedule of a script, `n` threads having started before it. -/
def schedule : Nat → List Line → List (Choice sig Ambient)
  | _, [] => []
  | n, .begin r :: ls => .start (r.program n) :: schedule (n + 1) ls
  | n, .around a :: ls => .ambient a :: schedule n ls
  | n, .go i k :: ls => List.replicate k (.go i) ++ schedule n ls

theorem legal_go {may : Ambient → Prop} {n : Nat} (i : Nat) {cs : List (Choice sig Ambient)}
    (h : Legal (concurrent may) n cs) : ∀ k, Legal (concurrent may) n (List.replicate k (.go i) ++ cs)
  | 0 => h
  | k + 1 => legal_go i h k

theorem legal_schedule {may : Ambient → Prop} : ∀ (ls : List Line) (n : Nat), (∀ a, .around a ∈ ls → may a) →
    Legal (concurrent may) n (schedule n ls)
  | [], _, _ => trivial
  | .begin r :: ls, n, h => ⟨⟨r, rfl⟩, legal_schedule ls (n + 1) fun a ha => h a (List.mem_cons_of_mem _ ha)⟩
  | .around a :: ls, n, h => ⟨h a List.mem_cons_self, legal_schedule ls n fun a ha => h a (List.mem_cons_of_mem _ ha)⟩
  | .go i k :: ls, n, h => legal_go i (legal_schedule ls n fun a ha => h a (List.mem_cons_of_mem _ ha)) k

/-- The world a script ends in, from the empty store. -/
def World.scripted (config : Config) (may : Ambient → Prop) (ls : List Line) : World :=
  (Pool.play (concurrent may) (schedule 0 ls) ⟨World.init config, []⟩).world

theorem reach_script (config : Config) (may : Ambient → Prop) {g : Guard sig World Seen} (ls : List Line)
    (h : ∀ a, .around a ∈ ls → may a) (hk : Kept (concurrent may) g (schedule 0 ls) ⟨World.init config, []⟩) :
    ∃ p, Reach (concurrent may) g (World.init config) p ∧ p.world = World.scripted config may ls :=
  ⟨_, reach_play (concurrent may) g (schedule 0 ls) _ (legal_schedule ls 0 h) hk, rfl⟩

/-! ## A small market -/

def sampleGame : Game := ⟨⟨"steam:730"⟩, .steam, "Counter-Strike 2", "730", true⟩

def samplePresence (h : HostId) (state : HostState) : Presence := ⟨h, state, [sampleGame], none⟩

def sampleRequest : SessionRequest where
  gameId := sampleGame.id
  durationSeconds := 300
  streamProfile := ⟨1280, 720, 60⟩
  probes := []
  duration_min := by decide
  duration_max := by decide

/-- Host `h` connects and announces itself idle, as thread `i`. -/
def enter (h : HostId) (i : Nat) : List Line :=
  [.around (.accept h), .begin (.presence (samplePresence h .idle)), .go i 3]

end Market
end CloudGaming
