import CloudGaming.Control.Agent
import CloudGaming.Market.Leases
/-!
# Duo — the matchmaker and one host, over the control connection

The matchmaker serves one request at a time and the host handles one event at a time.  Between them is the control
connection of host `h`: the outbox of its socket and the commands that wait at the host on the way down, the events that
are sent or wait at the matchmaker on the way up.  A connection that is lost or replaced takes with it what has not been
received; what was received is still handled.
-/
namespace CloudGaming

namespace Market

/-- The network carries the first packet of the socket's outbox off. -/
def World.carry (w : World) (h : HostId) : World :=
  { w with clients := Function.update w.clients h ((w.clients h).map fun s => { s with outbox := s.outbox.tail }) }

/-- The input comes from the host, or opens or closes its socket. -/
def Input.concerns (h : HostId) : Input → Bool
  | .request (.event k _) | .request (.control k _) | .connect k | .disconnect k | .ambient (.accept k)
  | .ambient (.closed k) => k = h
  | _ => false

end Market

namespace Control

open Market Host

/-- The matchmaker and the host.  `up` is the host's end of the connection; `uplink` is what the host sent over it and
the matchmaker has not handled, `late` what the matchmaker received over earlier connections and has not handled. -/
structure Duo where
  server : Market.World
  host : Runtime.World := {}
  up : Bool := false
  uplink : List HostEvent := []
  late : List HostEvent := []

inductive Move where
  | matchmaker (i : Market.Input)
  | accept (received : Nat)
  | lose (received : Nat)
  | close (received : Nat)
  | hear
  | hearLate (i : Nat)
  | receive
  | tick (l : Runtime.Launch)
  | cleanup (failed : Bool) (reason roomId : String)
  | stream (peerConnected : Bool)
  | signaling (e : Runtime.SignalingEvent)
  | restart (received : Nat)

namespace Duo

/-- The connection is gone, `received` of the events on it have reached the matchmaker. -/
def cut (p : Duo) (received : Nat) : Duo :=
  { p with up := false, uplink := [], late := p.late ++ p.uplink.take received }

/-- The host has handled an event; what it has for the socket is sent, if it is connected. -/
def say (p : Duo) (host : Runtime.World) : Duo :=
  { p with host := unsaid host, uplink := if p.up then p.uplink ++ said host else p.uplink }

variable (h : HostId)

def step (p : Duo) : Move → Duo
  | .matchmaker i => if i.concerns h then p else { p with server := p.server.handle i }
  -- a new connection replaces the one there was
  | .accept received => { p.cut received with server := p.server.handle (.connect h), up := true }
  -- the host notices first, and has yet to reconnect
  | .lose received => p.cut received
  | .close received => { p.cut received with server := p.server.handle (.disconnect h) }
  | .hear => match p.uplink with
    | [] => p
    | e :: rest => { p with server := p.server.serve (.event h e), uplink := rest }
  | .hearLate i => match p.late[i]? with
    | none => p
    | some e => { p with server := p.server.serve (.event h e), late := p.late.eraseIdx i }
  | .receive => match p.up, p.server.outbox h with
    | true, packet :: _ => { p with server := p.server.carry h, host := p.host.receive (packetJson packet) }
    | _, _ => p
  | .tick l => p.say (p.host.handle (.runtime (.command l)))
  | .cleanup failed reason roomId =>
    p.say (p.host.handle (.runtime (.cleanup (if failed then "session.failed" else "session.ended") reason roomId)))
  | .stream peerConnected => p.say (p.host.reportStream peerConnected p.up)
  | .signaling e => { p with host := p.host.handle (.signaling e) }
  | .restart received => { p.cut received with host := {} }

/-- The matchmaker and the host after a sequence of moves. -/
def after (config : Config) (moves : List Move) : Duo := moves.foldl (step h) { server := World.init config }

/-- Both ends have the control socket connected. -/
def online (p : Duo) : Bool := p.up && p.server.connected h

end Duo

/-- Every move meets a condition on the state it finds. -/
def Meets (h : HostId) (ok : Duo → Move → Prop) : Duo → List Move → Prop
  | _, [] => True
  | p, m :: moves => ok p m ∧ Meets h ok (p.step h m) moves

theorem after_induction {h : HostId} {ok : Duo → Move → Prop} {P : Duo → Prop} {config : Config}
    (hinit : P { server := World.init config }) (hstep : ∀ p m, P p → ok p m → P (p.step h m)) (moves : List Move)
    (hok : Meets h ok { server := World.init config } moves) : P (Duo.after h config moves) := by
  have hrun : ∀ (moves : List Move) (p : Duo), P p → Meets h ok p moves → P (moves.foldl (Duo.step h) p) := by
    intro moves
    induction moves with
    | nil => intro p hp _; exact hp
    | cons m moves ih => intro p hp hok; exact ih _ (hstep p m hp hok.1) hok.2
  exact hrun moves _ hinit hok

/-! ## What a session is to the host -/

/-- What the host, and the events on their way from it, hold of one session. -/
structure Seat where
  runs : Prop
  pending : List Mail
  hello : Prop
  ended : Prop

/-- The event tells that the session is over. -/
def Over (S : SessionId) (e : HostEvent) : Prop := e.sessionId = some S ∧ (e.type = .ended ∨ e.type = .failed)

/-- The event is a `host.hello` that names the session. -/
def Names (S : SessionId) (e : HostEvent) : Prop := e.sessionId = some S ∧ e.type = .hello

/-- What a command that waits at the host is to the session. -/
def commandMail (S : SessionId) (j : Json) : Option Mail := do
  let c ← Runtime.readCommand j
  if c.type = "control.ready" then some .ready
  else if c.sessionId = spell S.uuid then if c.type = "session.stop" then some .stop else some .prepare
  else none

theorem spell_eq_iff {S S' : SessionId} : spell S'.uuid = spell S.uuid ↔ S' = S :=
  ⟨fun h => by cases S; cases S'; exact congrArg _ (spell_inj h), fun h => by rw [h]⟩

theorem commandMail_packet (S : SessionId) (p : Packet) : commandMail S (packetJson p) = p.mail S := by
  unfold commandMail
  cases p with
  | ready k => rfl
  | command c body =>
    cases body with
    | prepare => simp [readCommand_command, commandType, commandSession, Packet.mail, spell_eq_iff]
    | stop => simp [readCommand_command, commandType, commandSession, Packet.mail, spell_eq_iff]

def Duo.seat (p : Duo) (S : SessionId) : Seat where
  runs := p.host.activeSessionId = spell S.uuid
  pending := p.host.pendingMarketplaceCommands.filterMap (commandMail S)
  hello := ∃ e ∈ p.uplink, Names S e
  ended := ∃ e ∈ p.uplink ++ p.late, Over S e

end Control
end CloudGaming
