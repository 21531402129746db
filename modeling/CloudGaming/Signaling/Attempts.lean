import CloudGaming.Signaling.Connect
/-!
# Attempts — connections set up side by side

Any number of setups, on any instances, interleaved at their awaits, while time passes, others write the store, peers hang
up and frames arrive.  Setup number `n` is that of socket `n`.
-/
namespace CloudGaming
namespace Signaling
namespace Setup

open Async Redis

inductive Ambient where
  | elapse (millis : Nat)
  | others (outside : Outside)
  | hangUp (socket : Nat)
  | frame (socket : Nat) (message : String)
  | take (socket : Nat)
  | finish (socket : Nat)

/-- The `close` event, which `setupCloseHandler` notes until the handlers of a member are attached. -/
def Line.hangUp (l : Line) : Line :=
  { l with isOpen := false, closedDuringSetup := l.closedDuringSetup || l.listeners = 0 }

namespace Line

theorem receive_keeps (l : Line) (message : String) :
    (l.receive message).listeners = l.listeners ∧ (l.receive message).joined = l.joined := by
  unfold Line.receive
  split <;> exact ⟨rfl, rfl⟩

/-- A frame that arrives attaches no listener and makes nobody a member. -/
theorem arrive_keeps (l : Line) (message : String) :
    (l.arrive message).listeners = l.listeners ∧ (l.arrive message).joined = l.joined := by
  have hiterate : ∀ (n : Nat) (l' : Line), ((fun l => l.receive message)^[n] l').listeners = l'.listeners ∧
      ((fun l => l.receive message)^[n] l').joined = l'.joined := by
    intro n
    induction n with
    | zero => exact fun _ => ⟨rfl, rfl⟩
    | succ n ih =>
      intro l'
      obtain ⟨hlisteners, hjoined⟩ := l'.receive_keeps message
      exact ⟨(ih _).1.trans hlisteners, (ih _).2.trans hjoined⟩
  exact hiterate l.listeners _

theorem take_keeps (l : Line) : l.take.listeners = l.listeners ∧ l.take.joined = l.joined := by
  unfold Line.take
  split <;> exact ⟨rfl, rfl⟩

end Line

def World.ambient : Ambient → World → World
  | .elapse millis, w => { w with now := w.now + millis, used := w.used.sweep (w.now + millis) }
  | .others outside, w => { w with outside }
  | .hangUp socket, w =>
    { w.updateLine socket Line.hangUp with localRooms := w.localRooms.filter (·.socket ≠ socket) }
  | .frame socket message, w => w.updateLine socket (·.arrive message)
  | .take socket, w => w.updateLine socket Line.take
  | .finish socket, w => w.updateLine socket Line.finish

theorem updateLine_self (w : World) (socket : Nat) (f : Line → Line) :
    (w.updateLine socket f).lines socket = f (w.lines socket) := Function.update_self ..

theorem updateLine_of_ne (w : World) {socket t : Nat} (f : Line → Line) (h : t ≠ socket) :
    (w.updateLine socket f).lines t = w.lines t := Function.update_of_ne h ..

/-- No connection has been made yet. -/
def World.start (now : Nat) (outside : Outside) : World where
  now := now
  outside := outside
  used := fun _ => none
  lines := fun _ => {}
  localRooms := []
  claimed := []
  seated := []

def attempts (node : Node) (cfg : ServerConfig) : System sig World Unit Ambient where
  machine := machine cfg
  spawn n p := ∃ request : Request, request.socket = n ∧ p = handleNewConnection node cfg request
  ambient := World.ambient
  may _ := True
  fresh := ()
  note _ _ l := l

/-! ## What the parts of a setup may do -/

/-- Before the claim of the token: no token is claimed, no room is joined or left, nothing is registered or listened to. -/
def Cmd.early : Cmd → Prop
  | .claim .. | .join _ | .leave _ => False
  | _ => True

def Call.early : Call → Prop
  | .register .. | .listen _ => False
  | _ => True

/-- Up to the registration: no token is claimed, nothing is registered or listened to. -/
def Cmd.unclaiming : Cmd → Prop
  | .claim .. => False
  | _ => True

theorem unclaiming_of_early (c : Cmd) (h : c.early) : c.unclaiming := by
  cases c <;> first | exact h | trivial

section within
variable (node : Node) (cfg : ServerConfig)

theorem within_refuse {α : Type} {P : Cmd → Prop} (request : Request) (refusal : Refusal) :
    (refuse (α := α) request refusal).Within P Call.early := (Prog.within_invoke trivial).bind fun _ => trivial

theorem within_allow (ip : String) : (allow cfg ip).Within Cmd.early Call.early := by
  refine Prog.Within.tryCatch ((Prog.within_send trivial).bind fun _ => trivial) ?_
  split
  · trivial
  · exact Prog.within_invoke trivial

theorem within_findMarketplaceRoom (hostId : String) (room : Room) :
    (findMarketplaceRoom node hostId room).Within Cmd.early Call.early := by
  refine (Prog.within_send trivial).bind fun lease => ?_
  cases lease with
  | none => trivial
  | some lease =>
    refine (Prog.within_send trivial).bind fun rawSession => ?_
    cases rawSession with
    | none => trivial
    | some rawSession =>
      dsimp only
      cases marketplaceRoom node hostId room rawSession <;> trivial

theorem within_admitHost (request : Request) (m : Metadata) :
    (admitHost node cfg request m).Within Cmd.early Call.early := by
  unfold admitHost
  split
  · exact within_refuse _ _
  split
  · exact within_refuse _ _
  refine (Prog.within_send trivial).bind fun registeredRoom => Prog.Within.bind ?_ fun registered => ?_
  · unfold hostsRoom
    split
    · trivial
    · exact within_findMarketplaceRoom node _ _
  · split
    · trivial
    · exact within_refuse _ _

theorem within_admitPlayer (request : Request) (m : Metadata) :
    (admitPlayer node cfg request m).Within Cmd.early Call.early := by
  refine (Prog.within_invoke trivial).bind fun now => ?_
  split
  · exact within_refuse _ _
  · split
    · exact within_refuse _ _
    · trivial

theorem within_authenticate (request : Request) (m : Metadata) :
    (authenticate node cfg request m).Within Cmd.early Call.early := by
  unfold authenticate admitInDevelopment
  split
  · split
    · trivial
    · exact (Prog.within_invoke trivial).bind fun _ => trivial
  · split
    · exact within_admitHost node cfg request m
    · exact within_admitPlayer node cfg request m

theorem within_authorize (request : Request) (admission : Admission) :
    (authorize cfg request admission).Within Cmd.early Call.early := by
  unfold authorize
  split
  · trivial
  split
  · exact within_refuse _ _
  refine Prog.Within.bind ?_ fun payload => ?_
  · unfold verifyAccessToken
    split
    · exact Prog.Within.tryCatch (Prog.within_send trivial) trivial
    · exact Prog.within_invoke trivial
  · split
    · exact within_refuse _ _
    · split
      · trivial
      · exact within_refuse _ _

theorem within_vet (request : Request) : (vet node cfg request).Within Cmd.early Call.early := by
  refine (Prog.within_invoke trivial).bind fun now => (Prog.within_invoke trivial).bind fun circuit => ?_
  split
  · exact within_refuse _ _
  split
  · exact within_refuse _ _
  refine (within_allow cfg _).bind fun allowed => ?_
  split
  · exact within_refuse _ _
  split
  · exact within_refuse _ _
  refine (within_authenticate node cfg request _).bind fun admission => ?_
  split
  · trivial
  · exact within_authorize cfg request _

theorem within_claimToken (request : Request) (claims : PairingClaims) :
    (claimToken request claims).Within (fun _ => True) Call.early := by
  refine (Prog.within_invoke trivial).bind fun now => Prog.Within.bind ?_ fun claimed => ?_
  · exact Prog.Within.tryCatch ((Prog.within_send trivial).bind fun _ => trivial) trivial
  · split
    · trivial
    · exact (Prog.within_invoke trivial).bind fun _ => trivial
    · exact (Prog.within_invoke trivial).bind fun _ => trivial

theorem within_joinRoom (request : Request) (x : Client) : (joinRoom request x).Within Cmd.unclaiming Call.early := by
  refine Prog.Within.bind (Prog.Within.tryCatch ((Prog.within_send trivial).bind fun _ => trivial) trivial)
    fun result => ?_
  split
  · exact (Prog.within_invoke trivial).bind fun _ => (Prog.within_invoke trivial).bind fun _ => trivial
  · refine (Prog.within_invoke trivial).bind fun _ => ?_
    split
    · exact (Prog.within_invoke trivial).bind fun _ => trivial
    · split
      · exact (Prog.within_invoke trivial).bind fun _ => trivial
      · trivial

/-- `LEAVE` of a socket that closed while it joined. -/
def leaveAgain (x : Client) : Js Unit :=
  (do let _ ← await (.leave x)
      return () : Js Unit).tryCatch (return ())

theorem within_leaveAgain (x : Client) : (leaveAgain x).Within Cmd.unclaiming Call.early :=
  Prog.Within.tryCatch ((Prog.within_send trivial).bind fun _ => trivial) trivial

theorem within_rotateToken {P : Cmd → Prop} (admission : Admission) (isOpen : Bool) (now : Nat) :
    (rotateToken cfg admission isOpen now).Within P Call.early := by
  unfold rotateToken
  split <;> trivial

end within

/-! ## Whom a setup admits -/

/-- The pairing token of a request. -/
def pairingToken (request : Request) : String := extractProtocolCredential request.protocols "cg-pairing."

/-- The claims of an admission are those of the token the request presents. -/
def Vouched (node : Node) (cfg : ServerConfig) (request : Request) (admission : Option Admission) : Prop :=
  ∀ a claims, admission = some a → a.claims = some claims → claimsOf node cfg (pairingToken request) = some claims

section vouched
variable {node : Node} {cfg : ServerConfig} {request : Request}

theorem vouched_none : Vouched node cfg request none := nofun

theorem vouched_tokenless {a : Admission} (h : a.claims = none) : Vouched node cfg request (some a) := by
  rintro a' claims ha hclaims
  cases ha
  rw [h] at hclaims
  cases hclaims

theorem yields_refuse (refusal : Refusal) : (refuse request refusal).Yields (Vouched node cfg request) :=
  Prog.yields_bind fun _ => vouched_none

theorem yields_admitHost (m : Metadata) : (admitHost node cfg request m).Yields (Vouched node cfg request) := by
  unfold admitHost
  split
  · exact yields_refuse _
  split
  · exact yields_refuse _
  refine Prog.yields_bind fun registeredRoom => Prog.yields_bind fun registered => ?_
  split
  · exact vouched_tokenless rfl
  · exact yields_refuse _

theorem yields_admitPlayer (m : Metadata) : (admitPlayer node cfg request m).Yields (Vouched node cfg request) := by
  refine Prog.yields_bind fun now => ?_
  split
  · exact yields_refuse _
  · rename_i claims hverified
    split
    · exact yields_refuse _
    · rintro a claims' ha hclaims
      cases ha
      cases hclaims
      exact (Option.filter_eq_some_iff.1 hverified).1

theorem yields_authenticate (m : Metadata) : (authenticate node cfg request m).Yields (Vouched node cfg request) := by
  unfold authenticate admitInDevelopment
  split
  · split
    · exact vouched_tokenless rfl
    · exact Prog.yields_bind fun _ => vouched_tokenless rfl
  · split
    · exact yields_admitHost m
    · exact yields_admitPlayer m

theorem yields_authorize {admission : Admission} (h : Vouched node cfg request (some admission)) :
    (authorize cfg request admission).Yields (Vouched node cfg request) := by
  unfold authorize
  split
  · exact h
  split
  · exact yields_refuse _
  refine Prog.yields_bind fun payload => ?_
  split
  · exact yields_refuse _
  · split
    · exact h
    · exact yields_refuse _

/-- **A setup admits a player with the claims of the token it presents.** -/
theorem yields_vet : (vet node cfg request).Yields (Vouched node cfg request) := by
  refine Prog.yields_bind fun now => Prog.yields_bind fun circuit => ?_
  split
  · exact yields_refuse _
  split
  · exact yields_refuse _
  refine Prog.yields_bind fun allowed => ?_
  split
  · exact yields_refuse _
  split
  · exact yields_refuse _
  refine (yields_authenticate _).bind fun admission hvouched => ?_
  split
  · exact vouched_none
  · exact yields_authorize hvouched

end vouched

/-! ## A small server -/

namespace Sample

def roomId : String := "0123456789abcdef0123456789abcdef"

def sessionId : String := "11111111-1111-4111-8111-111111111111"

def hostId : String := "22222222-2222-4222-8222-222222222222"

def jti : String := "33333333-3333-4333-8333-333333333333"

/-- The payload of the token `claims.mac`, which expires at 60000. -/
def payload : Json :=
  .obj [("v", .num 2), ("role", .str "player"), ("roomId", .str roomId), ("sessionId", .str sessionId),
    ("hostId", .str hostId), ("exp", .num 60000), ("jti", .str jti)]

def node : Node where
  authentic _ claims mac := claims = "claims" && mac = "mac"
  decode claims := if claims = "claims" then some payload else none
  parse _ := none
  canonicalOrigin origin := some origin

def cfg : ServerConfig where
  enableSessionAuth := true
  roomCapacity := 2
  roomTtlSeconds := 120
  messageMaxBytes := 262144
  backpressureCloseThresholdBytes := 5242880
  production := false
  requireWss := false
  enableAuth := true
  usesJwks := true
  subprotocol := "cloud-gaming-v1"
  roomsClaim := "rooms"
  pairingTokenSecret := "0123456789abcdef0123456789abcdef"
  pairingTokenTtlSeconds := 120
  hostSecret := none
  hostSecretPrevious := none
  hostCredentials := []
  trustedProxyIps := []
  allowedOrigins := ["https://play.example"]
  rateLimitConnPer10s := 20
  cbErrorThreshold := 5
  cbOpenMs := 10000
  secret_long := by decide

def serverId : Uuid := ⟨"44444444-4444-4444-8444-444444444444", by decide⟩

def clientId : Uuid := ⟨"55555555-5555-4555-8555-555555555555", by decide⟩

/-- A player that presents the token, on socket `socket`. -/
def request (socket : Nat) : Request where
  socket := socket
  server := serverId
  wellFormed := true
  protocols := some ("cloud-gaming-v1, cg-room." ++ roomId ++ ", cg-role.player, cg-pairing.claims.mac, cg-access.jwt")
  authorization := none
  origin := some "https://play.example"
  encrypted := true
  remoteAddress := some "192.0.2.1"
  forwardedProto := none

/-- The access token authorizes the player for the room. -/
def outside : Outside where
  rooms := .empty
  strings _ := none
  counts _ := 0
  fallback := true
  jwt _ := some (.obj [("sub", .str "player"), ("role", .str "player"), ("rooms", .arr [.str roomId])])
  randomUuid := clientId
  circuits _ := {}

def start : World := .start 0 outside

def attempt (socket : Nat) : Prog sig Unit := handleNewConnection node cfg (request socket)

def turns (i n : Nat) : List (Choice sig Ambient) := List.replicate n (.go i)

/-- What a schedule ends in. -/
def play (cs : List (Choice sig Ambient)) : Pool sig World Unit := Pool.play (attempts node cfg) cs ⟨start, []⟩

end Sample

end Setup
end Signaling
end CloudGaming
