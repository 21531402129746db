import CloudGaming.Async.Interleave
import CloudGaming.Host.SessionFrame
/-!
# Cleanup — the two threads of the host, interleaved

The websocket thread and the runtime thread, a section at a time.  `CleanupSession` clears the authorised input and
closes the connection before it joins the websocket thread: what a handler of that thread still authorises or connects
in between outlives the cleanup.  Where it does neither, the cleanup is final.
-/
namespace CloudGaming
namespace Host
namespace Runtime

open Async

/-- Whether a section may execute now: a join waits for the thread to end, a thread is not assigned over a joinable one,
and a stopped client runs no handler. -/
def World.permits (w : World) : Section → Bool
  | .join => w.websocketThread = .none || w.websocketThread = .ended
  | .initWebsocket => w.websocketThread = .none
  | .enter _ => w.websocketThread = .starting
  | .dispatch => !w.clientStopped
  | _ => true

/-- The handlers of a websocket thread, one after another; none throws out of the thread. -/
def dispatchAll (events : List SignalingEvent) : Thread Unit :=
  events.forM fun e => do
    step .dispatch
    e.handler.tryCatch (pure ())

/-- Websocket thread number `n`. -/
def websocketThread (n : Nat) (events : List SignalingEvent) : Thread Unit := do
  step (.enter n)
  dispatchAll events
  step .exit

/-- The runtime thread. -/
def runtimeThread (events : List RuntimeEvent) : Thread Unit := events.forM RuntimeEvent.handler

/-- The runtime thread is number 0; the control thread queues commands in between. -/
def threads : System sig World Unit Json where
  machine := machine
  spawn n p := if n = 0 then ∃ events, p = runtimeThread events else ∃ events, p = websocketThread n events
  ambient command w := w.receive command
  may _ := True
  fresh := ()
  note _ _ _ := ()

def Section.ofWebsocket : Section → Bool
  | .authorize caller _ | .clearAuthorizedSession caller | .closePeerConnection caller => caller = .websocket
  | .getStatus | .accepts _ | .markConnected _ | .markReconnecting | .approvalDialog .. | .clearSession _
  | .requestProfile .. | .authorizeSession _ | .createPeerConnection _ | .handleOffer ..
  | .handleRemoteIceCandidate .. | .setSignalingConnected _ | .send _ | .dispatch => true
  | _ => false

def Section.OfWebsocket (s : Section) : Prop := s.ofWebsocket = true

theorem websocket_step {s : Section} (h : s.ofWebsocket = true) : (step s).All Section.OfWebsocket := Prog.all_send h

variable (o : Outcome)

theorem websocket_connect (sdp sessionId : String) : (connect o sdp sessionId).All Section.OfWebsocket := by
  unfold connect
  refine (websocket_step rfl).bind fun authorized => ?_
  split
  · refine (websocket_step rfl).bind fun _ => (websocket_step rfl).bind fun created => ?_
    split
    · refine (websocket_step rfl).bind fun _ => Prog.All.bind ?_ fun _ => websocket_step rfl
      unfold sendAnswer
      split
      · trivial
      · exact websocket_step rfl
    · trivial
  · trivial

theorem websocket_handleOffer (sdp sessionId : String) : (handleOffer o sdp sessionId).All Section.OfWebsocket := by
  unfold handleOffer
  refine (websocket_step rfl).bind fun previous => ?_
  split
  · exact websocket_connect o sdp sessionId
  · refine (websocket_step rfl).bind fun _ => ?_
    split
    · refine Prog.All.bind ?_ fun _ => websocket_connect o sdp sessionId
      unfold replace
      split
      · trivial
      · exact (websocket_step rfl).bind fun _ => (websocket_step rfl).bind fun _ => websocket_step rfl
    · exact websocket_step rfl

theorem websocket_peerDisconnected : peerDisconnected.All Section.OfWebsocket := by
  unfold peerDisconnected
  refine (websocket_step rfl).bind fun _ => (websocket_step rfl).bind fun _ => (websocket_step rfl).bind fun _ => ?_
  split
  · exact (websocket_step rfl).bind fun _ => websocket_step rfl
  · exact websocket_step rfl

theorem websocket_candidateMessage (message : Json) : (candidateMessage o message).All Section.OfWebsocket := by
  unfold candidateMessage
  split
  · refine (websocket_step rfl).bind fun accepted => ?_
    split
    · exact websocket_step rfl
    · trivial
  · trivial

theorem websocket_profileMessage (message : Json) : (profileMessage message).All Section.OfWebsocket := by
  unfold profileMessage
  split
  · refine (websocket_step rfl).bind fun accepted => ?_
    split
    · split
      · exact (websocket_step rfl).bind fun _ => websocket_step rfl
      · trivial
    · trivial
  · trivial

theorem websocket_onMessage (p : Payload) : (onMessage o p).All Section.OfWebsocket := by
  unfold onMessage
  split
  · trivial
  split
  · trivial
  split
  · split
    · exact websocket_peerDisconnected
    split
    · unfold offerMessage
      split
      · split
        · trivial
        · exact websocket_handleOffer o _ _
      · trivial
    split
    · exact websocket_candidateMessage o _
    split
    · exact websocket_profileMessage _
    · trivial
  · trivial

theorem websocket_handler (e : SignalingEvent) : e.handler.All Section.OfWebsocket := by
  have hclose : onClose.All Section.OfWebsocket :=
    (websocket_step rfl).bind fun _ => (websocket_step rfl).bind fun _ => websocket_step rfl
  cases e with
  | opened => exact websocket_step rfl
  | closed => exact hclose
  | failed => exact hclose
  | message o p => exact websocket_onMessage o p

/-! ## What each thread keeps -/

def Stage.rank : Stage → Nat
  | none => 0
  | cleared => 1
  | closed => 2
  | joined => 3
  | terminated => 4
  | done => 5

/-- What the last cleanup has achieved, as far as it has come. -/
structure Progress (w : World) : Prop where
  cleared : 1 ≤ w.stage.rank → w.authorizedSessionId = ""
  closed : 2 ≤ w.stage.rank → w.go.peerConnection = none
  joined : 3 ≤ w.stage.rank → w.websocketThread = .none
  terminated : 4 ≤ w.stage.rank → w.session.state = .idle ∧ w.session.sessionId = ""

def Running (n : Nat) (w : World) : Prop := w.websocketThread = .running n

/-- Nobody ends or replaces the running websocket thread of another number. -/
def rely (n : Nat) (w w' : World) : Prop := Running n w → Running n w'

variable {w : World} {s : Section}

theorem Progress.at (k : Nat) (hk : w.stage.rank = k) (h₁ : 1 ≤ k → w.authorizedSessionId = "")
    (h₂ : 2 ≤ k → w.go.peerConnection = none) (h₃ : 3 ≤ k → w.websocketThread = .none)
    (h₄ : 4 ≤ k → w.session.state = .idle ∧ w.session.sessionId = "") : Progress w := by
  subst hk
  exact ⟨h₁, h₂, h₃, h₄⟩

/-- The input is in nobody's hands, there is no connection, and no session is remembered. -/
structure Clean (w : World) : Prop where
  authorized : w.authorizedSessionId = ""
  peer : w.go.peerConnection = none
  state : w.session.state = .idle
  session : w.session.sessionId = ""

section takeover

def room : String := "0123456789abcdef0123456789abcdef"

/-- A prepare for `sessionA`, as it arrives. -/
def prepareA : Json :=
  .obj [("commandId", .str "1"), ("payload", .obj [("durationSeconds", .int 3600),
    ("offering", .obj [("localManifestId", .str "game")]), ("roomId", .str room)]), ("sessionId", .str sessionA),
    ("type", .str "session.prepare")]

def turns (i n : Nat) : List (Choice sig Json) := List.replicate n (.go i)

/-- `sessionA` is prepared: the first websocket thread ends, and the second one has read an offer of `sessionB`. -/
def prepared : List (Choice sig Json) :=
  [.start (runtimeThread [.command ⟨fun _ => .ok "game", .ok (), room⟩, .cleanup "session.ended" "stopped" room]),
    .start (websocketThread 1 []), .start (websocketThread 2 [.message {} (offerOf sessionB)]), .ambient prepareA] ++
    turns 1 1 ++ turns 0 6 ++ turns 1 1 ++ turns 0 9 ++ turns 2 3

end takeover

end Runtime
end Host
end CloudGaming
