import CloudGaming.Async.Prog
import CloudGaming.Host.Signaling
/-!
# Runtime — the host's websocket thread and its runtime thread

The handlers of both threads, as programs over the host's atomic sections: a section under a lock, a call into Go, a
join.  What the handlers get from outside (the user's answer, whether a call into Go or a launch succeeds) comes with
the event.  Deadlines, capture and target windows are left out: what `Tick` decides from them is an event.
-/
namespace CloudGaming
namespace Host
namespace Runtime

open Async

inductive HostState where
  | stopped | initializing | idle | preparing | waitingForTarget | ready | streaming | reconnecting | cleaning
  | stopping | failed
  deriving DecidableEq, Repr

/-- `ToString`. -/
def HostState.name : HostState → String
  | stopped => "Stopped"
  | initializing => "Initializing"
  | idle => "Idle"
  | preparing => "Preparing"
  | waitingForTarget => "WaitingForTarget"
  | ready => "Ready"
  | streaming => "Streaming"
  | reconnecting => "Reconnecting"
  | cleaning => "Cleaning"
  | stopping => "Stopping"
  | failed => "Failed"

/-! ## The host -/

/-- A peer connection of the Go layer; `id` numbers the creations. -/
structure Peer where
  id : Nat
  remoteDescription : Option String := none
  candidates : List String := []
  deriving DecidableEq

structure GoLayer where
  peerConnection : Option Peer := none
  created : Nat := 0
  pendingRemoteCandidates : List String := []

/-- The websocket thread, numbered as it starts. -/
inductive WebsocketThread where
  | none | starting | running (n : Nat) | ended
  deriving DecidableEq, Repr

/-- A message of the marketplace control channel, as `Send` builds it. -/
structure Report where
  eventType : String
  sessionId : String
  commandId : String := ""
  payload : List (String × String) := []

/-- How far the last cleanup has come: history. -/
inductive Stage where
  | none | cleared | closed | joined | terminated | done
  deriving DecidableEq, Repr

/-- The host.  `approved`, `prepared` and `stage` are history: the sessions the user approved, those whose prepare was
accepted, and the progress of the last cleanup. -/
structure World where
  session : SessionManager := {}
  streamProfiles : StreamProfileManager := {}
  authorizedSessionId : String := ""
  go : GoLayer := {}
  signalingConnected : Bool := false
  websocketStopRequested : Bool := false
  clientStopped : Bool := false
  websocketThread : WebsocketThread := .starting
  sent : List Json := []
  state : HostState := .idle
  websocketStarted : Bool := true
  activeSessionId : String := ""
  activeGameId : String := ""
  activeCommandId : String := ""
  roomId : String := ""
  sessionConnectedReported : Bool := false
  pendingMarketplaceCommands : List Json := []
  reports : List Report := []
  approved : List String := []
  prepared : List String := []
  stage : Stage := .none

/-! ## Sections -/

inductive Caller where
  | websocket | runtime
  deriving DecidableEq, Repr

inductive Section where
  | getStatus
  | authorize (caller : Caller) (sessionId : String)
  | accepts (sessionId : String)
  | markConnected (sessionId : String)
  | markReconnecting
  | terminate (reason : String)
  | approvalDialog (sessionId : String) (approve : Bool)
  | clearSession (sessionId : String)
  | requestProfile (sessionId : String) (profile : Profile) (capabilities : ClientCapabilities)
  | clearAuthorizedSession (caller : Caller)
  | authorizeSession (sessionId : String)
  | closePeerConnection (caller : Caller)
  | createPeerConnection (created : Bool)
  | handleOffer (sdp : String) (created accepted : Bool)
  | handleRemoteIceCandidate (candidate : String) (added : Bool)
  | setSignalingConnected (connected : Bool)
  | send (message : Json)
  | popCommand
  | activeSession
  | getState
  | setState (state : HostState)
  | report (r : Report)
  | websocketStarted
  | setWebsocketStarted (started : Bool)
  | requestStop
  | stopClient
  | join
  | launch (sessionId : String) (started : Bool)
  | initWebsocket
  | setActive (sessionId gameId commandId roomId : String)
  | clearActive (roomId : String)
  | enter (n : Nat)
  | dispatch
  | exit

@[reducible] def Section.Reply : Section → Type
  | getStatus => SessionManager
  | authorize .. => Bool
  | accepts _ => Bool
  | requestProfile .. => Except String Unit
  | createPeerConnection _ => Bool
  | popCommand => Option Json
  | activeSession => String
  | getState => HostState
  | websocketStarted => Bool
  | _ => Unit

/-! ### The Go layer -/

/-- `createPeerConnectionGo`: the old connection is closed, even where the new one cannot be made. -/
def GoLayer.create (g : GoLayer) (created : Bool) : GoLayer where
  peerConnection := if created then some ⟨g.created, none, []⟩ else none
  created := g.created + 1
  pendingRemoteCandidates := []

def GoLayer.close (g : GoLayer) : GoLayer := { g with peerConnection := none }

/-- `handleOffer`, which makes a connection where there is none. -/
def GoLayer.offer (g : GoLayer) (sdp : String) (created accepted : Bool) : GoLayer :=
  let g := if g.peerConnection.isNone then g.create created else g
  match g.peerConnection with
  | none => g
  | some pc =>
    if accepted then
      { g with
        peerConnection := some { pc with
          remoteDescription := some sdp
          candidates := pc.candidates ++ g.pendingRemoteCandidates }
        pendingRemoteCandidates := [] }
    else g

def GoLayer.candidate (g : GoLayer) (candidate : String) (added : Bool) : GoLayer :=
  match g.peerConnection with
  | none => g
  | some pc =>
    if pc.remoteDescription.isNone then
      { g with pendingRemoteCandidates := g.pendingRemoteCandidates ++ [candidate] }
    else if added then { g with peerConnection := some { pc with candidates := pc.candidates ++ [candidate] } }
    else g

/-- `send_message`: the session id is filled in where the message has none. -/
def World.sendMessage (w : World) (message : Json) : World :=
  if !w.signalingConnected then w
  else
    let outbound := match message with
      | .obj fields =>
        if message.contains "sessionId" || w.session.sessionId = "" then message
        else .obj (fields.filter (·.1 < "sessionId") ++ ("sessionId", .str w.session.sessionId) ::
          fields.filter ("sessionId" < ·.1))
      | other => other
    { w with sent := outbound :: w.sent }

/-! ### Effects -/

/-- What a section does to the host. -/
def World.after (w : World) : Section → World
  | .authorize caller sessionId =>
    { w with
      session := (w.session.authorize sessionId).2
      stage := if caller = .runtime then .none else w.stage }
  | .markConnected sessionId => { w with session := w.session.markConnected sessionId }
  | .markReconnecting => { w with session := w.session.markReconnecting }
  | .terminate reason =>
    { w with session := w.session.terminate reason, stage := if w.stage = .joined then .terminated else w.stage }
  | .approvalDialog sessionId approve => { w with approved := if approve then sessionId :: w.approved else w.approved }
  | .clearSession sessionId => { w with streamProfiles := w.streamProfiles.clearSession sessionId }
  | .requestProfile sessionId profile capabilities =>
    { w with streamProfiles := (w.streamProfiles.request sessionId profile capabilities).2 }
  | .clearAuthorizedSession caller =>
    { w with authorizedSessionId := "", stage := if caller = .runtime then .cleared else w.stage }
  | .authorizeSession sessionId => { w with authorizedSessionId := sessionId }
  | .closePeerConnection caller =>
    { w with
      go := w.go.close
      stage := if caller = .runtime ∧ w.stage = .cleared then .closed else w.stage }
  | .createPeerConnection created => { w with go := w.go.create created }
  | .handleOffer sdp created accepted => { w with go := w.go.offer sdp created accepted }
  | .handleRemoteIceCandidate candidate added => { w with go := w.go.candidate candidate added }
  | .setSignalingConnected connected => { w with signalingConnected := connected }
  | .send message => w.sendMessage message
  | .popCommand => { w with pendingMarketplaceCommands := w.pendingMarketplaceCommands.tail }
  | .setState state => { w with
      state := state
      stage := if w.stage = .terminated ∧ state = .idle then .done else w.stage }
  | .report r => { w with reports := r :: w.reports }
  | .setWebsocketStarted started => { w with websocketStarted := started }
  | .requestStop => { w with websocketStopRequested := true, signalingConnected := false }
  | .stopClient => { w with clientStopped := true }
  | .join => { w with websocketThread := .none, stage := if w.stage = .closed then .joined else w.stage }
  | .launch sessionId started => { w with prepared := if started then sessionId :: w.prepared else w.prepared }
  | .initWebsocket =>
    { w with websocketStopRequested := false, clientStopped := false, websocketThread := .starting, stage := .none }
  | .setActive sessionId gameId commandId roomId =>
    { w with
      activeSessionId := sessionId
      activeGameId := gameId
      activeCommandId := commandId
      roomId := roomId
      sessionConnectedReported := false }
  | .clearActive roomId =>
    { w with
      activeSessionId := ""
      activeGameId := ""
      activeCommandId := ""
      roomId := roomId
      sessionConnectedReported := false }
  | .enter n => { w with websocketThread := .running n }
  | .exit => { w with websocketThread := .ended }
  | _ => w

/-- What a section answers. -/
def World.answer (w : World) : (s : Section) → s.Reply
  | .getStatus => w.session
  | .authorize _ sessionId => (w.session.authorize sessionId).1
  | .accepts sessionId => w.session.accepts sessionId
  | .requestProfile sessionId profile capabilities =>
    (w.streamProfiles.request sessionId profile capabilities).1
  | .createPeerConnection created => created
  | .popCommand => w.pendingMarketplaceCommands.head?
  | .activeSession => w.activeSessionId
  | .getState => w.state
  | .websocketStarted => w.websocketStarted
  | .markConnected _ | .markReconnecting | .terminate _ | .approvalDialog .. | .clearSession _
  | .clearAuthorizedSession _ | .authorizeSession _ | .closePeerConnection _ | .handleOffer ..
  | .handleRemoteIceCandidate .. | .setSignalingConnected _ | .send _ | .setState _ | .report _
  | .setWebsocketStarted _ | .requestStop | .stopClient | .join | .launch .. | .initWebsocket | .setActive ..
  | .clearActive _ | .enter _ | .dispatch | .exit => ()

@[reducible] def sig : Sig := ⟨Section, Section.Reply, Empty, fun _ => Empty⟩

def machine : Machine sig World where
  exec s w := (w.answer s, w.after s)
  call o _ := o.elim

abbrev Thread (α : Type) := Prog sig α

abbrev step (s : Section) : Thread s.Reply := Prog.send (σ := sig) s

/-! ## The websocket thread -/

/-- What a handler of the websocket thread gets from outside: its budget, the user's answer in the dialog, and how the
calls into Go end. -/
structure Outcome where
  budget : Bool := true
  approve : Bool := true
  created : Bool := true
  recreated : Bool := true
  accepted : Bool := true
  answer : Option String := none
  added : Bool := true

variable (o : Outcome)

def sendAnswer : Thread Unit :=
  match o.answer with
  | none => pure ()
  | some sdp => step (.send (.obj [("sdp", .str sdp), ("type", .str "answer")]))

/-- The end of `handleOffer`: the session is authorised, and the connection is made. -/
def connect (sdp sessionId : String) : Thread Unit := do
  let authorized ← step (.authorize .websocket sessionId)
  if authorized then
    step (.authorizeSession sessionId)
    let created ← step (.createPeerConnection o.created)
    if created then
      step (.handleOffer sdp o.recreated o.accepted)
      sendAnswer o
      step (.markConnected sessionId)

/-- The session remembered so far makes room for another. -/
def replace (previous : String) : Thread Unit :=
  if previous = "" then pure ()
  else do
    step (.clearSession previous)
    step (.clearAuthorizedSession .websocket)
    step (.closePeerConnection .websocket)

def hostDenied (sessionId : String) : Json :=
  .obj [("action", .str "terminate"), ("payload", .obj [("reason", .str "host_denied")]), ("sessionId", .str sessionId),
    ("type", .str "control")]

def handleOffer (sdp sessionId : String) : Thread Unit := do
  let previous ← step .getStatus
  if previous.sessionId = sessionId then connect o sdp sessionId
  else do
    step (.approvalDialog sessionId o.approve)
    if o.approve then do
      replace previous.sessionId
      connect o sdp sessionId
    else step (.send (hostDenied sessionId))

def peerDisconnected : Thread Unit := do
  let session ← step .getStatus
  step (.closePeerConnection .websocket)
  step (.clearAuthorizedSession .websocket)
  if session.sessionId ≠ "" then step (.clearSession session.sessionId)
  step .markReconnecting

def offerMessage (message : Json) : Thread Unit :=
  match message.valueStr "sdp" "", message.valueStr "sessionId" "" with
  | some sdp, some sessionId => if sdp = "" ∨ sessionId = "" then pure () else handleOffer o sdp sessionId
  | _, _ => pure ()

def candidateMessage (message : Json) : Thread Unit :=
  match (message.field? "candidate").bind Json.str?, message.valueStr "sessionId" "" with
  | some candidate, some sessionId => do
    let accepted ← step (.accepts sessionId)
    if accepted then step (.handleRemoteIceCandidate candidate o.added)
  | _, _ => pure ()

def profile? (message : Json) : Option Profile := do
  return ⟨← message.valueInt "width" 0, ← message.valueInt "height" 0, ← message.valueInt "fps" 0,
    ← message.valueInt "bitrate" 0⟩

def capabilities? (caps : Json) : Option ClientCapabilities := do
  return ⟨← caps.valueInt "maxWidth" 0, ← caps.valueInt "maxHeight" 0, ← caps.valueInt "maxFps" 0,
    ← caps.valueInt "maxBitrate" 0, ← caps.valueBool "h264" false⟩

def profileResponse (profile : Profile) : Except String Unit → Json
  | .ok () => .obj [("action", .str "profile-accepted"), ("payload", .obj [("bitrate", .int profile.bitrate),
      ("fps", .int profile.fps), ("height", .int profile.height), ("width", .int profile.width)]),
      ("type", .str "control")]
  | .error e => .obj [("action", .str "profile-rejected"), ("payload", .obj [("reason", .str e)]),
      ("type", .str "control")]

def profileMessage (message : Json) : Thread Unit :=
  match message.valueStr "sessionId" "", message.field? "capabilities" with
  | some sessionId, some caps => do
    let accepted ← step (.accepts sessionId)
    if accepted && caps.isObject then
      match profile? message, capabilities? caps with
      | some profile, some capabilities => do
        let answer ← step (.requestProfile sessionId profile capabilities)
        step (.send (profileResponse profile answer))
      | _, _ => pure ()
  | _, _ => pure ()

def kMaxWsPayload : Nat := 300 * 1024

/-- `on_message`. -/
def onMessage (p : Payload) : Thread Unit :=
  if p.size > kMaxWsPayload ∨ !o.budget then pure ()
  else
    match p.value with
    | none => pure ()
    | some message =>
      match SignalingSchema.validate message, SignalingSchema.messageType? message with
      | .ok (), some type =>
        if type = "peer-disconnected" then peerDisconnected
        else if type = "offer" then offerMessage o message
        else if type = "candidate" then candidateMessage o message
        else if type = "stream-profile" then profileMessage message
        else pure ()
      | _, _ => pure ()

/-- `on_close` and `on_fail`. -/
def onClose : Thread Unit := do
  step (.setSignalingConnected false)
  step .markReconnecting
  step (.closePeerConnection .websocket)

inductive SignalingEvent where
  | opened
  | closed
  | failed
  | message (o : Outcome) (p : Payload)

def SignalingEvent.handler : SignalingEvent → Thread Unit
  | opened => step (.setSignalingConnected true)
  | closed => onClose
  | failed => onClose
  | message o p => onMessage o p

/-! ## The runtime thread -/

def stopWebsocket : Thread Unit := do
  step .requestStop
  step (.closePeerConnection .runtime)
  step .stopClient
  step .join

def stopIfStarted : Thread Unit := do
  let started ← step .websocketStarted
  if started then
    stopWebsocket
    step (.setWebsocketStarted false)

/-- `CleanupSession`; `roomId` is the next room. -/
def cleanupSession (terminalEvent reason roomId : String) : Thread Unit :=
  Prog.tryCatch (do
    let sessionId ← step .activeSession
    if sessionId ≠ "" then
      step (.setState .cleaning)
      step (.clearAuthorizedSession .runtime)
      stopIfStarted
      step (.terminate reason)
      step (.report ⟨terminalEvent, sessionId, "", [("code", reason)]⟩)
      step (.clearActive roomId)
      step (.setState .idle)) (step (.setState .failed))

/-- What a command finds outside: the games that are installed, whether the game starts, and the next room. -/
structure Launch where
  find : String → Except String String
  start : Except String Unit
  roomId : String

structure MarketplaceCommand where
  type : String
  sessionId : String
  commandId : String
  payload : Json

def readCommand (j : Json) : Option MarketplaceCommand := do
  return ⟨← j.valueStr "type" "", ← j.valueStr "sessionId" "", ← j.valueStr "commandId" "",
    (j.field? "payload").getD (.obj [])⟩

/-- The reason in the payload of a stop. -/
def stopReason (payload : Json) : Option String :=
  if payload.isObject then payload.valueStr "reason" "stopped" else none

structure Prepare where
  localManifestId : String
  roomId : String
  durationSeconds : Int

def readPrepare (payload : Json) : Option Prepare :=
  let offering := (payload.field? "offering").getD (.obj [])
  if payload.isObject && offering.isObject then do
    return ⟨← offering.valueStr "localManifestId" "", ← payload.valueStr "roomId" "",
      ← payload.valueInt "durationSeconds" 0⟩
  else none

variable (l : Launch) (c : MarketplaceCommand)

/-- The end of a prepare that passed its checks. -/
def launch (prepare : Prepare) (gameId : String) : Thread Unit := do
  stopIfStarted
  match l.start with
  | .error e => do
    step (.launch c.sessionId false)
    step (.report ⟨"session.failed", c.sessionId, c.commandId, [("code", "launch_failed"), ("detail", e)]⟩)
  | .ok () => do
    step (.launch c.sessionId true)
    let _ ← step (.authorize .runtime c.sessionId)
    step .initWebsocket
    step (.setWebsocketStarted true)
    step (.setActive c.sessionId gameId c.commandId prepare.roomId)
    step (.report ⟨"session.launch_ack", c.sessionId, c.commandId, []⟩)
    step (.setState .preparing)

def applyPrepare : Thread Unit := do
  let active ← step .activeSession
  if active = c.sessionId then step (.report ⟨"session.launch_ack", c.sessionId, c.commandId, []⟩)
  else if active ≠ "" then
    step (.report ⟨"session.failed", c.sessionId, c.commandId, [("code", "host_busy")]⟩)
  else
    match readPrepare c.payload with
    | none => Prog.throw
    | some prepare =>
      match l.find prepare.localManifestId with
      | .error e =>
        step (.report ⟨"session.failed", c.sessionId, c.commandId, [("code", "invalid_launch"), ("detail", e)]⟩)
      | .ok gameId =>
        if c.sessionId.utf8ByteSize ≠ 36 ∨ prepare.roomId.utf8ByteSize ≠ 32 ∨ prepare.durationSeconds < 300 ∨
            prepare.durationSeconds > 28800 then
          step (.report ⟨"session.failed", c.sessionId, c.commandId, [("code", "invalid_launch"), ("detail", "")]⟩)
        else launch l c prepare gameId

def applyCommand : Thread Unit := do
  if c.type = "control.ready" then do
    let active ← step .activeSession
    let state ← step .getState
    step (.report ⟨"host.hello", active, "", [("state", state.name)]⟩)
  else if c.type = "session.stop" then do
    let active ← step .activeSession
    if c.sessionId = active then
      match stopReason c.payload with
      | none => Prog.throw
      | some reason => cleanupSession "session.ended" reason l.roomId
  else applyPrepare l c

/-- `ApplyMarketplaceCommand`; a field of the wrong type throws. -/
def applyMarketplaceCommand : Thread Unit := do
  let command ← step .popCommand
  match command with
  | none => pure ()
  | some j =>
    match readCommand j with
    | none => Prog.throw
    | some c => applyCommand l c

/-- What `Tick` does. -/
inductive RuntimeEvent where
  | command (l : Launch)
  | cleanup (terminalEvent reason roomId : String)

def RuntimeEvent.handler : RuntimeEvent → Thread Unit
  | command l => applyMarketplaceCommand l
  | cleanup terminalEvent reason roomId => cleanupSession terminalEvent reason roomId

/-- `HandleMarketplaceCommand`, on the control thread. -/
def World.receive (w : World) (command : Json) : World :=
  if command.valueStr "type" "" ∈ [some "control.ready", some "session.prepare", some "session.stop"] ∧
      w.pendingMarketplaceCommands.length < 64 then
    { w with pendingMarketplaceCommands := w.pendingMarketplaceCommands ++ [command] }
  else w

/-! ## One handler at a time -/

inductive Input where
  | signaling (e : SignalingEvent)
  | runtime (e : RuntimeEvent)
  | control (command : Json)

def World.handle (w : World) : Input → World
  | .signaling e => (e.handler.run machine w).2
  | .runtime e => (e.handler.run machine w).2
  | .control command => w.receive command

/-- The host after a sequence of inputs, each handled to completion. -/
def World.run (w : World) (inputs : List Input) : World := inputs.foldl World.handle w

end Runtime
end Host
end CloudGaming
