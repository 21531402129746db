import CloudGaming.Async.Along
import CloudGaming.Host.Runtime
/-!
# Tick — the host between two ticks of its runtime thread

The state of the runtime as `Start` and `Tick` read and write it, with the deadlines, the target window and the
capture, and the heartbeat loop that runs beside them.  Ticks and iterations of the loop do not overlap here.  What they
find outside (the clock, the games, the windows, how a call ends) comes with the event; times are milliseconds, and 0 is
the time point that is not set.
-/
namespace CloudGaming
namespace Host

open Async
open CloudGaming.Host.Runtime (HostState Report readCommand readPrepare stopReason)

/-! ## The state -/

structure PendingTarget where
  processName : String
  preferredTitle : String

structure Presence where
  hostId : String
  state : String
  region : String
  games : List (String × String × String × String)
  maxWidth : Nat := 3840
  maxHeight : Nat := 2160
  maxFps : Nat := 120

structure Heartbeat where
  hostId : String
  roomId : String
  pairingCode : String
  status : String
  region : String := "local"
  capacity : Nat := 1
  availableSlots : Nat
  deriving DecidableEq

/-- A heartbeat as it was sent: history.  `fromLoop` tells that the loop sent it, and not `Start`; the rest is the host
at that time. -/
structure SentHeartbeat where
  heartbeat : Heartbeat
  fromLoop : Bool
  client : Option String
  activeSessionId : String
  launches : Nat
  deriving DecidableEq

/-- The variables of `heartbeatLoop`. -/
structure HeartbeatLoop where
  hostId : String
  roomId : String
  pairingCode : String

/-- The host.  `client` is the room the signaling client is started with, and `peer` what `getPeerConnectionState`
answers; `launches`, the number of prepares that passed their checks, and `heartbeats` are history. -/
structure HostRuntime where
  state : HostState := .stopped
  failureReason : String := ""
  rtcStarted : Bool := false
  websocketStarted : Bool := false
  marketplaceStarted : Bool := false
  d3dInitialized : Bool := false
  captureStarted : Bool := false
  audioStarted : Bool := false
  hostId : String := ""
  roomId : String := ""
  pairingCode : String := ""
  targetProcessName : String := ""
  wideTargetProcessName : String := ""
  preferredWindowTitle : String := ""
  activeSessionId : String := ""
  activeGameId : String := ""
  activeCommandId : String := ""
  windowPollIntervalMs : Nat := 500
  windowReattachGraceMs : Nat := 1000
  windowReattachEnabled : Bool := true
  targetWindow : Option Nat := none
  targetPid : Nat := 0
  lastPeerState : Int := -1
  presenceRefreshRequested : Bool := false
  pendingTarget : Option PendingTarget := none
  pendingMarketplaceCommands : List Json := []
  nextTargetPoll : Nat := 0
  invalidWindowSince : Nat := 0
  launchDeadline : Nat := 0
  sessionDeadline : Nat := 0
  nextSessionReport : Nat := 0
  sessionDurationSeconds : Nat := 0
  sessionConnectedReported : Bool := false
  session : SessionManager := {}
  reports : List Report := []
  presences : List Presence := []
  client : Option String := none
  peer : Int := 0
  heartbeat : Option HeartbeatLoop := none
  launches : Nat := 0
  heartbeats : List SentHeartbeat := []

/-! ## Outside -/

structure InstalledGame where
  id : String
  source : String
  title : String
  localManifestId : String
  enabled : Bool
  installed : Bool

/-- What `GameInventory::List` returns, and whether Steam is there. -/
structure Inventory where
  games : List InstalledGame := []
  steam : Bool := true

/-- The error of `GameInventory::List`. -/
def Inventory.error (i : Inventory) : String :=
  if i.games.isEmpty && !i.steam then "Steam was not found; add a manual game instead" else ""

/-- `GameInventory::Find`. -/
def Inventory.find (i : Inventory) (localManifestId : String) : Except String InstalledGame :=
  match i.games.find? fun g => g.localManifestId = localManifestId && g.enabled && g.installed with
  | some game => .ok game
  | none => .error (if i.error = "" then "Game offering is disabled or unavailable" else i.error)

structure Window where
  window : Nat
  pid : Nat

structure LaunchedTarget where
  window : Window
  processName : String

/-- What a tick finds: the clock each time it is read, the next room, the games, the windows, and how the calls end. -/
structure Outside where
  commandTime : Nat := 1
  selectionTime : Nat := 1
  now : Nat := 1
  region : String := "local"
  inventory : Inventory := {}
  start : Except String Unit := .ok ()
  roomId : String := ""
  pollTarget : Option LaunchedTarget := none
  pickWindowByProcessName : String → String → Option Window := fun _ _ => none
  device : Bool := true
  capture : Bool := true
  audio : Bool := true
  isWindow : Bool := true
  sent : Bool := true

namespace HostRuntime

variable (s : HostRuntime) (o : Outside)

/-! ## Presence -/

def presenceState : HostState → String
  | .preparing => "preparing"
  | .ready => "ready"
  | .streaming => "streaming"
  | .reconnecting => "streaming"
  | .cleaning => "cleaning"
  | .failed => "failed"
  | _ => "idle"

/-- `MarketplacePresence`; `region` is what it takes from the environment. -/
def marketplacePresence (region : String) (inventory : Inventory) : Presence where
  hostId := s.hostId
  state := presenceState s.state
  region :=
    if region = "" ∨ region.utf8ByteSize > 32 ∨ ¬region.toList.all SessionManager.isIdCharacter then "local" else region
  games := (inventory.games.filter fun g => g.enabled && g.installed).map
    fun g => (g.id, g.source, g.title, g.localManifestId)

def sendPresence (region : String) (inventory : Inventory) : HostRuntime :=
  { s with presences := s.marketplacePresence region inventory :: s.presences }

/-! ## The pieces of a tick -/

def setState (state : HostState) (failureReason : String := "") : HostRuntime :=
  { s with state := state, failureReason := failureReason }

def report (r : Report) : HostRuntime := { s with reports := r :: s.reports }

def detachTarget : HostRuntime :=
  { s with
    audioStarted := false
    captureStarted := false
    targetWindow := none
    targetPid := 0 }

def initWebsocket (roomId : String) : HostRuntime := { s with client := some roomId }

/-- `stopWebsocket`, which closes the peer connection as well. -/
def stopWebsocket : HostRuntime := { s with client := none, peer := 0 }

def stopIfStarted : HostRuntime :=
  if s.websocketStarted then { s.stopWebsocket with websocketStarted := false } else s

/-- `CleanupSession`; `roomId` is the next room. -/
def cleanupSession (terminalEvent reason roomId : String) : HostRuntime :=
  if s.activeSessionId = "" then s
  else
    let stopped := (s.setState .cleaning).detachTarget.stopIfStarted
    let reported := { stopped with session := stopped.session.terminate reason }.report
      ⟨terminalEvent, s.activeSessionId, "", [("code", reason)]⟩
    { reported with
      activeSessionId := ""
      activeGameId := ""
      activeCommandId := ""
      targetProcessName := ""
      roomId := roomId
      sessionDurationSeconds := 0
      nextSessionReport := 0
      sessionConnectedReported := false
      launchDeadline := 0
      sessionDeadline := 0 }.setState .idle

/-! ### Commands -/

/-- The end of a prepare that passed its checks. -/
def launch (sessionId commandId gameId roomId : String) (duration : Nat) : HostRuntime :=
  let stopped := { s.stopIfStarted.detachTarget with launches := s.launches + 1 }
  match o.start with
  | .error e => stopped.report ⟨"session.failed", sessionId, commandId, [("code", "launch_failed"), ("detail", e)]⟩
  | .ok () =>
    let started := { stopped with session := (stopped.session.authorize sessionId).2 }.initWebsocket roomId
    let active := { started with
      websocketStarted := true
      activeSessionId := sessionId
      activeGameId := gameId
      activeCommandId := commandId
      roomId := roomId
      targetProcessName := ""
      wideTargetProcessName := ""
      sessionDurationSeconds := duration
      launchDeadline := o.commandTime + 180000
      sessionDeadline := o.commandTime + 180000 + duration * 1000
      nextSessionReport := 0
      sessionConnectedReported := false }
    (active.report ⟨"session.launch_ack", sessionId, commandId, []⟩).setState .preparing

def applyPrepare (sessionId commandId : String) (payload : Json) : Option HostRuntime :=
  if s.activeSessionId = sessionId then some (s.report ⟨"session.launch_ack", sessionId, commandId, []⟩)
  else if s.activeSessionId ≠ "" then
    some (s.report ⟨"session.failed", sessionId, commandId, [("code", "host_busy")]⟩)
  else
    (readPrepare payload).map fun prepare =>
      match o.inventory.find prepare.localManifestId with
      | .error e => s.report ⟨"session.failed", sessionId, commandId, [("code", "invalid_launch"), ("detail", e)]⟩
      | .ok game =>
        if sessionId.utf8ByteSize ≠ 36 ∨ prepare.roomId.utf8ByteSize ≠ 32 ∨ prepare.durationSeconds < (300 : Int) ∨
            prepare.durationSeconds > (28800 : Int) then
          s.report ⟨"session.failed", sessionId, commandId, [("code", "invalid_launch"), ("detail", "")]⟩
        else s.launch o sessionId commandId game.id prepare.roomId prepare.durationSeconds.toNat

def applyCommand (c : Runtime.MarketplaceCommand) : Option HostRuntime :=
  if c.type = "control.ready" then
    let told := s.report ⟨"host.hello", s.activeSessionId, "", [("state", s.state.name)]⟩
    some { told with
      nextSessionReport := if s.activeSessionId = "" then s.nextSessionReport else 0
      presenceRefreshRequested := true }
  else if c.type = "session.stop" then
    if c.sessionId = s.activeSessionId then
      (stopReason c.payload).map fun reason => s.cleanupSession "session.ended" reason o.roomId
    else some s
  else s.applyPrepare o c.sessionId c.commandId c.payload

/-- `ApplyMarketplaceCommand`; a field of the wrong type throws. -/
def applyMarketplaceCommand : Option HostRuntime :=
  match s.pendingMarketplaceCommands with
  | [] => some s
  | j :: rest => (readCommand j).bind ({ s with pendingMarketplaceCommands := rest }.applyCommand o)

/-! ### Targets -/

def applyPendingTargetSelection : HostRuntime :=
  match s.pendingTarget with
  | none => s
  | some pending =>
    { s.detachTarget with
      pendingTarget := none
      targetProcessName := pending.processName
      wideTargetProcessName := pending.processName
      preferredWindowTitle := pending.preferredTitle
      nextTargetPoll := o.selectionTime }.setState .waitingForTarget

/-- Whether the target was attached comes with the state. -/
def attachTarget (w : Window) : HostRuntime × Bool :=
  if !s.d3dInitialized && !o.device then (s.setState .failed "Failed to initialize D3D11", false)
  else
    let s := { s with d3dInitialized := true }
    if o.capture then
      ({ s with
          captureStarted := true
          audioStarted := o.audio
          targetWindow := some w.window
          targetPid := w.pid
          invalidWindowSince := 0 }.setState .ready, true)
    else (s, false)

def tryAttachTarget : HostRuntime × Bool :=
  match o.pickWindowByProcessName s.wideTargetProcessName s.preferredWindowTitle with
  | none => (s, false)
  | some w => s.attachTarget o w

def pollLaunched : HostRuntime :=
  match o.pollTarget with
  | none => s
  | some target =>
    let r := { s with
      targetProcessName := target.processName
      wideTargetProcessName := target.processName }.attachTarget o target.window
    if r.2 then { r.1 with nextSessionReport := 0 } else r.1

/-! ### The rest of a tick -/

def refreshPresence : HostRuntime :=
  if s.marketplaceStarted && s.presenceRefreshRequested then
    { s with presenceRefreshRequested := false }.sendPresence o.region o.inventory
  else s

/-- There is no capture. -/
def seek : HostRuntime :=
  if s.activeSessionId ≠ "" then
    if s.launchDeadline ≤ o.now then s.cleanupSession "session.failed" "launch_timeout" o.roomId
    else if s.nextTargetPoll ≤ o.now then { s.pollLaunched o with nextTargetPoll := o.now + 250 }
    else s
  else if s.state = .waitingForTarget ∧ s.nextTargetPoll ≤ o.now then
    { (s.tryAttachTarget o).1 with nextTargetPoll := o.now + s.windowPollIntervalMs }
  else s

def windowGone : Bool := s.targetWindow.isNone || !o.isWindow

def lostSince : Nat := if s.invalidWindowSince = 0 then o.now else s.invalidWindowSince

/-- The window has been gone for so long that another one is looked for. -/
def Lost : Prop := s.windowReattachEnabled ∧ s.lostSince o + s.windowReattachGraceMs ≤ o.now

instance : Decidable (s.Lost o) := inferInstanceAs (Decidable (_ ∧ _))

/-- The window of the target is gone. -/
def lose : HostRuntime :=
  let lost := s.Lost o
  let s := { s with invalidWindowSince := s.lostSince o }
  if lost then
    if s.activeSessionId ≠ "" then s.cleanupSession "session.failed" "game_exited" o.roomId
    else { s.detachTarget.setState .waitingForTarget with nextTargetPoll := o.now }
  else s

def peerConnected : Bool := s.peer = 2 || s.peer = 3

def reportSession : HostRuntime :=
  if s.activeSessionId ≠ "" ∧ !s.sessionConnectedReported ∧ s.nextSessionReport ≤ o.now then
    let told := s.report
      ⟨if s.peerConnected then "session.stream_connected" else "session.game_ready", s.activeSessionId, "", []⟩
    let told := { told with nextSessionReport := o.now + if o.sent then 1000 else 250 }
    if s.peerConnected && o.sent then
      { told with
        sessionConnectedReported := true
        sessionDeadline := o.now + s.sessionDurationSeconds * 1000 }
    else told
  else s

def followPeer : HostRuntime :=
  if s.peer = s.lastPeerState then s
  else
    let s := { s with lastPeerState := s.peer }
    if s.peerConnected then s.setState .streaming
    else if s.peer = 1 then s.setState .reconnecting
    else if s.peer = 4 ∨ s.peer = 5 ∨ s.peer = 6 then s.setState .ready
    else s

/-- There is a capture. -/
def watch : HostRuntime :=
  if s.windowGone o then s.lose o else ({ s with invalidWindowSince := 0 }.reportSession o).followPeer

/-- A tick, once the command, the selection and the refresh are dealt with. -/
def advance : HostRuntime :=
  if s.activeSessionId ≠ "" ∧ s.sessionDeadline ≤ o.now then
    s.cleanupSession "session.ended" "duration_expired" o.roomId
  else if s.captureStarted then s.watch o
  else s.seek o

def tick : Option HostRuntime :=
  (s.applyMarketplaceCommand o).map fun s => ((s.applyPendingTargetSelection o).refreshPresence o).advance o

/-! ## Other threads -/

def utf16Size (t : String) : Nat :=
  t.toList.foldl (fun n c => if c.toNat < 65536 then n + 1 else n + 2) 0

/-- The text is its own file name: it has neither a directory nor a drive. -/
def isFileName (t : String) : Bool :=
  t.toList.all (fun c => c.toNat ≠ 47 && c.toNat ≠ 92) &&
    !(match t.toList with | c :: d :: _ => c.isAlpha && d = ':' | _ => false)

def queueTargetSelection (processName preferredTitle : String) : Except String HostRuntime :=
  if processName = "" || processName.utf8ByteSize > 260 || utf16Size preferredTitle > 512 ||
      !isFileName processName then
    .error "Invalid target process selection"
  else .ok { s with pendingTarget := some ⟨processName, preferredTitle⟩ }

def requestPresenceRefresh : HostRuntime := { s with presenceRefreshRequested := true }

/-- On the control thread. -/
def handleMarketplaceCommand (command : Json) : HostRuntime :=
  match command.valueStr "type" "" with
  | some type =>
    if type ≠ "control.ready" ∧ type ≠ "session.prepare" ∧ type ≠ "session.stop" then s
    else if s.pendingMarketplaceCommands.length < 64 then
      { s with pendingMarketplaceCommands := s.pendingMarketplaceCommands ++ [command] }
    else s
  | none => s

/-! ## Heartbeats -/

inductive HeartbeatResult where
  | failed | accepted | rotatePairingCode
  deriving DecidableEq, Repr

/-- The peer connection is on its way or there. -/
def Occupied : Prop := s.peer = 1 ∨ s.peer = 3

instance : Decidable s.Occupied := inferInstanceAs (Decidable (_ ∨ _))

/-- `sendHeartbeat`. -/
def sendHeartbeat (fromLoop : Bool) (hostId roomId pairingCode : String) : HostRuntime :=
  let heartbeat : Heartbeat :=
    { hostId
      roomId
      pairingCode
      status := if s.Occupied then "busy" else "idle"
      availableSlots := if s.Occupied then 0 else 1 }
  { s with heartbeats := ⟨heartbeat, fromLoop, s.client, s.activeSessionId, s.launches⟩ :: s.heartbeats }

/-- What an iteration of the heartbeat loop finds. -/
structure Beat where
  result : HeartbeatResult := .accepted
  nextCode : String := ""
  region : String := "local"
  inventory : Inventory := {}

/-- An iteration of `heartbeatLoop`. -/
def beat (loop : HeartbeatLoop) (b : Beat) : HostRuntime :=
  let told := s.sendHeartbeat true loop.hostId loop.roomId loop.pairingCode
  let told :=
    if b.result = .rotatePairingCode then
      { told with pairingCode := b.nextCode, heartbeat := some { loop with pairingCode := b.nextCode } }.sendHeartbeat
        true loop.hostId loop.roomId b.nextCode
    else told
  told.sendPresence b.region b.inventory

/-! ## Start and Stop -/

/-- What `LoadAndValidateConfiguration` reads for the runtime. -/
structure Config where
  targetProcessName : String
  preferredTitleContains : String := ""
  pollIntervalMs : Option Int := none
  reattachGraceMs : Option Int := none
  reattach : Option Bool := none
  matchmakerEnabled : Bool := true

/-- What `Start` finds.  `locked` is the lock on the instance; a configuration that is not valid is none. -/
structure Boot where
  locked : Bool := true
  config : Option Config
  hostId : String
  roomId : String
  pairingCode : String
  rtc : Bool := true
  input : Bool := true
  matchmaker : Bool := true
  first : HeartbeatResult := .accepted
  nextCode : String := ""
  second : HeartbeatResult := .accepted
  control : Bool := true
  region : String := "local"
  inventory : Inventory := {}
  now : Nat := 1

def configure (c : Config) : HostRuntime :=
  { s with
    targetProcessName := c.targetProcessName
    wideTargetProcessName := c.targetProcessName
    preferredWindowTitle := c.preferredTitleContains
    windowPollIntervalMs := max 50 (c.pollIntervalMs.getD s.windowPollIntervalMs).toNat
    windowReattachGraceMs := (c.reattachGraceMs.getD s.windowReattachGraceMs).toNat
    windowReattachEnabled := c.reattach.getD s.windowReattachEnabled }

variable (b : Boot)

/-- The registration with the matchmaker, before the signaling client is started. -/
def register : Option HostRuntime :=
  if !b.matchmaker then none
  else
    let told := s.sendHeartbeat false s.hostId s.roomId s.pairingCode
    let (told, result) :=
      if b.first = .rotatePairingCode then
        ({ told with pairingCode := b.nextCode }.sendHeartbeat false s.hostId s.roomId b.nextCode, b.second)
      else (told, b.first)
    if result = .failed ∨ !b.control then none
    else some ({ told with marketplaceStarted := true }.sendPresence b.region b.inventory)

def startCoreServices (matchmakerEnabled : Bool) : Option HostRuntime :=
  if !b.rtc || !b.input then none
  else
    let s := { s with rtcStarted := true }
    let registered := if matchmakerEnabled then s.register b else some s
    registered.map fun s =>
      let s := { s.initWebsocket s.roomId with websocketStarted := true }
      if matchmakerEnabled then { s with heartbeat := some ⟨s.hostId, s.roomId, s.pairingCode⟩ } else s

/-- `Start`, where it succeeds; the histories start with it. -/
def start : Option HostRuntime :=
  if s.state ≠ .stopped ∧ s.state ≠ .failed then some s
  else if !b.locked then none
  else
    b.config.bind fun c =>
      let s := { (s.setState .initializing).configure c with
        roomId := b.roomId
        pairingCode := b.pairingCode
        hostId := b.hostId
        launches := 0
        heartbeats := [] }
      (s.startCoreServices b c.matchmakerEnabled).map fun s => { s with nextTargetPoll := b.now }.setState .idle

/-- `Stop`; `roomId` is the room that would be next. -/
def stop (roomId : String) : HostRuntime :=
  if s.state = .stopped ∨ s.state = .stopping then s
  else
    let cleaned := (s.setState .stopping).cleanupSession "session.failed" "host_stopped" roomId
    let cleaned := cleaned.detachTarget.stopIfStarted
    { cleaned with
      marketplaceStarted := false
      heartbeat := none
      peer := if cleaned.rtcStarted then 0 else cleaned.peer
      rtcStarted := false
      roomId := ""
      pairingCode := ""
      hostId := ""
      pendingTarget := none
      pendingMarketplaceCommands := []
      presenceRefreshRequested := false
      lastPeerState := -1 }.setState .stopped

end HostRuntime

/-! ## Runs -/

inductive RuntimeMove where
  | tick (o : Outside)
  -- what the other threads do between two ticks
  | queueTargetSelection (processName preferredTitle : String)
  | requestPresenceRefresh
  | handleMarketplaceCommand (command : Json)
  | beat (b : HostRuntime.Beat)
  -- `getPeerConnectionState` answers differently
  | peer (state : Int)

namespace HostRuntime

/-- A tick that throws ends the run. -/
def step (s : HostRuntime) : RuntimeMove → Option HostRuntime
  | .tick o => s.tick o
  | .queueTargetSelection processName preferredTitle =>
    some ((s.queueTargetSelection processName preferredTitle).toOption.getD s)
  | .requestPresenceRefresh => some s.requestPresenceRefresh
  | .handleMarketplaceCommand command => some (s.handleMarketplaceCommand command)
  | .beat b => s.heartbeat.map fun loop => s.beat loop b
  | .peer state => some { s with peer := state }

end HostRuntime

/-! ## What the moves do to the session and the client -/

/-- The session, the client and the heartbeats. -/
structure Link where
  activeSessionId : String
  websocketStarted : Bool
  client : Option String
  peer : Int
  heartbeat : Option HeartbeatLoop
  launches : Nat
  heartbeats : List SentHeartbeat

/-- The session is over, and the client is stopped. -/
def Link.cleaned (l : Link) : Link :=
  { l with
    activeSessionId := ""
    websocketStarted := false
    client := if l.websocketStarted then none else l.client
    peer := if l.websocketStarted then 0 else l.peer }

/-- The client is stopped for a launch. -/
def Link.launching (l : Link) : Link :=
  { l with
    websocketStarted := false
    client := if l.websocketStarted then none else l.client
    peer := if l.websocketStarted then 0 else l.peer
    launches := l.launches + 1 }

/-- The launch went well. -/
def Link.launched (l : Link) (sessionId roomId : String) : Link :=
  { l with activeSessionId := sessionId, websocketStarted := true, client := some roomId }

namespace HostRuntime

variable (s : HostRuntime) (o : Outside)

def link : Link := ⟨s.activeSessionId, s.websocketStarted, s.client, s.peer, s.heartbeat, s.launches, s.heartbeats⟩

@[simp] theorem link_setState (state : HostState) (reason : String) : (s.setState state reason).link = s.link := rfl

@[simp] theorem link_detachTarget : s.detachTarget.link = s.link := rfl

@[simp] theorem link_report (r : Report) : (s.report r).link = s.link := rfl

theorem cleanupSession_of_free (h : s.activeSessionId = "") (e r roomId : String) :
    s.cleanupSession e r roomId = s := if_pos h

theorem link_cleanupSession (h : s.activeSessionId ≠ "") (e r roomId : String) :
    (s.cleanupSession e r roomId).link = s.link.cleaned := by
  unfold cleanupSession
  rw [if_neg h]
  unfold stopIfStarted
  by_cases hw : s.websocketStarted
  · simp [hw, link, Link.cleaned, setState, report, detachTarget, stopWebsocket]
  · simp [hw, link, Link.cleaned, setState, report, detachTarget]

theorem state_cleanupSession (h : s.activeSessionId ≠ "") (e r roomId : String) :
    (s.cleanupSession e r roomId).state = .idle := by
  unfold cleanupSession
  rw [if_neg h]
  rfl

/-! ### Commands -/

/-- What a launch does. -/
theorem launch_cases (sessionId commandId gameId roomId : String) (duration : Nat) :
    let t := s.launch o sessionId commandId gameId roomId duration
    (t.link = s.link.launching ∧ t.state = s.state) ∨
      (t.link = s.link.launching.launched sessionId roomId ∧ t.state = .preparing) := by
  have hstop : (s.stopIfStarted.detachTarget.link, s.stopIfStarted.state) =
      ({ s.link.launching with launches := s.launches }, s.state) := by
    unfold stopIfStarted
    by_cases hw : s.websocketStarted <;> simp [hw, link, Link.launching, stopWebsocket, detachTarget]
  obtain ⟨hlink, hstate⟩ := Prod.mk.inj hstop
  simp only [link, Link.mk.injEq, Link.launching] at hlink
  obtain ⟨ha, hw, hc, hp, hb, hl, hs⟩ := hlink
  unfold launch
  cases o.start with
  | error e =>
    refine .inl ⟨?_, hstate⟩
    simp only [link, report, Link.launching, ha, hw, hc, hp, hb, hs]
  | ok u =>
    refine .inr ⟨?_, rfl⟩
    simp only [link, report, setState, initWebsocket, Link.launching, Link.launched, hp, hb, hs]

theorem ne_empty_of_size {t : String} (h : t.utf8ByteSize = 36) : t ≠ "" := by
  rintro rfl
  cases h

/-- **What the command of a tick does to the session and the client**: nothing, a cleanup, or a launch that fails or
not. -/
theorem command_cases {t : HostRuntime} (h : s.applyMarketplaceCommand o = some t) :
    (t.link = s.link ∧ t.state = s.state) ∨
      (s.activeSessionId ≠ "" ∧ t.link = s.link.cleaned ∧ t.state = .idle) ∨
      (s.activeSessionId = "" ∧ t.link = s.link.launching ∧ t.state = s.state) ∨
      s.activeSessionId = "" ∧ t.state = .preparing ∧
        ∃ id roomId, id ≠ "" ∧ t.link = s.link.launching.launched id roomId := by
  unfold applyMarketplaceCommand at h
  split at h
  · cases h
    exact .inl ⟨rfl, rfl⟩
  · rename_i j rest _
    obtain ⟨c, -, h⟩ := Option.bind_eq_some_iff.1 h
    unfold applyCommand at h
    split at h
    · cases h
      exact .inl ⟨rfl, rfl⟩
    · split at h
      · split at h
        · obtain ⟨reason, -, rfl⟩ := Option.map_eq_some_iff.1 h
          by_cases ha : s.activeSessionId = ""
          · rw [cleanupSession_of_free { s with pendingMarketplaceCommands := rest } ha]
            exact .inl ⟨rfl, rfl⟩
          · exact .inr (.inl ⟨ha, link_cleanupSession { s with pendingMarketplaceCommands := rest } ha ..,
              state_cleanupSession { s with pendingMarketplaceCommands := rest } ha ..⟩)
        · cases h
          exact .inl ⟨rfl, rfl⟩
      · unfold applyPrepare at h
        split at h
        · cases h
          exact .inl ⟨rfl, rfl⟩
        · split at h
          · cases h
            exact .inl ⟨rfl, rfl⟩
          · rename_i hactive
            have ha : s.activeSessionId = "" := not_not.1 hactive
            obtain ⟨prepare, -, rfl⟩ := Option.map_eq_some_iff.1 h
            split
            · exact .inl ⟨rfl, rfl⟩
            · split
              · exact .inl ⟨rfl, rfl⟩
              · rename_i hchecks
                have hid : c.sessionId ≠ "" := ne_empty_of_size (not_not.1 (not_or.1 hchecks).1)
                rcases launch_cases { s with pendingMarketplaceCommands := rest } o c.sessionId c.commandId _
                  prepare.roomId prepare.durationSeconds.toNat with hl | hl
                · exact .inr (.inr (.inl ⟨ha, hl⟩))
                · exact .inr (.inr (.inr ⟨ha, hl.2, c.sessionId, prepare.roomId, hid, hl.1⟩))

/-! ### The rest of a tick -/

@[simp] theorem link_applyPendingTargetSelection : (s.applyPendingTargetSelection o).link = s.link := by
  unfold applyPendingTargetSelection
  split <;> rfl

@[simp] theorem link_refreshPresence : (s.refreshPresence o).link = s.link := by
  unfold refreshPresence
  split <;> rfl

@[simp] theorem link_attachTarget (w : Window) : (s.attachTarget o w).1.link = s.link := by
  unfold attachTarget
  dsimp only
  split
  · rfl
  · split <;> rfl

theorem link_pollLaunched : (s.pollLaunched o).link = s.link := by
  unfold pollLaunched
  split
  · rfl
  · rename_i target _
    have h := link_attachTarget
      { s with targetProcessName := target.processName, wideTargetProcessName := target.processName } o target.window
    dsimp only
    split <;> exact h

theorem link_tryAttachTarget : (s.tryAttachTarget o).1.link = s.link := by
  unfold tryAttachTarget
  split
  · rfl
  · exact link_attachTarget ..

theorem link_reportSession : (s.reportSession o).link = s.link := by
  unfold reportSession
  dsimp only
  split
  · split <;> rfl
  · rfl

theorem link_followPeer : s.followPeer.link = s.link := by
  unfold followPeer
  split
  · rfl
  · dsimp only
    split
    · rfl
    · split
      · rfl
      · split <;> rfl

theorem lose_cases : (s.lose o).link = s.link ∨ s.activeSessionId ≠ "" ∧ (s.lose o).link = s.link.cleaned := by
  unfold lose
  dsimp only
  split
  · split
    · rename_i ha
      exact .inr ⟨ha, link_cleanupSession { s with invalidWindowSince := s.lostSince o } ha ..⟩
    · exact .inl rfl
  · exact .inl rfl

/-- **The rest of a tick leaves the session and the client as they are, or cleans the session up.** -/
theorem advance_cases : (s.advance o).link = s.link ∨ s.activeSessionId ≠ "" ∧ (s.advance o).link = s.link.cleaned := by
  unfold advance
  split
  · rename_i h
    exact .inr ⟨h.1, link_cleanupSession s h.1 ..⟩
  · split
    · unfold watch
      split
      · exact lose_cases s o
      · exact .inl ((link_followPeer _).trans (link_reportSession ..))
    · unfold seek
      split
      · rename_i ha
        split
        · exact .inr ⟨ha, link_cleanupSession s ha ..⟩
        · split
          · exact .inl (link_pollLaunched s o)
          · exact .inl rfl
      · split
        · exact .inl (link_tryAttachTarget s o)
        · exact .inl rfl

/-! ### Other threads -/

theorem queueTargetSelection_same (processName preferredTitle : String) :
    ((s.queueTargetSelection processName preferredTitle).toOption.getD s).link = s.link ∧
      ((s.queueTargetSelection processName preferredTitle).toOption.getD s).state = s.state := by
  unfold queueTargetSelection
  split <;> exact ⟨rfl, rfl⟩

theorem handleMarketplaceCommand_same (command : Json) :
    (s.handleMarketplaceCommand command).link = s.link ∧ (s.handleMarketplaceCommand command).state = s.state := by
  unfold handleMarketplaceCommand
  split
  · split
    · exact ⟨rfl, rfl⟩
    · split <;> exact ⟨rfl, rfl⟩
  · exact ⟨rfl, rfl⟩

/-! ### Start and Stop -/

/-- A runtime that was never started, or was stopped. -/
structure Stopped (s : HostRuntime) : Prop where
  state : s.state = .stopped ∨ s.state = .failed
  session : s.activeSessionId = ""
  client : s.client = none
  peer : s.peer = 0
  heartbeat : s.heartbeat = none

theorem stopped_new : ({} : HostRuntime).Stopped := ⟨.inl rfl, rfl, rfl, rfl, rfl⟩

theorem client_stopIfStarted (h : s.client.isSome → s.websocketStarted) : s.stopIfStarted.client = none := by
  unfold stopIfStarted
  split
  · rfl
  · rename_i hw
    exact Option.not_isSome_iff_eq_none.1 (mt h hw)

theorem rtcStarted_stopIfStarted : s.stopIfStarted.rtcStarted = s.rtcStarted := by
  unfold stopIfStarted
  split <;> rfl

theorem rtcStarted_cleanupSession (e r roomId : String) : (s.cleanupSession e r roomId).rtcStarted = s.rtcStarted := by
  unfold cleanupSession
  split
  · rfl
  · exact rtcStarted_stopIfStarted (s.setState .cleaning).detachTarget

theorem session_stopIfStarted : s.stopIfStarted.activeSessionId = s.activeSessionId := by
  unfold stopIfStarted
  split <;> rfl

/-- **A runtime that is stopped starts the way a new one does.** -/
theorem stopped_stop (hs : s.state ≠ .stopped) (hs' : s.state ≠ .stopping) (hr : s.rtcStarted)
    (hc : s.client.isSome → s.websocketStarted) (roomId : String) : (s.stop roomId).Stopped := by
  have hcleaned : ((s.setState .stopping).cleanupSession "session.failed" "host_stopped" roomId).activeSessionId = "" ∧
      (((s.setState .stopping).cleanupSession "session.failed" "host_stopped" roomId).client.isSome →
        ((s.setState .stopping).cleanupSession "session.failed" "host_stopped" roomId).websocketStarted) := by
    by_cases ha : s.activeSessionId = ""
    · rw [cleanupSession_of_free (s.setState .stopping) ha]
      exact ⟨ha, hc⟩
    · have hlink := link_cleanupSession (s.setState .stopping) ha "session.failed" "host_stopped" roomId
      simp only [link, Link.cleaned, Link.mk.injEq] at hlink
      obtain ⟨hactive, -, hclient, -⟩ := hlink
      refine ⟨hactive, fun hsome => ?_⟩
      have hnone : (if s.websocketStarted then none else s.client) = none := by
        cases hw : s.websocketStarted with
        | true => rfl
        | false => exact Option.not_isSome_iff_eq_none.1 fun hn => by simp [hc hn] at hw
      rw [hclient.trans hnone] at hsome
      cases hsome
  have hrtc := rtcStarted_cleanupSession (s.setState .stopping) "session.failed" "host_stopped" roomId
  unfold stop
  rw [if_neg (not_or.2 ⟨hs, hs'⟩)]
  generalize (s.setState .stopping).cleanupSession "session.failed" "host_stopped" roomId = cleaned at hcleaned hrtc
  have hrtc' : cleaned.detachTarget.stopIfStarted.rtcStarted := (rtcStarted_stopIfStarted _).trans (hrtc.trans hr)
  exact {
    state := .inl rfl
    session := (session_stopIfStarted cleaned.detachTarget).trans hcleaned.1
    client := client_stopIfStarted cleaned.detachTarget hcleaned.2
    peer := if_pos hrtc'
    heartbeat := rfl }

/-- The heartbeats of the registration: the client is not started by then. -/
structure Registration (s : HostRuntime) (x : SentHeartbeat) : Prop where
  fromLoop : x.fromLoop = false
  client : x.client = s.client
  status : x.heartbeat.status = if s.Occupied then "busy" else "idle"

/-- The registration sends heartbeats, and changes nothing of the client. -/
theorem register_spec {b : Boot} {t : HostRuntime} (h : s.register b = some t) :
    ∃ x xs, t.link = { s.link with heartbeats := x :: xs ++ s.heartbeats } ∧ t.roomId = s.roomId ∧
      ∀ y ∈ x :: xs, s.Registration y := by
  unfold register at h
  split at h
  · cases h
  · dsimp only at h
    by_cases hr : b.first = .rotatePairingCode
    · rw [if_pos hr] at h
      dsimp only at h
      split at h
      · cases h
      · cases h
        refine ⟨_, [_], rfl, rfl, fun x hx => ?_⟩
        simp only [List.mem_cons, List.not_mem_nil, or_false] at hx
        rcases hx with rfl | rfl <;> exact ⟨rfl, rfl, rfl⟩
    · rw [if_neg hr] at h
      dsimp only at h
      split at h
      · cases h
      · cases h
        refine ⟨_, [], rfl, rfl, fun x hx => ?_⟩
        obtain rfl := List.mem_singleton.1 hx
        exact ⟨rfl, rfl, rfl⟩

theorem startCoreServices_spec {b : Boot} {enabled : Bool} {t : HostRuntime}
    (h : s.startCoreServices b enabled = some t) : ∃ hs,
      t.link = ⟨s.activeSessionId, true, some s.roomId, s.peer, t.heartbeat, s.launches, hs ++ s.heartbeats⟩ ∧
      (∀ loop ∈ t.heartbeat, loop.roomId = s.roomId ∨ loop ∈ s.heartbeat) ∧ (∀ x ∈ hs, s.Registration x) ∧
      (enabled → hs ≠ []) := by
  unfold startCoreServices at h
  split at h
  · cases h
  · obtain ⟨u, hu, rfl⟩ := Option.map_eq_some_iff.1 h
    cases enabled with
    | true =>
      obtain ⟨x, xs, hlink, hroom, hall⟩ := register_spec { s with rtcStarted := true } hu
      simp only [link, Link.mk.injEq] at hlink
      obtain ⟨ha, -, -, hp, -, hl, hh⟩ := hlink
      refine ⟨x :: xs, ?_, ?_, fun y hy => ?_, fun _ => List.cons_ne_nil x xs⟩
      · simp [link, initWebsocket, ha, hp, hl, hh, hroom]
      · rintro loop ⟨⟩
        exact .inl hroom
      · exact ⟨(hall y hy).fromLoop, (hall y hy).client, (hall y hy).status⟩
    | false =>
      obtain rfl := Option.some.inj hu
      exact ⟨[], rfl, fun loop hl => .inr hl, (fun x hx => by cases hx), (fun hn => by cases hn)⟩

/-- The host after a successful `Start`. -/
structure Started (b : Boot) (t : HostRuntime) : Prop where
  state : t.state = .idle
  session : t.activeSessionId = ""
  websocket : t.websocketStarted
  client : t.client = some b.roomId
  peer : t.peer = 0
  launches : t.launches = 0
  heartbeat : ∀ loop ∈ t.heartbeat, loop.roomId = b.roomId
  heartbeats : ∀ x ∈ t.heartbeats, x.fromLoop = false ∧ x.client = none ∧ x.heartbeat.status = "idle"
  registered : (∃ c ∈ b.config, c.matchmakerEnabled) → t.heartbeats ≠ []

theorem start_spec {b : Boot} {t : HostRuntime} (hs : s.Stopped) (h : s.start b = some t) : t.Started b := by
  unfold start at h
  rw [if_neg (by rcases hs.state with h | h <;> simp [h])] at h
  split at h
  · cases h
  · obtain ⟨c, hconfig, h⟩ := Option.bind_eq_some_iff.1 h
    obtain ⟨u, hu, rfl⟩ := Option.map_eq_some_iff.1 h
    obtain ⟨hbs, hlink, hloop, hall, hne⟩ := startCoreServices_spec _ hu
    simp only [link, Link.mk.injEq] at hlink
    obtain ⟨ha, hw, hc, hp, -, hl, hh⟩ := hlink
    have hsent : u.heartbeats = hbs := hh.trans (List.append_nil hbs)
    refine ⟨rfl, ha.trans hs.session, hw, hc, hp.trans hs.peer, hl, fun loop hm => ?_, fun x hx => ?_, ?_⟩
    · have hnone : ¬loop ∈ s.heartbeat := by simp [hs.heartbeat]
      exact (hloop loop hm).resolve_right hnone
    · have hr := hall x (hsent ▸ hx)
      have hfree : ¬s.Occupied := by simp [Occupied, hs.peer]
      exact ⟨hr.fromLoop, hr.client.trans hs.client, hr.status.trans (if_neg hfree)⟩
    · rintro ⟨c', hc', henabled⟩
      obtain rfl := Option.some.inj (hconfig.symm.trans hc')
      exact fun hn => hne henabled (hsent.symm.trans hn)

/-! ### A start, and a prepare -/

def aBoot : Boot where
  config := some { targetProcessName := "game.exe" }
  hostId := "host"
  roomId := "room"
  pairingCode := "code"

def installed : Inventory where
  games := [⟨"steam:1", "steam", "A game", "steam-1", true, true⟩]

def prepareCommand (sessionId roomId : String) : Json :=
  .obj [("payload", .obj [("durationSeconds", .int 3600), ("offering", .obj [("localManifestId", .str "steam-1")]),
    ("roomId", .str roomId)]), ("sessionId", .str sessionId), ("type", .str "session.prepare")]

end HostRuntime

end Host
end CloudGaming
