import CloudGaming.Market.Store
/-!
# Handlers — the marketplace routes, host events and deadline polls of the matchmaker

One definition for each function of the matchmaker, as a program over the store's commands.  Where the source mutates a
session object the definition returns the mutated copy; an object is never aliased across two handlers, since every
handler parses its own.  Metrics and log lines are left out.
-/
namespace CloudGaming
namespace Market

open Async

abbrev Js (α : Type) := Prog sig α

abbrev await (c : Cmd) : Js c.Reply := Prog.send (σ := sig) c

abbrev invoke (o : Call) : Js o.Answer := Prog.invoke (σ := sig) o

/-- A control command is due 180 seconds after it is sent. -/
def prepareMillis : Nat := 180000

/-- A disconnected host has 30 seconds to reconnect. -/
def reconnectMillis : Nat := 30000

def saveSession (session : Session) : Js Session := do
  let updatedAt ← invoke .dateNow
  let session := { session with updatedAt := updatedAt }
  await (.setSession session)
  await (.pushEvent session.id session.state session.updatedAt)
  await (.expireEvents session.id (sessionTtl session.durationSeconds))
  return session

def loadSession (sessionId : SessionId) : Js (Option Session) := await (.getSession sessionId)

def releaseHost (hostId : Option HostId) (sessionId : SessionId) : Js Bool := await (.release hostId sessionId)

def releasePlayer (session : Session) : Js Unit := do
  let holder ← await (.getPlayer session.playerId)
  if holder = some session.id then await (.delPlayer session.playerId)

/-- The record of `session` allocated to `hostId`, `attempted` being the hosts tried so far, this one included. -/
def allocatedTo (session : Session) (attempted : List HostId) (hostId : HostId) : Session :=
  { session with hostId := some hostId, state := .reserved, attemptedHostIds := attempted }

/-- The `session.prepare` of a session on a host, due at `prepareDeadlineAt`. -/
def prepareCommand (session : Session) (host : HostRecord) (prepareDeadlineAt : Nat) : Command :=
  .prepare session.id (host.games.find? (·.id = session.gameId)) session.roomId session.durationSeconds
    prepareDeadlineAt session.streamProfile

/-- The body of the loop of `allocateSession` once a host is claimed; `none` is its `continue`. -/
def prepareOn (session : Session) (attempted : List HostId) (host : HostRecord) : Js (Option Session) := do
  let now ← invoke .dateNow
  let prepareDeadlineAt := now + prepareMillis
  let commandId ← invoke (.send (some host.hostId) (prepareCommand session host prepareDeadlineAt))
  if commandId.isNone then
    let _ ← releaseHost (some host.hostId) session.id
    return none
  else
    let allocated := { allocatedTo session attempted host.hostId with
      state := .preparing, commandId := commandId, prepareDeadlineAt := some prepareDeadlineAt }
    let allocated ← saveSession allocated
    await (.addPrepareDeadline session.id prepareDeadlineAt)
    return some allocated

/-- The loop of `allocateSession` over its candidates. -/
def claimFirst (session : Session) : List HostId → List HostRecord → Js (Option Session)
  | _, [] => return none
  | attempted, host :: candidates => do
    let attempted := Redis.sadd attempted host.hostId
    let claimed ← await (.claim host.hostId (allocatedTo session attempted host.hostId))
    if claimed.isNone then
      claimFirst session attempted candidates
    else
      match ← prepareOn session attempted host with
      | some allocated => return some allocated
      | none => claimFirst session attempted candidates

/-- The connected hosts among the records, nearest first. -/
def rankCandidates (session : Session) (records : List (Option HostRecord)) (connected : HostId → Bool) :
    List HostRecord :=
  ((records.filterMap id).filter (fun host => connected host.hostId)).insertionSort
    (fun a b => hostScore a session.probes ≤ hostScore b session.probes)

def allocateSession (session : Session) : Js (Option Session) := do
  let ids ← await (.idleHosts session.gameId)
  let eligibleIds := ids.filter (· ∉ session.attemptedHostIds)
  if eligibleIds.isEmpty then
    return none
  else
    let records ← await (.getHosts eligibleIds)
    let connected ← invoke .connected
    claimFirst session session.attemptedHostIds (rankCandidates session records connected)

/-- The second half of `failOrRetrySession`: no replacement was found, or none was looked for. -/
def failSession (session : Session) (code : String) : Js Session := do
  let endedAt ← invoke .dateNow
  let session := { session with state := .failed, failureCode := some code, endedAt := some endedAt }
  releasePlayer session
  saveSession session

def failOrRetrySession (session : Session) (code : String) : Js Session := do
  let active := session.state.started
  let _ ← releaseHost session.hostId session.id
  await (.remPrepareDeadline session.id)
  await (.remSessionDeadline session.id)
  if active then
    failSession session code
  else
    let session := { session with state := .allocating, failureCode := some code }
    match ← allocateSession session with
    | some replacement => return replacement
    | none => failSession session code

def handleControlConnection (hostId : HostId) (connected : Bool) : Js Unit := do
  if connected then
    await (.remDisconnectDeadline hostId)
  else
    let now ← invoke .dateNow
    await (.addDisconnectDeadline hostId (now + reconnectMillis))

/-- `handleHostEvent` on a `host.hello`. -/
def handleHello (hostId : HostId) (event : HostEvent) : Js Unit := do
  let leasedSessionId ← await (.getLease hostId)
  match event.sessionId, leasedSessionId with
  | some sessionId, _ =>
    if some sessionId ≠ leasedSessionId then
      let _ ← invoke (.send (some hostId) (.stop sessionId "orphaned_session"))
  | none, some leasedSessionId =>
    match ← loadSession leasedSessionId with
    | some leasedSession =>
      if !leasedSession.state.terminal then
        let _ ← failOrRetrySession leasedSession "host_restarted"
    | none => pure ()
  | none, none => pure ()

/-- `event.payload.code || 'host_failed'`. -/
def failureCodeOf (event : HostEvent) : String :=
  match event.code with
  | some code => if code = "" then "host_failed" else code
  | none => "host_failed"

/-- `handleHostEvent` on an event of a live session of the host. -/
def handleSessionEvent (hostId : HostId) (event : HostEvent) (session : Session) : Js Unit :=
  match event.type with
  | .hello => pure ()
  | .launchAck => do
    let session := if session.state.launching then { session with state := .preparing } else session
    let _ ← saveSession session
  | .gameReady => do
    if session.state.launching then
      await (.remPrepareDeadline session.id)
      let _ ← saveSession { session with state := .ready }
    else
      let _ ← saveSession session
  | .streamConnected => do
    if session.state.connectable then
      let startsAt ← invoke .dateNow
      let endsAt := startsAt + session.durationSeconds * 1000
      await (.addSessionDeadline session.id endsAt)
      let _ ← saveSession { session with state := .active, startsAt := some startsAt, endsAt := some endsAt }
    else
      let _ ← saveSession session
  | .failed => do
    let _ ← failOrRetrySession session (failureCodeOf event)
  | .ended => do
    let endedAt ← invoke .dateNow
    let session := { session with state := .ended, endedAt := some endedAt }
    let _ ← releaseHost (some hostId) session.id
    await (.remPrepareDeadline session.id)
    await (.remSessionDeadline session.id)
    releasePlayer session
    let _ ← saveSession session

def handleHostEvent (hostId : HostId) (event : HostEvent) : Js Unit :=
  if event.type = .hello then handleHello hostId event
  else match event.sessionId with
    | none => pure ()
    | some sessionId => do
      match ← loadSession sessionId with
      | none => pure ()
      | some session =>
        if session.hostId ≠ some hostId ∨ session.state.terminal then pure ()
        else handleSessionEvent hostId event session

/-! ## Routes -/

structure Response where
  status : Nat
  error : Option String := none
  session : Option Session := none
  sessionId : Option SessionId := none

/-- The answer of `POST /api/v1/sessions` where no host was allocated. -/
def hostsUnavailable (session : Session) : Js Response := do
  releasePlayer session
  return { status := 409, error := some "All matching hosts became unavailable" }

/-- The `try` block of `POST /api/v1/sessions`. -/
def createSession (session : Session) : Js Response := do
  let locked ← await (.lockPlayer session.playerId session.id (sessionTtl session.durationSeconds))
  if !locked then
    let sessionId ← await (.getPlayer session.playerId)
    return { status := 409, error := some "Player already has a session", sessionId := sessionId }
  else
    match ← allocateSession session with
    | some allocated => return { status := 202, session := some allocated }
    | none => hostsUnavailable session

/-- Its `catch` block. -/
def creationFailed (session : Session) : Js Response := do
  (releasePlayer session).tryCatch (pure ())
  return { status := 503, error := some "Session service unavailable" }

/-- `POST /api/v1/sessions` of an authenticated player, once the request is validated; `id` and `roomId` are the random
values drawn for the session. -/
def postSessions (id : SessionId) (roomId : RoomId) (playerId : PlayerId) (request : SessionRequest) : Js Response := do
  let createdAt ← invoke .dateNow
  let session := newSession id roomId createdAt playerId request
  (createSession session).tryCatch (creationFailed session)

/-- `DELETE /api/v1/sessions/:sessionId`; `playerId` is whom the request authenticates, if anybody. -/
def deleteSession (sessionId : SessionId) (playerId : Option PlayerId) : Js Response := do
  match ← loadSession sessionId with
  | none => return { status := 404, error := some "Session not found" }
  | some session =>
    if some session.playerId ≠ playerId then
      return { status := 403, error := some "Forbidden" }
    else if session.state.terminal then
      return { status := 200, session := some session }
    else
      let session := { session with state := .ending }
      let _ ← invoke (.send session.hostId (.stop session.id "player_requested"))
      releasePlayer session
      let session ← saveSession session
      return { status := 202, session := some session }

/-- `POST /api/v1/host/presence`, once the presence is validated. -/
def postPresence (presence : Presence) : Js Response :=
  Prog.tryCatch (do
    await (.addGames presence.games)
    let now ← invoke .dateNow
    let _ ← await (.presence presence now)
    return { status := 200 })
  (return { status := 503, error := some "Presence service unavailable" })

/-! ## Polls -/

def endExpired (id : SessionId) : Js Unit := do
  match ← loadSession id with
  | some session =>
    if session.state = .active then
      let session := { session with state := .ending }
      let _ ← invoke (.send session.hostId (.stop id "duration_expired"))
      let _ ← saveSession session
  | none => pure ()

/-- The body of `expireSessions`. -/
def expireSession (id : SessionId) : Js Unit := do
  endExpired id
  await (.remSessionDeadline id)

def expireSessions : Js Unit := do
  let now ← invoke .dateNow
  let ids ← await (.dueSessionDeadlines now)
  ids.forM expireSession

/-- The body of `expirePreparations`. -/
def expirePreparation (id : SessionId) : Js Unit := do
  match ← loadSession id with
  | some session =>
    if session.state.launching then
      let _ ← invoke (.send session.hostId (.stop id "prepare_timeout"))
      let _ ← failOrRetrySession session "prepare_timeout"
    else
      await (.remPrepareDeadline id)
  | none => await (.remPrepareDeadline id)

def expirePreparations : Js Unit := do
  let now ← invoke .dateNow
  let ids ← await (.duePrepareDeadlines now)
  ids.forM expirePreparation

def failDisconnected (hostId : HostId) : Js Unit := do
  let connected ← invoke .connected
  if !connected hostId then
    match ← await (.getLease hostId) with
    | none => pure ()
    | some sessionId =>
      match ← loadSession sessionId with
      | some session =>
        if !session.state.terminal then
          let _ ← failOrRetrySession session "host_disconnected"
      | none => pure ()

/-- The body of `expireDisconnectedHosts`. -/
def expireDisconnectedHost (hostId : HostId) : Js Unit := do
  failDisconnected hostId
  await (.remDisconnectDeadline hostId)

def expireDisconnectedHosts : Js Unit := do
  let now ← invoke .dateNow
  let hostIds ← await (.dueDisconnectDeadlines now)
  hostIds.forM expireDisconnectedHost

end Market
end CloudGaming
