import CloudGaming.Signaling.Schema
import CloudGaming.Signaling.Scripts
/-!
# Routing — which connections are sent a message

A message that `handleMessage` accepts is sent to the connections of the sender's room on its own instance, and published
for the other instances, where `handleRedisMessage` sends it on.  The two filters are written separately: the second one
also wants the receiver to be of the sender's host, and the sender to hold its lease and its role key (`agree_iff`).
-/
namespace CloudGaming
namespace Signaling

open Redis

/-! ## Identities -/

structure Uuid where
  text : String
  ok : isUuid text = true
  deriving DecidableEq

theorem isGrouped_spec : ∀ {ns : List Nat} {cs : List Char}, isGrouped ns cs = true →
    (∀ c ∈ cs, isHex c = true ∨ c = '-') ∧ cs.length + 1 = ns.foldr (fun n total => n + 1 + total) 0
  | [], cs, h => by simp [isGrouped] at h
  | [n], cs, h => by
    simp only [isGrouped, Bool.and_eq_true, decide_eq_true_eq, List.all_eq_true] at h
    exact ⟨fun c hc => .inl (h.2 c hc), by rw [h.1]; rfl⟩
  | n :: m :: ns, cs, h => by
    simp only [isGrouped, Bool.and_eq_true, decide_eq_true_eq, List.all_eq_true] at h
    obtain ⟨⟨⟨hlen, hhex⟩, hhead⟩, hrest⟩ := h
    obtain ⟨hall, hsum⟩ := isGrouped_spec hrest
    have hdrop : cs.drop n = '-' :: cs.drop (n + 1) := by
      cases hd : cs.drop n with
      | nil => simp [hd] at hhead
      | cons d ds =>
        rw [hd, List.head?_cons, Option.some.injEq] at hhead
        rw [hhead, ← List.drop_drop, hd, List.drop_one, List.tail_cons]
    constructor
    · intro c hc
      rw [← List.take_append_drop n cs, hdrop, List.mem_append, List.mem_cons] at hc
      rcases hc with hc | rfl | hc
      · exact .inl (hhex c hc)
      · exact .inr rfl
      · exact hall c hc
    · have hl := congrArg List.length (List.take_append_drop n cs)
      rw [hdrop, List.length_append, hlen, List.length_cons] at hl
      rw [List.foldr_cons, ← hsum]
      omega

namespace Uuid

theorem spec (u : Uuid) : (∀ c ∈ u.text.toList, isHex c = true ∨ c = '-') ∧ u.text.toList.length = 36 := by
  obtain ⟨hall, hlen⟩ := isGrouped_spec u.ok
  exact ⟨hall, Nat.succ.inj hlen⟩

/-- A UUID is a role owner. -/
def owner (u : Uuid) : Owner where
  text := u.text
  bare := by
    intro h
    rcases u.spec.1 _ h with h | h <;> simp [isHex] at h

/-- `safeClientId`. -/
def clientId (u : Uuid) : String := "client:" ++ u.text

end Uuid

/-- Who a connection has been authenticated as: a host, or a player of a session with a host. -/
inductive Identity where
  | host (hostId : Uuid)
  | player (sessionId hostId : Uuid)
  deriving DecidableEq

namespace Identity

def role : Identity → Role
  | host _ => .host
  | player .. => .player

def hostId : Identity → Uuid
  | host h => h
  | player _ h => h

def sessionId : Identity → Option Uuid
  | host _ => none
  | player s _ => some s

def roleOwner : Identity → Uuid
  | host h => h
  | player s _ => s

end Identity

def validateRoomId (roomId : String) : Bool := roomId.toList.length = 32 && roomId.toList.all isHex

/-- A connection of the server `server`; `registered` while `localRooms` has it, `isOpen` while its state is `OPEN`. -/
structure Socket where
  uid : Uuid
  room : String
  who : Identity
  server : Uuid
  roomOk : validateRoomId room = true
  isOpen : Bool := true
  registered : Bool := false
  disconnected : Bool := false
  bufferedAmount : Nat := 0
  currentSessionId : Option String := none

namespace Socket

variable (ws : Socket)

def clientId : String := ws.uid.clientId

def role : Role := ws.who.role

def sessionId : Option String := ws.who.sessionId.map Uuid.text

def hostId : String := ws.who.hostId.text

/-- What it joins and leaves with. -/
def client : Client := ⟨ws.clientId, ws.room, ws.role, ws.who.roleOwner.owner⟩

end Socket

structure Config where
  enableSessionAuth : Bool
  roomCapacity : Nat
  roomTtlSeconds : Nat
  messageMaxBytes : Nat
  backpressureCloseThresholdBytes : Nat

variable (cfg : Config)

/-! ## The filters -/

def shouldRoute (senderRole : Role) (senderSessionId : Option String) (target : Socket) : Bool :=
  if !cfg.enableSessionAuth then true
  else if senderRole = target.role then false
  else match senderSessionId with
    | none => false
    | some sid =>
      if sid = "" then false
      else match senderRole with
        | .host => target.role = .player && target.sessionId = some sid
        | .player => target.role = .host

def messageAllowedForRole (role : Role) (message : Json) : Bool :=
  let type := ((message.field? "type").bind Json.str?).getD ""
  let action := ((message.field? "action").bind Json.str?).getD ""
  match role with
  | .player => ["offer", "candidate", "stream-profile"].contains type ||
      type = "control" && ["terminate", "ping"].contains action
  | .host => ["answer", "candidate", "stream-profile"].contains type ||
      type = "control" &&
        ["terminate", "replace", "profile-accepted", "profile-rejected", "schema-error", "ping"].contains action

/-! ## handleMessage, up to its first await -/

/-- A frame: its length in bytes, and what `JSON.parse` makes of it. -/
structure Frame where
  size : Nat
  parsed : Option Json

/-- What `handleMessage` does with a frame before it awaits anything.  A host that no local player of the session answers
for has the role key of the player looked up (`ask`). -/
inductive Verdict where
  | drop
  | close
  | schemaError
  | ask (sessionId : String) (data : Json)
  | pass (sessionId : Option String) (data : Json)

/-- `peers` are the connections of the room on this instance, `tokens` whether the token bucket has one left. -/
def screen (ws : Socket) (peers : List Socket) (tokens : Bool) (frame : Frame) : Verdict :=
  if ws.disconnected || frame.size > cfg.messageMaxBytes || !tokens then .drop
  else if ws.bufferedAmount > cfg.backpressureCloseThresholdBytes then .close
  else match frame.parsed with
    | none => .drop
    | some data =>
      if !validateSignalingMessage data then .schemaError
      else if !messageAllowedForRole ws.role data then .drop
      else
        let messageSessionId := (data.field? "sessionId").bind Json.str?
        if !cfg.enableSessionAuth then .pass messageSessionId data
        else match messageSessionId with
          | none => .drop
          | some sid =>
            match ws.role with
            | .player => if ws.sessionId = some sid then .pass (some sid) data else .drop
            | .host =>
              if peers.any fun peer => peer.role = .player && peer.sessionId = some sid then .pass (some sid) data
              else .ask sid data

/-! ## Local fan-out -/

/-- `peer` is sent a message of `ws`, another connection of its room on this instance. -/
def localReceives (ws : Socket) (messageSessionId : Option String) (peer : Socket) : Bool :=
  peer.isOpen && shouldRoute cfg ws.role messageSessionId peer &&
    peer.bufferedAmount ≤ cfg.backpressureCloseThresholdBytes

/-! ## Redis fan-out -/

structure Envelope where
  senderId : String
  senderRole : Role
  sessionId : Option String
  hostId : String
  data : Json
  originServerId : String

def Role.text : Role → String
  | .host => "host"
  | .player => "player"

/-- The text that is published, as the other instances parse it. -/
def Envelope.json (e : Envelope) : Json :=
  .obj ([("senderId", .str e.senderId), ("senderRole", .str e.senderRole.text)] ++
    (e.sessionId.map fun sid => ("sessionId", Json.str sid)).toList ++
    [("hostId", .str e.hostId), ("data", e.data), ("originServerId", .str e.originServerId)])

/-- What `handleMessage` publishes. -/
def envelope (ws : Socket) (messageSessionId : Option String) (data : Json) : Envelope :=
  ⟨ws.clientId, ws.role, messageSessionId, ws.hostId, data, ws.server.text⟩

/-- The owner a live sender has its lease and its role key from. -/
def Envelope.expectedOwner (e : Envelope) : Option String :=
  match e.senderRole with
  | .host => some e.hostId
  | .player => e.sessionId

/-- `handleRedisMessage` on `server`, up to its reads. -/
def Envelope.admitted (e : Envelope) (server : Uuid) (room : String) : Bool :=
  validateRoomId room && validateRedisEnvelope e.json && e.originServerId ≠ server.text

/-- The check of what it has read. -/
def Envelope.vouched (e : Envelope) (leaseOwner roleOwner : Option String) : Bool :=
  match e.expectedOwner with
  | none => false
  | some owner => leaseOwner = some owner && roleOwner = some (owner ++ "|" ++ e.senderId)

/-- `client`, a connection of the room on this instance, is sent the message. -/
def redisReceives (e : Envelope) (client : Socket) : Bool :=
  client.clientId ≠ e.senderId && client.isOpen && client.hostId = e.hostId &&
    shouldRoute cfg e.senderRole e.sessionId client && client.bufferedAmount ≤ cfg.backpressureCloseThresholdBytes

/-- `handleRedisMessage` sends the envelope on to `client`, with the keys as they are. -/
def remoteReceives (db : Rooms) (room : String) (e : Envelope) (client : Socket) : Bool :=
  e.admitted client.server room &&
    e.vouched (db.leases.get e.senderId) (db.roles.get (room, e.senderRole)) && redisReceives cfg e client

/-! ## What an accepted message is -/

/-- A message of `ws` that has passed the checks of `handleMessage`. -/
structure Accepted (ws : Socket) (messageSessionId : Option String) (data : Json) : Prop where
  valid : SignalingMessageSchema data = true
  session : messageSessionId = (data.field? "sessionId").bind Json.str?
  named : cfg.enableSessionAuth = true → messageSessionId.isSome = true
  own : cfg.enableSessionAuth = true → ws.role = .player → messageSessionId = ws.sessionId

variable {cfg}

theorem accepted_of_screen {ws : Socket} {peers : List Socket} {tokens : Bool} {frame : Frame} {sid : Option String}
    {data : Json} (h : screen cfg ws peers tokens frame = .pass sid data ∨
      ∃ s, sid = some s ∧ screen cfg ws peers tokens frame = .ask s data) : Accepted cfg ws sid data := by
  unfold screen at h
  split at h
  · simp at h
  split at h
  · simp at h
  split at h
  · simp at h
  rename_i j _
  split at h
  · simp at h
  rename_i hvalid
  have hschema : SignalingMessageSchema j = true := by
    simp only [validateSignalingMessage, Bool.not_eq_true', Bool.not_eq_false, Bool.and_eq_true] at hvalid
    exact hvalid.2
  split at h
  · simp at h
  simp only at h
  split at h
  · rename_i hauth
    simp only [Verdict.pass.injEq, reduceCtorEq, and_false, exists_false, or_false] at h
    obtain ⟨rfl, rfl⟩ := h
    simp only [Bool.not_eq_true'] at hauth
    exact ⟨hschema, rfl, by simp [hauth], by simp [hauth]⟩
  split at h
  · simp at h
  rename_i s hs
  split at h
  · split at h
    · rename_i hsession
      simp only [Verdict.pass.injEq, reduceCtorEq, and_false, exists_false, or_false] at h
      obtain ⟨rfl, rfl⟩ := h
      exact ⟨hschema, hs.symm, fun _ => rfl, fun _ _ => hsession.symm⟩
    · simp at h
  · rename_i hrole
    split at h
    · simp only [Verdict.pass.injEq, reduceCtorEq, and_false, exists_false, or_false] at h
      obtain ⟨rfl, rfl⟩ := h
      exact ⟨hschema, hs.symm, fun _ => rfl, fun _ hp => by rw [hrole] at hp; cases hp⟩
    · simp only [reduceCtorEq, Verdict.ask.injEq, false_or] at h
      obtain ⟨s', rfl, rfl, rfl⟩ := h
      exact ⟨hschema, hs.symm, fun _ => rfl, fun _ hp => by rw [hrole] at hp; cases hp⟩

/-- The session id of a valid message is a UUID. -/
theorem uuid_of_valid {data : Json} (h : SignalingMessageSchema data = true) {s : String}
    (hs : (data.field? "sessionId").bind Json.str? = some s) : isUuid s = true := by
  have hstrict : ∀ fields : List (String × (Option Json → Bool)), ("sessionId", SessionId) ∈ fields →
      Check.strict fields data = true → isUuid s = true := by
    intro fields hf hd
    cases data with
    | obj members =>
      simp only [Check.strict, Bool.and_eq_true, List.all_eq_true] at hd
      have hsid := hd.2 _ hf
      simp only [Json.field?] at hs
      cases hm : members.lookup "sessionId" with
      | none => simp [hm] at hs
      | some j =>
        simp only [hm, Option.bind_some] at hs
        cases j with
        | str t =>
          simp only [Json.str?, Option.some.injEq] at hs
          subst hs
          simpa [hm, SessionId, Check.optional, Check.uuid] using hsid
        | _ => simp [Json.str?] at hs
    | _ => simp [Check.strict] at hd
  unfold SignalingMessageSchema at h
  split at h
  · exact hstrict _ (by simp) h
  · exact hstrict _ (by simp) h
  · exact hstrict _ (by simp) h
  · exact hstrict _ (by simp) h
  · exact hstrict _ (by simp) h
  · cases h

/-! ## What a published message is -/

theorem isSenderChar_of_uuid {c : Char} (h : isHex c = true ∨ c = '-') : isSenderChar c = true := by
  rcases h with h | rfl
  · simp only [isHex, isSenderChar, Bool.or_eq_true, Bool.and_eq_true, decide_eq_true_eq] at h ⊢
    omega
  · decide

theorem toNat_lt_of_sender {c : Char} (h : isSenderChar c = true) : c.toNat < 65536 := by
  simp only [isSenderChar, Bool.or_eq_true, Bool.and_eq_true, decide_eq_true_eq] at h
  omega

/-- A client id is an admissible sender. -/
theorem senderId_clientId (u : Uuid) : senderId (.str u.clientId) = true := by
  obtain ⟨hall, hlen⟩ := u.spec
  have hlist : u.clientId.toList = "client:".toList ++ u.text.toList := String.toList_append
  have hsmall : ∀ c ∈ u.clientId.toList, c.toNat < 65536 := by
    intro c hc
    rw [hlist, List.mem_append] at hc
    rcases hc with hc | hc
    · have hpre : "client:".toList.all (fun d => decide (d.toNat < 65536)) = true := by decide
      exact of_decide_eq_true (List.all_eq_true.1 hpre c hc)
    · exact toNat_lt_of_sender (isSenderChar_of_uuid (hall c hc))
  have hpre : "client:".toList.length = 7 := by decide
  have hutf : utf16Length u.clientId = 43 := by
    rw [utf16Length_of_small hsmall, hlist, List.length_append, hpre, hlen]
  have htake : u.clientId.toList.take 7 = "client:".toList := by
    rw [hlist, List.take_left' hpre]
  have hdrop : u.clientId.toList.drop 7 = u.text.toList := by
    rw [hlist, List.drop_left' hpre]
  simp only [senderId, hutf, htake, hdrop, Bool.and_eq_true, decide_eq_true_eq, List.all_eq_true]
  refine ⟨⟨⟨⟨by omega, by omega⟩, trivial⟩, ?_⟩, ?_⟩
  · rw [hlist, List.length_append, hpre, hlen]
    omega
  · exact fun c hc => isSenderChar_of_uuid (hall c hc)

/-- **The other instances take what an accepted message is published as, exactly where it names a session.** -/
theorem validateRedisEnvelope_envelope {ws : Socket} {sid : Option String} {data : Json} (h : Accepted cfg ws sid data) :
    validateRedisEnvelope (envelope ws sid data).json = true ↔ sid.isSome = true := by
  have hsender := senderId_clientId ws.uid
  have hrole : Check.enum ["host", "player"] (.str ws.role.text) = true := by cases ws.role <;> decide
  have hhost : Check.uuid (.str ws.hostId) = true := ws.who.hostId.ok
  have hserver : Check.uuid (.str ws.server.text) = true := ws.server.ok
  cases sid with
  | none =>
    simp [validateRedisEnvelope, RedisEnvelopeSchema, Check.strict, Check.required, Envelope.json, envelope,
      List.lookup_cons]
  | some s =>
    have hs : Check.uuid (.str s) = true := uuid_of_valid h.valid h.session.symm
    simp [validateRedisEnvelope, RedisEnvelopeSchema, Check.strict, Check.required, Envelope.json, envelope,
      Socket.clientId, List.lookup_cons, hsender, hrole, hhost, hserver, hs, h.valid]

/-! ## The two paths -/

theorem Uuid.ext_text {u v : Uuid} (h : u.text = v.text) : u = v := by
  cases u
  cases v
  cases h
  rfl

/-- `p` on the sender's instance and `q` on another one, open, of the sender's room, with the same role, session and host,
and neither of them congested. -/
structure Twins (cfg : Config) (ws p q : Socket) : Prop where
  here : p.server = ws.server
  there : q.server ≠ ws.server
  rooms : p.room = ws.room ∧ q.room = ws.room
  distinct : p.clientId ≠ ws.clientId ∧ q.clientId ≠ ws.clientId
  role : q.role = p.role
  session : q.sessionId = p.sessionId
  host : q.hostId = p.hostId
  isOpen : p.isOpen = true ∧ q.isOpen = true
  clear : p.bufferedAmount ≤ cfg.backpressureCloseThresholdBytes ∧ q.bufferedAmount ≤ cfg.backpressureCloseThresholdBytes

/-- The one is sent the message exactly where the other is, and a player's message reaches its own host only. -/
structure SameReceivers (cfg : Config) (db : Rooms) (ws : Socket) (sid : Option String) (data : Json) (p q : Socket) : Prop
    where
  agree : localReceives cfg ws sid p = true ↔ remoteReceives cfg db ws.room (envelope ws sid data) q = true
  ownHost : cfg.enableSessionAuth = true → ws.role = .player →
    localReceives cfg ws sid p = true ∨ remoteReceives cfg db ws.room (envelope ws sid data) q = true →
    p.role = .host ∧ p.hostId = ws.hostId

/-- A receiver that is routed to is of the sender's host, and the sender speaks for its own session and holds its role. -/
def SameHost (cfg : Config) (db : Rooms) (ws : Socket) (sid : Option String) (p : Socket) : Prop :=
  shouldRoute cfg ws.role sid p = true → p.hostId = ws.hostId ∧
    (∃ s, sid = some s ∧ (ws.role = .player → ws.sessionId = some s)) ∧
    db.roles.get (ws.room, ws.role) = some (roleValue ws.client)

theorem shouldRoute_congr (cfg : Config) {p q : Socket} (hr : q.role = p.role) (hs : q.sessionId = p.sessionId) (r : Role)
    (sid : Option String) : shouldRoute cfg r sid q = shouldRoute cfg r sid p := by
  unfold shouldRoute
  rw [hr, hs]

theorem localReceives_iff {ws p q : Socket} (sid : Option String) (h : Twins cfg ws p q) :
    localReceives cfg ws sid p = true ↔ shouldRoute cfg ws.role sid p = true := by
  simp [localReceives, h.isOpen.1, h.clear.1]

/-- What the receiving instance wants of the sender's keys. -/
theorem vouched_iff (ws : Socket) (sid : Option String) (data : Json) {db : Rooms}
    (hl : db.leases.get ws.clientId = some ws.who.roleOwner.text) :
    (envelope ws sid data).vouched (db.leases.get ws.clientId) (db.roles.get (ws.room, ws.role)) = true ∧
        sid.isSome = true ↔
      (∃ s, sid = some s ∧ (ws.role = .player → ws.sessionId = some s)) ∧
        db.roles.get (ws.room, ws.role) = some (roleValue ws.client) := by
  rw [hl]
  cases hw : ws.who with
  | host h =>
    have hrole : ws.role = .host := by rw [Socket.role, hw]; rfl
    have hvalue : roleValue ws.client = h.text ++ "|" ++ ws.clientId := by
      simp [roleValue, Socket.client, hw, Identity.roleOwner, Uuid.owner]
    cases sid <;>
      simp [Envelope.vouched, Envelope.expectedOwner, envelope, hrole, Identity.roleOwner, Socket.hostId, hw,
        Identity.hostId, hvalue]
  | player t h =>
    have hrole : ws.role = .player := by rw [Socket.role, hw]; rfl
    have hvalue : roleValue ws.client = t.text ++ "|" ++ ws.clientId := by
      simp [roleValue, Socket.client, hw, Identity.roleOwner, Uuid.owner]
    have hsession : ws.sessionId = some t.text := by simp [Socket.sessionId, hw, Identity.sessionId]
    cases sid with
    | none => simp [Envelope.vouched, Envelope.expectedOwner, envelope, hrole]
    | some s =>
      simp only [Envelope.vouched, Envelope.expectedOwner, envelope, hrole, Identity.roleOwner, hvalue, hsession,
        Option.isSome_some, and_true, Bool.and_eq_true, decide_eq_true_eq, Option.some.injEq, forall_const,
        exists_eq_left']
      constructor
      · rintro ⟨rfl, hr⟩
        exact ⟨rfl, hr⟩
      · rintro ⟨rfl, hr⟩
        exact ⟨rfl, hr⟩

theorem remoteReceives_iff {ws p q : Socket} {sid : Option String} {data : Json} {db : Rooms}
    (h : Twins cfg ws p q) (ha : Accepted cfg ws sid data)
    (hl : db.leases.get ws.clientId = some ws.who.roleOwner.text) :
    remoteReceives cfg db ws.room (envelope ws sid data) q = true ↔
      shouldRoute cfg ws.role sid p = true ∧ p.hostId = ws.hostId ∧
        (∃ s, sid = some s ∧ (ws.role = .player → ws.sessionId = some s)) ∧
        db.roles.get (ws.room, ws.role) = some (roleValue ws.client) := by
  have hvalid := validateRedisEnvelope_envelope ha
  have horigin : ws.server.text ≠ q.server.text := fun he => h.there (Uuid.ext_text he).symm
  have hv := vouched_iff ws sid data hl
  have hroute := shouldRoute_congr cfg h.role h.session ws.role sid
  have hhost := h.host
  unfold remoteReceives Envelope.admitted redisReceives
  simp only [Bool.and_eq_true, ws.roomOk, true_and, hvalid, decide_eq_true_eq]
  show ((sid.isSome = true ∧ ws.server.text ≠ q.server.text) ∧
      (envelope ws sid data).vouched (db.leases.get ws.clientId) (db.roles.get (ws.room, ws.role)) = true) ∧
      (((q.clientId ≠ ws.clientId ∧ q.isOpen = true) ∧ q.hostId = ws.hostId) ∧
        shouldRoute cfg ws.role sid q = true) ∧ q.bufferedAmount ≤ cfg.backpressureCloseThresholdBytes ↔ _
  rw [hroute, hhost, ← hv]
  constructor
  · rintro ⟨⟨⟨hsome, -⟩, hvouch⟩, ⟨⟨-, hh⟩, hr⟩, -⟩
    exact ⟨hr, hh, hvouch, hsome⟩
  · rintro ⟨hr, hh, hvouch, hsome⟩
    exact ⟨⟨⟨hsome, horigin⟩, hvouch⟩, ⟨⟨⟨h.distinct.2, h.isOpen.2⟩, hh⟩, hr⟩, h.clear.2⟩

/-- **The two paths have the same receivers exactly where a receiver that is routed to is of the sender's host**, and the
sender holds its role and names its own session, which it does with session authentication. -/
theorem sameReceivers_iff (cfg : Config) (db : Rooms) (ws : Socket) (sid : Option String) (data : Json) (p q : Socket)
    (h : Twins cfg ws p q) (ha : Accepted cfg ws sid data)
    (hl : db.leases.get ws.clientId = some ws.who.roleOwner.text) :
    SameReceivers cfg db ws sid data p q ↔ SameHost cfg db ws sid p := by
  have hlocal := localReceives_iff sid h
  have hremote := remoteReceives_iff h ha hl
  constructor
  · intro hs hr
    exact (hremote.1 (hs.agree.1 (hlocal.2 hr))).2
  · intro hs
    refine ⟨⟨fun hp => ?_, fun hq => hlocal.2 (hremote.1 hq).1⟩, fun hauth hrole hpq => ?_⟩
    · have hr := hlocal.1 hp
      exact hremote.2 ⟨hr, hs hr⟩
    · have hr : shouldRoute cfg ws.role sid p = true := hpq.elim hlocal.1 fun hq => (hremote.1 hq).1
      refine ⟨?_, (hs hr).1⟩
      rw [hrole] at hr
      unfold shouldRoute at hr
      cases sid with
      | none => simp [hauth] at hr
      | some s =>
        simp only [hauth, Bool.not_true, Bool.false_eq_true, if_false] at hr
        split at hr
        · cases hr
        · split at hr
          · cases hr
          · simpa using hr

/-! ## A player in the room of another host -/

namespace Sample

def config : Config := ⟨true, 2, 120, 262144, 5242880⟩

def room : String := "0123456789abcdef0123456789abcdef"

def session : Uuid := ⟨"00000000-0000-4000-8000-000000000001", by decide⟩
def hostId : Uuid := ⟨"00000000-0000-4000-8000-000000000002", by decide⟩
def otherHost : Uuid := ⟨"00000000-0000-4000-8000-000000000003", by decide⟩
def playerUid : Uuid := ⟨"00000000-0000-4000-8000-000000000004", by decide⟩
def hostUid : Uuid := ⟨"00000000-0000-4000-8000-000000000005", by decide⟩
def serverA : Uuid := ⟨"00000000-0000-4000-8000-00000000000a", by decide⟩
def serverB : Uuid := ⟨"00000000-0000-4000-8000-00000000000b", by decide⟩

/-- A player on server A whose token names the given host. -/
def player (named : Uuid) : Socket :=
  ⟨playerUid, room, .player session named, serverA, by decide, true, true, false, 0, none⟩

/-- The host on the given server. -/
def host (server : Uuid) : Socket := ⟨hostUid, room, .host hostId, server, by decide, true, true, false, 0, none⟩

/-- The host has joined, then the player. -/
def rooms (named : Uuid) : Rooms :=
  (luaJoin 0 120 2 (player named).client (luaJoin 0 120 2 (host serverA).client Rooms.empty).2).2

def offer : Json := .obj [("type", .str "offer"), ("sessionId", .str session.text), ("sdp", .str "v=0")]

theorem accepted_offer (named : Uuid) : Accepted config (player named) (some session.text) offer :=
  ⟨by decide, by rfl, fun _ => rfl, fun _ _ => rfl⟩

theorem twins_host (named : Uuid) : Twins config (player named) (host serverA) (host serverB) where
  here := rfl
  there := show serverB ≠ serverA by decide
  rooms := ⟨rfl, rfl⟩
  distinct := ⟨show hostUid.clientId ≠ playerUid.clientId by decide, show hostUid.clientId ≠ playerUid.clientId by decide⟩
  role := rfl
  session := rfl
  host := rfl
  isOpen := ⟨rfl, rfl⟩
  clear := ⟨by decide, by decide⟩

end Sample

section sample
open Sample

theorem sameReceivers_iff_hostId :
    SameReceivers config (rooms hostId) (player hostId) (some session.text) offer (host serverA) (host serverB) ↔
      SameHost config (rooms hostId) (player hostId) (some session.text) (host serverA) :=
  sameReceivers_iff _ _ _ _ _ _ _ (twins_host hostId) (accepted_offer hostId) (by decide)

/-- A player of another host is heard by the host that is in its room, on its own instance only. -/
theorem not_sameReceivers_otherHost : ¬ SameReceivers config (rooms otherHost) (player otherHost) (some session.text) offer
    (host serverA) (host serverB) := by
  intro h
  have hremote := h.agree.1 (by decide)
  exact absurd hremote (by decide)

end sample

end Signaling
end CloudGaming
