import CloudGaming.Pairing.Store
import CloudGaming.Signaling.Routing
/-!
# Tokens — what a connection presents, and the checks that await nothing

The metadata and the credentials of a connection are items of its subprotocol header.  What Node and its packages compute
(the HMAC of a token, its decoding, the origin of a URL) is a parameter, `Node`; everything around it is here.
-/
namespace CloudGaming
namespace Signaling

/-! ## Text -/

/-- `split`, at one character. -/
def splitAt (sep : Char) (s : String) : List String := (s.toList.splitOn sep).map String.ofList

/-- What follows `label` in a text that starts with it. -/
def after (label s : String) : Option String :=
  if label.toList.isPrefixOf s.toList then some (.ofList (s.toList.drop label.toList.length)) else none

/-- `UUID_PATTERN`: version 1 to 5, variant 8 to b. -/
def isVersioned (s : String) : Bool :=
  isUuid s && (s.toList[14]?).any (fun c => '1' ≤ c && c ≤ '5') && (s.toList[19]?).any ("89abAB".toList.contains ·)

theorem uuid_of_versioned {s : String} (h : isVersioned s = true) : isUuid s = true := by
  simp only [isVersioned, Bool.and_eq_true] at h
  exact h.1.1

def readUuid (s : String) : Option Uuid := if h : isVersioned s = true then some ⟨s, uuid_of_versioned h⟩ else none

/-- A room id, in lower case as `handleNewConnection` uses it. -/
structure Room where
  text : String
  ok : validateRoomId text = true
  deriving DecidableEq

theorem isGrouped_append {n m : Nat} {ns : List Nat} {a rest : List Char} (hn : a.length = n)
    (hh : a.all isHex = true) : isGrouped (n :: m :: ns) (a ++ '-' :: rest) = isGrouped (m :: ns) rest := by
  subst hn
  simp [isGrouped, hh]

/-- The digits of a room id, in the groups of a UUID. -/
def Room.grouped (room : Room) : String :=
  let l := room.text.toList
  .ofList (l.take 8 ++ '-' :: ((l.drop 8).take 4 ++ '-' :: ((l.drop 12).take 4 ++ '-' :: ((l.drop 16).take 4 ++
    '-' :: l.drop 20))))

theorem Room.uuid_grouped (room : Room) : isUuid room.grouped = true := by
  have hok := room.ok
  simp only [validateRoomId, Bool.and_eq_true, decide_eq_true_eq] at hok
  obtain ⟨hlen, hhex⟩ := hok
  have hall : ∀ l : List Char, (∀ c ∈ l, c ∈ room.text.toList) → l.all isHex = true := fun l hl =>
    List.all_eq_true.2 fun c hc => List.all_eq_true.1 hhex c (hl c hc)
  have hslice : ∀ i n, ((room.text.toList.drop i).take n).all isHex = true := fun i n =>
    hall _ fun c hc => List.mem_of_mem_drop (List.mem_of_mem_take hc)
  unfold isUuid Room.grouped
  dsimp only
  rw [String.toList_ofList, isGrouped_append (by simp [hlen]) (hall _ fun c hc => List.mem_of_mem_take hc),
    isGrouped_append (by simp [hlen]) (hslice 8 4), isGrouped_append (by simp [hlen]) (hslice 12 4),
    isGrouped_append (by simp [hlen]) (hslice 16 4)]
  simp only [isGrouped, Bool.and_eq_true, decide_eq_true_eq]
  exact ⟨by simp [hlen], hall _ fun c hc => List.mem_of_mem_drop hc⟩

/-- The id a room's host has in development mode. -/
def hostIdOfRoom (room : Room) : Uuid := ⟨room.grouped, room.uuid_grouped⟩

namespace Json

def num? : Json → Option ℚ
  | num q => some q
  | _ => none

/-- `Number.isSafeInteger`. -/
def safeInteger? : Json → Option Int
  | num q => if q.den = 1 ∧ -(2 ^ 53 - 1) ≤ q.num ∧ q.num ≤ 2 ^ 53 - 1 then some q.num else none
  | _ => none

def arr? : Json → Option (List Json)
  | arr items => some items
  | _ => none

end Json

/-! ## Parameters -/

/-- What is computed outside this code: whether the second part of a token is the HMAC of its first part with the secret,
what `JSON.parse` makes of the base64url-decoded first part and of a text, and the origin of a URL. -/
structure Node where
  authentic : String → String → String → Bool
  decode : String → Option Json
  parse : String → Option Json
  canonicalOrigin : String → Option String

/-- The configuration of the signaling server. -/
structure ServerConfig extends Config where
  production : Bool
  requireWss : Bool
  enableAuth : Bool
  usesJwks : Bool
  subprotocol : String
  roomsClaim : String
  pairingTokenSecret : String
  pairingTokenTtlSeconds : Nat
  hostSecret : Option String
  hostSecretPrevious : Option String
  hostCredentials : List (String × String)
  trustedProxyIps : List String
  allowedOrigins : List String
  rateLimitConnPer10s : Nat
  cbErrorThreshold : Nat
  cbOpenMs : Nat
  secret_long : enableSessionAuth = true → 32 ≤ utf16Length pairingTokenSecret

/-- A connection request; `socket` is its WebSocket. -/
structure Request where
  socket : Nat
  server : Uuid
  wellFormed : Bool
  protocols : Option String
  authorization : Option String
  origin : Option String
  encrypted : Bool
  remoteAddress : Option String
  forwardedProto : Option String

variable (node : Node) (cfg : ServerConfig)

/-! ## Pairing tokens -/

structure PairingClaims where
  roomId : String
  sessionId : Uuid
  hostId : Uuid
  jti : Uuid
  exp : Int
  deriving DecidableEq

/-- The claims of a payload, the expiry apart. -/
def readClaims (payload : Json) : Option PairingClaims := do
  guard ((payload.field? "v").bind Json.num? = some 2)
  guard ((payload.field? "role").bind Json.str? = some "player")
  let roomId ← (payload.field? "roomId").bind Json.str?
  guard (validateRoomId roomId)
  let sessionId ← ((payload.field? "sessionId").bind Json.str?).bind readUuid
  let hostId ← ((payload.field? "hostId").bind Json.str?).bind readUuid
  let jti ← ((payload.field? "jti").bind Json.str?).bind readUuid
  let exp ← (payload.field? "exp").bind Json.safeInteger?
  return { roomId, sessionId, hostId, jti, exp }

/-- The claims of a token that was signed with the secret. -/
def claimsOf (token : String) : Option PairingClaims :=
  if utf16Length token > 2048 || cfg.pairingTokenSecret = "" then none
  else match splitAt '.' token with
    | [payload, mac] =>
      if node.authentic cfg.pairingTokenSecret payload mac then (node.decode payload).bind readClaims else none
    | _ => none

/-- A token is accepted until it expires, at most ten minutes before. -/
def verifyPairingToken (token : String) (now : Nat) : Option PairingClaims :=
  (claimsOf node cfg token).filter fun claims => now < claims.exp && claims.exp ≤ now + 10 * 60 * 1000

/-- What `signPairingToken` checks before it signs the claims of a connection. -/
def signable (roomId sessionId hostId : String) (expiresAt : Int) : Bool :=
  32 ≤ utf16Length cfg.pairingTokenSecret && validateRoomId roomId && isVersioned sessionId && isVersioned hostId &&
    (-(2 ^ 53 - 1) ≤ expiresAt && expiresAt ≤ 2 ^ 53 - 1)

/-! ## The header -/

def offeredProtocols (protocols : Option String) : List String :=
  match protocols with
  | none => []
  | some header => (splitAt ',' header).map Pairing.trim

def protocolValues (protocols : Option String) (label : String) : List String :=
  (offeredProtocols protocols).filterMap (after label)

/-- The one item with the label, or nothing. -/
def extractProtocolCredential (protocols : Option String) (label : String) : String :=
  match protocolValues protocols label with
  | [value] => value
  | _ => ""

def isTokenChar (c : Char) : Bool := c.isAlphanum || "._~+/=-".toList.contains c

/-- `/^Bearer ([A-Za-z0-9._~+/=-]{1,4096})$/`. -/
def bearerToken (authorization : Option String) : String :=
  match authorization.bind (after "Bearer ") with
  | some token =>
    if 1 ≤ token.toList.length && token.toList.length ≤ 4096 && token.toList.all isTokenChar then token else ""
  | none => ""

/-! ## Peers, origins and hosts -/

def normalizedIp (value : String) : String := (after "::ffff:" value).getD value

def isTrustedProxy (remoteAddress : Option String) : Bool :=
  let remote := normalizedIp (remoteAddress.getD "")
  remote ≠ "" && cfg.trustedProxyIps.any fun candidate => normalizedIp candidate = remote

def requestIsSecure (request : Request) : Bool :=
  request.encrypted || isTrustedProxy cfg request.remoteAddress &&
    request.forwardedProto.any fun forwarded =>
      Pairing.toLowerCase (Pairing.trim ((splitAt ',' forwarded).headD "")) = "https"

def originAllowed (origin : Option String) : Bool :=
  match origin.bind node.canonicalOrigin with
  | none => false
  | some candidate => cfg.allowedOrigins.any fun value => node.canonicalOrigin value = some candidate

/-- `secureEqual`, of two strings that are there. -/
def secureEqual (a : String) (b : Option String) : Bool := b = some a

/-- A host has a credential of its own, or shares the secret where there are none. -/
def hostCredentialValid (hostId credential : String) : Bool :=
  if !isVersioned hostId then false
  else if !cfg.hostCredentials.isEmpty then secureEqual credential (cfg.hostCredentials.lookup (Pairing.toLowerCase hostId))
  else if cfg.production then false
  else secureEqual credential cfg.hostSecret || secureEqual credential cfg.hostSecretPrevious

/-! ## Metadata -/

/-- The code and the reason of a close. -/
structure Refusal where
  code : Nat
  reason : String
  deriving DecidableEq

structure Metadata where
  room : Room
  role : Role
  hostIdParameter : String

/-- The room, the role and the host a connection names, and whether it may: the checks of `handleNewConnection` between
the rate limiter and the credentials. -/
def readMetadata (request : Request) : Except Refusal Metadata :=
  let values := protocolValues request.protocols
  if !(offeredProtocols request.protocols).contains cfg.subprotocol then throw ⟨1008, "Subprotocol required"⟩
  else match values "cg-room.", values "cg-role." with
    | [roomIdValue], [role] =>
      if (values "cg-host.").length > 1 then throw ⟨1008, "Invalid connection metadata"⟩
      else
        let hostIdParameter := Pairing.toLowerCase ((values "cg-host.").headD "")
        if ok : validateRoomId (Pairing.toLowerCase roomIdValue) = true then
          let room : Room := ⟨Pairing.toLowerCase roomIdValue, ok⟩
          if role ≠ "host" ∧ role ≠ "player" then throw ⟨1008, "Invalid role"⟩
          else if cfg.requireWss && !requestIsSecure cfg request then throw ⟨1008, "WSS required"⟩
          else if role = "player" then
            if !originAllowed node cfg request.origin then throw ⟨1008, "Origin not allowed"⟩
            else if (values "cg-host.").length ≠ 0 then throw ⟨1008, "Invalid role metadata"⟩
            else return ⟨room, .player, hostIdParameter⟩
          else
            if request.origin.any (· ≠ "") && !originAllowed node cfg request.origin then
              throw ⟨1008, "Origin not allowed"⟩
            else if (values "cg-host.").length ≠ 1 then throw ⟨1008, "Invalid role metadata"⟩
            else return ⟨room, .host, hostIdParameter⟩
        else throw ⟨1008, "Invalid roomId"⟩
    | _, _ => throw ⟨1008, "Invalid connection metadata"⟩

end Signaling
end CloudGaming
