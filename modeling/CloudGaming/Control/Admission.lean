import CloudGaming.Signaling.Tokens
/-!
# Admission — which upgrade requests reach the control socket

The listener that the gateway attaches to the server of the matchmaker, on any upgrade request: the URL, the path, the
credential of the host, and the handover to `accept`.  The URL parser and the WebSocket handshake are not part of this
code: the first is a parameter, what the second comes to is part of the request.
-/
namespace CloudGaming
namespace Control

open Pairing (toLowerCase)
open Signaling (ServerConfig bearerToken hostCredentialValid isVersioned isTokenChar utf16Length secureEqual)

/-! ## The configuration -/

/-- An entry of the credentials: a UUID and a secret that a bearer token can be. -/
def validEntry (e : String × String) : Bool :=
  isVersioned e.1 && 32 ≤ utf16Length e.2 && utf16Length e.2 ≤ 4096 && e.2.toList.all isTokenChar

/-- `parseHostCredentials`, from the entries of the object: where two name one host, the map has the later. -/
def parseHostCredentials (entries : List (String × String)) : Option (List (String × String)) :=
  if entries.all validEntry then some (entries.map fun e => (toLowerCase e.1, e.2)).reverse else none

/-- The configuration of the matchmaker, as it was parsed. -/
structure MatchmakerConfig extends ServerConfig where
  entries : List (String × String)
  parsed : parseHostCredentials entries = some hostCredentials
  hostSecret_long : ∀ s ∈ hostSecret, 32 ≤ utf16Length s
  hostSecretPrevious_long : ∀ s ∈ hostSecretPrevious, 32 ≤ utf16Length s

/-! ## The listener -/

/-- A parsed URL: its path, and its first `hostId` parameter. -/
structure Url where
  pathname : String
  hostId : Option String

/-- An upgrade request; `wellFormed` tells that `handleUpgrade` completes its handshake, and `socket` is its socket. -/
structure UpgradeRequest where
  url : String
  authorization : Option String
  wellFormed : Bool
  socket : Nat

/-- The gateway: its clients, those it replaced, and what it told `onConnection`. -/
structure Gateway where
  clients : List (String × Nat) := []
  replaced : List Nat := []
  connections : List (String × Bool) := []

def Gateway.accept (g : Gateway) (hostId : String) (ws : Nat) : Gateway where
  clients := (hostId, ws) :: g.clients.filter fun c => c.1 ≠ hostId
  replaced := (g.clients.lookup hostId).toList ++ g.replaced
  connections := (hostId, true) :: g.connections

/-- How the listener ends: whether it throws, the id it hands the socket to `accept` under, and whether the socket is
ended. -/
structure Handled where
  threw : Bool := false
  handed : Option String := none
  ended : Bool := false
  gateway : Gateway

def controlPath : String := "/api/v1/host/control"

variable (parseUrl : String → Option Url) (cfg : MatchmakerConfig)

/-- The listener of `attach`. -/
def upgrade (g : Gateway) (r : UpgradeRequest) : Handled :=
  match parseUrl r.url with
  | none => { threw := true, gateway := g }
  | some url =>
    if url.pathname ≠ controlPath then { gateway := g }
    else
      let hostId := url.hostId.getD ""
      if !hostCredentialValid cfg.toServerConfig hostId (bearerToken r.authorization) then
        { ended := true, gateway := g }
      else if r.wellFormed then
        { handed := some (toLowerCase hostId), gateway := g.accept (toLowerCase hostId) r.socket }
      -- the handshake ends the socket that it refuses
      else { handed := some (toLowerCase hostId), ended := true, gateway := g }

/-! ## Who is to be admitted -/

/-- The token of an authorization header. -/
def Bearer (authorization : Option String) (token : String) : Prop :=
  authorization = some ("Bearer " ++ token) ∧ 1 ≤ token.toList.length ∧ token.toList.length ≤ 4096 ∧
    token.toList.all isTokenChar

/-- The credential of a host, under its id in any letter case; without entries, outside production, one of the two
shared secrets. -/
def Credential (hostId token : String) : Prop :=
  if cfg.entries ≠ [] then
    (cfg.entries.reverse.find? fun e => toLowerCase e.1 = toLowerCase hostId).map Prod.snd = some token
  else cfg.production = false ∧ (cfg.hostSecret = some token ∨ cfg.hostSecretPrevious = some token)

/-- The request names the control path and a UUID, and carries the credential of this host. -/
def Entitled (r : UpgradeRequest) (hostId : String) : Prop :=
  ∃ url, parseUrl r.url = some url ∧ url.pathname = controlPath ∧ url.hostId = some hostId ∧ isVersioned hostId ∧
    ∃ token, Bearer r.authorization token ∧ Credential cfg hostId token

/-- **Admission that is exact and safe**: the listener does not throw, hands over the socket of exactly the requests
that are entitled, for the gateway to register it under the id in lower case, and ends every other socket. -/
structure Exact (r : UpgradeRequest) (h : Handled) : Prop where
  safe : h.threw = false
  handed : ∀ id, h.handed = some id ↔ ∃ hostId, Entitled parseUrl cfg r hostId ∧ id = toLowerCase hostId
  registered : ∀ id ∈ h.handed, r.wellFormed → h.gateway.clients.lookup id = some r.socket
  released : h.handed = none → h.ended

/-! ## What the checks amount to -/

theorem after_eq_some {label s t : String} : Signaling.after label s = some t ↔ s = label ++ t := by
  unfold Signaling.after
  constructor
  · intro h
    split at h
    · rename_i hlabel
      obtain ⟨rest, hrest⟩ := List.isPrefixOf_iff_prefix.1 hlabel
      obtain rfl := Option.some.inj h
      rw [← hrest, List.drop_left, ← String.toList_inj, String.toList_append, String.toList_ofList, hrest]
    · cases h
  · rintro rfl
    have hlabel : label.toList.isPrefixOf (label ++ t).toList = true := by
      rw [String.toList_append]
      exact List.isPrefixOf_iff_prefix.2 (List.prefix_append ..)
    rw [if_pos hlabel, String.toList_append, List.drop_left, String.ofList_toList]

theorem bearerToken_eq_iff {authorization : Option String} {token : String} (h : token ≠ "") :
    bearerToken authorization = token ↔ Bearer authorization token := by
  have hafter : ∀ t, authorization.bind (Signaling.after "Bearer ") = some t ↔
      authorization = some ("Bearer " ++ t) := by
    intro t
    cases authorization with
    | none => simp
    | some s => simp [after_eq_some]
  unfold bearerToken Bearer
  cases hb : authorization.bind (Signaling.after "Bearer ") with
  | none =>
    refine iff_of_false (Ne.symm h) fun hn => ?_
    rw [(hafter token).2 hn.1] at hb
    cases hb
  | some t =>
    have ht := (hafter t).1 hb
    dsimp only
    split
    · rename_i hchars
      simp only [Bool.and_eq_true, decide_eq_true_eq] at hchars
      constructor
      · rintro rfl
        exact ⟨ht, hchars.1.1, hchars.1.2, hchars.2⟩
      · intro hn
        exact Option.some.inj (hb.symm.trans ((hafter token).2 hn.1))
    · rename_i hchars
      refine iff_of_false (Ne.symm h) fun hn => hchars ?_
      obtain rfl : t = token := Option.some.inj (hb.symm.trans ((hafter token).2 hn.1))
      simp only [Bool.and_eq_true, decide_eq_true_eq]
      exact ⟨⟨hn.2.1, hn.2.2.1⟩, hn.2.2.2⟩

theorem lookup_map_fst {f : String → String} (id : String) (l : List (String × String)) :
    (l.map fun e => (f e.1, e.2)).lookup id = (l.find? fun e => f e.1 = id).map Prod.snd := by
  induction l with
  | nil => rfl
  | cons e l ih =>
    by_cases h : f e.1 = id
    · simp [h]
    · have h' : (id == f e.1) = false := beq_false_of_ne (Ne.symm h)
      rw [List.map_cons, List.lookup_cons, h', ih, List.find?_cons_of_neg (by simpa using h)]

section
variable {cfg}

theorem hostCredentials_eq : cfg.hostCredentials = (cfg.entries.map fun e => (toLowerCase e.1, e.2)).reverse := by
  have hparsed := cfg.parsed
  unfold parseHostCredentials at hparsed
  split at hparsed
  · exact (Option.some.inj hparsed).symm
  · cases hparsed

theorem entries_valid : ∀ e ∈ cfg.entries, validEntry e = true := by
  have hparsed := cfg.parsed
  unfold parseHostCredentials at hparsed
  split at hparsed
  · rename_i hall
    exact List.all_eq_true.1 hall
  · cases hparsed

theorem ne_empty_of_long {s : String} (h : 32 ≤ utf16Length s) : s ≠ "" := by
  rintro rfl
  exact absurd h (by decide)

theorem credential_ne_empty {hostId token : String} (h : Credential cfg hostId token) : token ≠ "" := by
  unfold Credential at h
  split at h
  · obtain ⟨e, he, rfl⟩ := Option.map_eq_some_iff.1 h
    have hvalid := entries_valid e (List.mem_reverse.1 (List.mem_of_find?_eq_some he))
    simp only [validEntry, Bool.and_eq_true, decide_eq_true_eq] at hvalid
    exact ne_empty_of_long hvalid.1.1.2
  · rcases h.2 with hs | hs
    · exact ne_empty_of_long (cfg.hostSecret_long token hs)
    · exact ne_empty_of_long (cfg.hostSecretPrevious_long token hs)

/-- **A credential is valid for a UUID that it is the credential of.** -/
theorem hostCredentialValid_iff {hostId token : String} :
    hostCredentialValid cfg.toServerConfig hostId token = true ↔ isVersioned hostId ∧ Credential cfg hostId token := by
  unfold hostCredentialValid Credential
  cases hv : isVersioned hostId with
  | false => simp
  | true =>
    rw [hostCredentials_eq]
    by_cases he : cfg.entries = []
    · cases cfg.production <;> simp [he, secureEqual]
    · rw [if_pos he, ← List.map_reverse, lookup_map_fst]
      simp [he, secureEqual]

theorem valid_bearer_iff {hostId : String} {authorization : Option String} :
    hostCredentialValid cfg.toServerConfig hostId (bearerToken authorization) = true ↔
      isVersioned hostId ∧ ∃ token, Bearer authorization token ∧ Credential cfg hostId token := by
  rw [hostCredentialValid_iff]
  refine and_congr_right fun _ => ⟨fun hc => ?_, ?_⟩
  · exact ⟨_, (bearerToken_eq_iff (credential_ne_empty hc)).1 rfl, hc⟩
  · rintro ⟨token, hb, hc⟩
    rw [(bearerToken_eq_iff (credential_ne_empty hc)).2 hb]
    exact hc

end

/-! ## The listener, case by case -/

section
variable {parseUrl cfg} {g : Gateway} {r : UpgradeRequest} {url : Url}

theorem isVersioned_empty : isVersioned "" = false := by decide

theorem valid_getD_iff :
    hostCredentialValid cfg.toServerConfig (url.hostId.getD "") (bearerToken r.authorization) = true ↔
      ∃ hostId, url.hostId = some hostId ∧ isVersioned hostId ∧
        ∃ token, Bearer r.authorization token ∧ Credential cfg hostId token := by
  rw [valid_bearer_iff]
  cases url.hostId with
  | none => simp [isVersioned_empty]
  | some hostId => simp

theorem entitled_iff (hurl : parseUrl r.url = some url) (hpath : url.pathname = controlPath) (hostId : String) :
    Entitled parseUrl cfg r hostId ↔ url.hostId = some hostId ∧ isVersioned hostId ∧
      ∃ token, Bearer r.authorization token ∧ Credential cfg hostId token := by
  constructor
  · rintro ⟨url', hurl', -, h⟩
    obtain rfl := Option.some.inj (hurl.symm.trans hurl')
    exact h
  · exact fun h => ⟨url, hurl, hpath, h⟩

theorem lookup_accept (hostId : String) (ws : Nat) : (g.accept hostId ws).clients.lookup hostId = some ws := by
  simp [Gateway.accept]

/-- **The clients of the other hosts stay.** -/
theorem lookup_accept_other {hostId other : String} (h : other ≠ hostId) (ws : Nat) :
    (g.accept hostId ws).clients.lookup other = g.clients.lookup other := by
  have hother : (other == hostId) = false := beq_false_of_ne h
  simp only [Gateway.accept, List.lookup_cons, hother]
  induction g.clients with
  | nil => rfl
  | cons c cs ih =>
    by_cases hc : c.1 = hostId
    · have hne : (other == c.1) = false := beq_false_of_ne (by rw [hc]; exact h)
      rw [List.filter_cons_of_neg (by simpa using hc), ih, List.lookup_cons, hne]
    · rw [List.filter_cons_of_pos (by simpa using hc), List.lookup_cons, List.lookup_cons, ih]

/-- A request to the control path is refused, or handed over. -/
theorem exact_of_path (hurl : parseUrl r.url = some url) (hpath : url.pathname = controlPath) :
    Exact parseUrl cfg r (upgrade parseUrl cfg g r) := by
  have hvalid : hostCredentialValid cfg.toServerConfig (url.hostId.getD "") (bearerToken r.authorization) = true ↔
      ∃ hostId, url.hostId = some hostId ∧ isVersioned hostId ∧
        ∃ token, Bearer r.authorization token ∧ Credential cfg hostId token := valid_getD_iff
  unfold upgrade
  rw [hurl]
  dsimp only
  rw [if_neg (not_not.2 hpath)]
  cases hc : hostCredentialValid cfg.toServerConfig (url.hostId.getD "") (bearerToken r.authorization) with
  | false =>
    rw [hc] at hvalid
    refine ⟨rfl, fun id => iff_of_false (by simp) ?_, (fun id hid => by cases hid), fun _ => rfl⟩
    rintro ⟨hostId, he, -⟩
    exact absurd (hvalid.2 ⟨hostId, (entitled_iff hurl hpath hostId).1 he⟩) (by decide)
  | true =>
    rw [hc] at hvalid
    obtain ⟨hostId, hid, hversioned, htoken⟩ := hvalid.1 rfl
    have hentitled : ∀ id, some (toLowerCase hostId) = some id ↔
        ∃ hostId, Entitled parseUrl cfg r hostId ∧ id = toLowerCase hostId := by
      intro id
      constructor
      · intro h
        exact ⟨hostId, (entitled_iff hurl hpath hostId).2 ⟨hid, hversioned, htoken⟩, (Option.some.inj h).symm⟩
      · rintro ⟨other, he, rfl⟩
        obtain rfl := Option.some.inj (hid.symm.trans ((entitled_iff hurl hpath other).1 he).1)
        rfl
    rw [hid, Option.getD_some]
    cases hw : r.wellFormed with
    | true =>
      refine ⟨rfl, hentitled, fun id h _ => ?_, fun hn => by cases hn⟩
      obtain rfl := Option.some.inj h
      exact lookup_accept ..
    | false =>
      exact ⟨rfl, hentitled, fun id _ hn => absurd (hw.symm.trans hn) Bool.false_ne_true, fun hn => by cases hn⟩

end

/-- **Admission is exact and safe exactly for the requests whose URL parses and names the control path**: any other URL
throws out of the listener, or leaves the socket as it is. -/
theorem admission_exact_iff (g : Gateway) (r : UpgradeRequest) :
    Exact parseUrl cfg r (upgrade parseUrl cfg g r) ↔
      ∃ url, parseUrl r.url = some url ∧ url.pathname = controlPath := by
  constructor
  · intro h
    cases hurl : parseUrl r.url with
    | none =>
      have hthrew : (upgrade parseUrl cfg g r).threw = true := by simp [upgrade, hurl]
      exact absurd (hthrew.symm.trans h.safe) (by decide)
    | some url =>
      refine ⟨url, rfl, not_not.1 fun hpath => ?_⟩
      have hleft : upgrade parseUrl cfg g r = { gateway := g } := by simp [upgrade, hurl, hpath]
      have hreleased := h.released
      rw [hleft] at hreleased
      exact absurd (hreleased rfl) Bool.false_ne_true
  · rintro ⟨url, hurl, hpath⟩
    exact exact_of_path hurl hpath

/-! ### A target that is no URL -/

/-- A matchmaker in development, with one credential. -/
def aMatchmaker : MatchmakerConfig where
  enableSessionAuth := true
  roomCapacity := 2
  roomTtlSeconds := 120
  messageMaxBytes := 262144
  backpressureCloseThresholdBytes := 5242880
  production := false
  requireWss := false
  enableAuth := false
  usesJwks := false
  subprotocol := "cloud-gaming-v1"
  roomsClaim := "rooms"
  pairingTokenSecret := "fedcba9876543210fedcba9876543210"
  pairingTokenTtlSeconds := 120
  hostSecret := none
  hostSecretPrevious := none
  hostCredentials := [("11111111-1111-4111-8111-11111111111a", "0123456789abcdef0123456789abcdef")]
  trustedProxyIps := []
  allowedOrigins := []
  rateLimitConnPer10s := 20
  cbErrorThreshold := 5
  cbOpenMs := 10000
  secret_long := by decide
  entries := [("11111111-1111-4111-8111-11111111111A", "0123456789abcdef0123456789abcdef")]
  parsed := by decide
  hostSecret_long := by simp
  hostSecretPrevious_long := by simp

/-- What the parser makes of two slashes: there is no host between them. -/
def slashes (u : String) : Option Url := if u = "//" then none else some ⟨u, none⟩

theorem admission_not_exact : ¬∀ (parseUrl : String → Option Url) (cfg : MatchmakerConfig) (g : Gateway)
    (r : UpgradeRequest), Exact parseUrl cfg r (upgrade parseUrl cfg g r) := by
  intro h
  exact absurd (h slashes aMatchmaker {} ⟨"//", none, true, 0⟩).safe (by decide)

end Control
end CloudGaming
