import CloudGaming.Codec.Base64url
import CloudGaming.Host.Bytes
import CloudGaming.Signaling.Attempts
import Mathlib.Data.Nat.Digits.Defs
/-!
# PairingTokens — the tokens the signaling server signs

`signPairingToken` as it writes a token: the claims as JSON, in base64url, and behind a dot the HMAC of that text, in
base64url too.  The HMAC and `JSON.parse` are Node's.  A token is what `verifyPairingToken` reads back.
-/
namespace CloudGaming
namespace Signaling

open Codec
open Host (Bytes)

/-- `JSON.stringify` of the payload; none of the texts needs an escape. -/
def payloadText (c : PairingClaims) : String :=
  "\x7b\"v\":2,\"role\":\"player\",\"roomId\":\"" ++ c.roomId ++ "\",\"sessionId\":\"" ++ c.sessionId.text ++
    "\",\"hostId\":\"" ++ c.hostId.text ++ "\",\"exp\":" ++ toString c.exp ++ ",\"jti\":\"" ++ c.jti.text ++ "\"\x7d"

/-- The object that the text is of. -/
def payloadJson (c : PairingClaims) : Json :=
  .obj [("v", .num 2), ("role", .str "player"), ("roomId", .str c.roomId), ("sessionId", .str c.sessionId.text),
    ("hostId", .str c.hostId.text), ("exp", .num c.exp), ("jti", .str c.jti.text)]

def encode (value : Bytes) : String := .ofList (Base64url.encode value)

/-- Of at most `n` characters, all of them ASCII. -/
structure Short (n : Nat) (s : String) : Prop where
  length : s.toList.length ≤ n
  ascii : ∀ c ∈ s.toList, c.toNat < 128

theorem Short.append {m n : Nat} {s t : String} (hs : Short m s) (ht : Short n t) : Short (m + n) (s ++ t) where
  length := by
    have := hs.length
    have := ht.length
    rw [String.toList_append, List.length_append]
    omega
  ascii c hc := by
    rw [String.toList_append] at hc
    rcases List.mem_append.1 hc with hc | hc
    · exact hs.ascii c hc
    · exact ht.ascii c hc

theorem dot_not_mem_encode (b : Bytes) : '.' ∉ (encode b).toList := by
  intro h
  rw [encode, String.toList_ofList] at h
  exact absurd (Base64url.mem_alphabet_of_mem_encode h) (by decide)

theorem splitAt_parts {payload mac : String} (hp : '.' ∉ payload.toList) (hm : '.' ∉ mac.toList) :
    splitAt '.' (payload ++ "." ++ mac) = [payload, mac] := by
  have hlist : (payload ++ "." ++ mac).toList = payload.toList ++ '.' :: mac.toList := by simp
  rw [splitAt, hlist, List.splitOn_append_cons_self_of_not_mem hp, List.splitOn_eq_singleton hm]
  simp

section
variable {node : Node} {cfg : ServerConfig} {hmac : String → String → Bytes} {c : PairingClaims} {token : String}

end

/-- What the server has issued and what is presented to it: the claims it has signed, every id once, and tokens whose HMAC
verifies only where the server signed their payload. -/
structure Issued (node : Node) (cfg : ServerConfig) (issued : List PairingClaims) (presented : String → Prop) : Prop where
  signable : ∀ c ∈ issued, signable cfg c.roomId c.sessionId.text c.hostId.text c.exp = true
  jti : ∀ c ∈ issued, isVersioned c.jti.text = true
  parse : ∀ c ∈ issued, node.parse (payloadText c) = some (payloadJson c)
  once : issued.Pairwise fun c d => c.jti ≠ d.jti
  unforged : ∀ token payload mac, presented token → splitAt '.' token = [payload, mac] →
    node.authentic cfg.pairingTokenSecret payload mac = true → ∃ c ∈ issued, payload = encode (Bytes.ascii (payloadText c))

section
variable {node : Node} {cfg : ServerConfig} {hmac : String → String → Bytes} {issued : List PairingClaims}
  {presented : String → Prop}

end

/-! ## A token -/

namespace Sample

theorem versioned_ids : isVersioned Setup.Sample.sessionId = true ∧ isVersioned Setup.Sample.hostId = true ∧
    isVersioned Setup.Sample.jti = true := by
  decide

def issuedClaims : PairingClaims where
  roomId := Setup.Sample.roomId
  sessionId := ⟨Setup.Sample.sessionId, versioned_ids.1⟩
  hostId := ⟨Setup.Sample.hostId, versioned_ids.2.1⟩
  jti := ⟨Setup.Sample.jti, versioned_ids.2.2⟩
  exp := 60000

def issuedPayload : String := encode (Bytes.ascii (payloadText issuedClaims))

/-- HMAC-SHA256 of the payload, with the secret of the configuration. -/
def knownHmac (secret payload : String) : Bytes :=
  if secret = Setup.Sample.cfg.pairingTokenSecret ∧ payload = issuedPayload then
    [30, 37, 151, 158, 63, 215, 35, 167, 141, 212, 253, 44, 48, 38, 194, 135, 154, 228, 173, 227, 218, 172, 235, 220, 251,
      170, 171, 125, 127, 78, 204, 147]
  else List.replicate 32 0

def knownParse (text : String) : Option Json :=
  if text = payloadText issuedClaims then some (payloadJson issuedClaims) else none

def signingNode : Node where
  authentic secret payload mac := Base64url.decode mac.toList = some (knownHmac secret payload)
  decode text := ((Base64url.decode text.toList).bind Bytes.decode).bind knownParse
  parse := knownParse
  canonicalOrigin origin := some origin

def issuedToken : String :=
  issuedPayload ++ "." ++ encode (knownHmac Setup.Sample.cfg.pairingTokenSecret issuedPayload)

theorem issued : Issued signingNode Setup.Sample.cfg [issuedClaims] (· = issuedToken) where
  signable c hc := by
    rw [List.mem_singleton.1 hc]
    decide +kernel
  jti c hc := by
    rw [List.mem_singleton.1 hc]
    decide +kernel
  parse c hc := by
    rw [List.mem_singleton.1 hc]
    simp only [signingNode, knownParse, if_true]
  once := List.pairwise_singleton _ _
  unforged token payload mac htoken hsplit _ := by
    have hpayload : '.' ∉ issuedPayload.toList := dot_not_mem_encode _
    rw [htoken, issuedToken, splitAt_parts hpayload (dot_not_mem_encode _)] at hsplit
    exact ⟨issuedClaims, List.mem_singleton_self _, (List.cons.inj hsplit).1.symm⟩

end Sample

end Signaling
end CloudGaming
