import Mathlib.Algebra.Order.Ring.Rat
/-!
# Schema — which signaling messages are well formed

The JSON values the server parses, the checks of its schema library that it uses, and the schemas of the messages of the
clients and of the envelopes between the instances.  A number is finite, and the members of an object have distinct keys.
-/
namespace CloudGaming
namespace Signaling

inductive Json where
  | null
  | bool (b : Bool)
  | num (q : ℚ)
  | str (s : String)
  | arr (items : List Json)
  | obj (members : List (String × Json))

namespace Json

def field? : Json → String → Option Json
  | obj members, key => members.lookup key
  | _, _ => none

def str? : Json → Option String
  | str s => some s
  | _ => none

end Json

/-! ## Strings -/

/-- `length` of a string, in UTF-16 code units. -/
def utf16Length (s : String) : Nat := s.toList.foldl (fun n c => if c.toNat < 65536 then n + 1 else n + 2) 0

theorem utf16Length_append (s t : String) : utf16Length (s ++ t) = utf16Length s + utf16Length t := by
  have hfold : ∀ (cs : List Char) (n : Nat), cs.foldl (fun n c => if c.toNat < 65536 then n + 1 else n + 2) n =
      n + cs.foldl (fun n c => if c.toNat < 65536 then n + 1 else n + 2) 0 := by
    intro cs
    induction cs with
    | nil => exact fun _ => rfl
    | cons c cs ih =>
      intro n
      rw [List.foldl_cons, List.foldl_cons, ih, ih (if c.toNat < 65536 then 0 + 1 else 0 + 2)]
      split <;> omega
  unfold utf16Length
  rw [String.toList_append, List.foldl_append, hfold]

theorem utf16Length_singleton (c : Char) : utf16Length (String.singleton c) = if c.toNat < 65536 then 1 else 2 := by
  unfold utf16Length
  rw [String.singleton_eq_ofList, String.toList_ofList]
  simp

theorem ofList_cons (c : Char) (cs : List Char) : String.ofList (c :: cs) = String.singleton c ++ String.ofList cs := by
  rw [String.singleton_eq_ofList, ← String.ofList_append, List.singleton_append]

theorem utf16Length_of_small {s : String} (h : ∀ c ∈ s.toList, c.toNat < 65536) : utf16Length s = s.toList.length := by
  have hcount : ∀ cs : List Char, (∀ c ∈ cs, c.toNat < 65536) → utf16Length (String.ofList cs) = cs.length := by
    intro cs
    induction cs with
    | nil => exact fun _ => rfl
    | cons c cs ih =>
      intro hcs
      rw [ofList_cons, utf16Length_append, utf16Length_singleton, if_pos (hcs c List.mem_cons_self),
        ih fun d hd => hcs d (List.mem_cons_of_mem c hd), List.length_cons, Nat.add_comm]
  rw [← String.ofList_toList (s := s), hcount _ h, String.ofList_toList]

theorem utf16Length_eq_zero_iff {s : String} : utf16Length s = 0 ↔ s = "" := by
  refine ⟨fun h => ?_, fun h => by rw [h]; decide⟩
  rw [← String.ofList_toList (s := s)] at h ⊢
  cases hs : s.toList with
  | nil => rfl
  | cons c cs =>
    rw [hs, ofList_cons, utf16Length_append, utf16Length_singleton] at h
    split at h <;> omega

/-- A code unit takes one byte at least in UTF-8. -/
theorem utf16Length_le_utf8ByteSize (s : String) : utf16Length s ≤ s.utf8ByteSize := by
  rw [← String.ofList_toList (s := s)]
  induction s.toList with
  | nil => decide
  | cons c cs ih =>
    have hsize : (if c.toNat < 65536 then 1 else 2) ≤ c.utf8Size := by
      split
      · exact c.utf8Size_pos
      · rename_i hlarge
        by_contra hone
        have hsmall : c.val ≤ 127 := Char.utf8Size_eq_one_iff.1 (by have := c.utf8Size_pos; omega)
        exact hlarge (Nat.lt_of_le_of_lt (UInt32.le_iff_toNat_le.1 hsmall) (by decide))
    rw [ofList_cons, utf16Length_append, utf16Length_singleton, String.utf8ByteSize_append, String.utf8ByteSize_singleton]
    omega

/-- `[0-9a-fA-F]`. -/
def isHex (c : Char) : Bool :=
  (48 ≤ c.toNat && c.toNat ≤ 57) || (97 ≤ c.toNat && c.toNat ≤ 102) || (65 ≤ c.toNat && c.toNat ≤ 70)

/-- Hexadecimal digits in groups of the given sizes, with hyphens between them. -/
def isGrouped : List Nat → List Char → Bool
  | [], _ => false
  | [n], cs => cs.length = n && cs.all isHex
  | n :: ns, cs => (cs.take n).length = n && (cs.take n).all isHex && (cs.drop n).head? = some '-' &&
      isGrouped ns (cs.drop (n + 1))

/-- The UUIDs of the schema library, of any version. -/
def isUuid (s : String) : Bool := isGrouped [8, 4, 4, 4, 12] s.toList

/-! ## Checks -/

/-- The check of a value. -/
abbrev Check := Json → Bool

namespace Check

/-- `z.string().min(min).max(max)`. -/
def string (min max : Nat) : Check
  | .str s => min ≤ utf16Length s && utf16Length s ≤ max
  | _ => false

def uuid : Check
  | .str s => isUuid s
  | _ => false

/-- `z.number().int().min(min).max(max)`. -/
def int (min max : Int) : Check
  | .num q => q.den = 1 && (min ≤ q.num && q.num ≤ max)
  | _ => false

def boolean : Check
  | .bool _ => true
  | _ => false

/-- `z.enum`, and `z.literal` of one string. -/
def enum (values : List String) : Check
  | .str s => values.contains s
  | _ => false

/-- `z.record(z.unknown())`. -/
def record : Check
  | .obj _ => true
  | _ => false

def required (p : Check) : Option Json → Bool
  | some j => p j
  | none => false

def optional (p : Check) : Option Json → Bool
  | some j => p j
  | none => true

/-- `z.object(fields).strict()`. -/
def strict (fields : List (String × (Option Json → Bool))) : Check
  | .obj members =>
    members.all (fun m => (fields.map Prod.fst).contains m.1) && fields.all fun f => f.2 (members.lookup f.1)
  | _ => false

end Check

/-! ## The schemas -/

section schemas
open Check

def SessionId : Option Json → Bool := optional uuid

def OfferSchema : Check :=
  strict [("type", required (enum ["offer"])), ("sessionId", SessionId), ("sdp", required (string 1 (256 * 1024)))]

def AnswerSchema : Check :=
  strict [("type", required (enum ["answer"])), ("sessionId", SessionId), ("sdp", required (string 1 (256 * 1024)))]

def CandidateSchema : Check :=
  strict [("type", required (enum ["candidate"])), ("sessionId", SessionId), ("candidate", required (string 1 4096)),
    ("sdpMid", optional (string 0 64)), ("sdpMLineIndex", optional (int 0 64))]

def ControlSchema : Check :=
  strict [("type", required (enum ["control"])), ("sessionId", SessionId),
    ("action", required (enum ["terminate", "replace", "profile-request", "profile-accepted", "profile-rejected",
      "schema-error", "session-ready", "ping"])),
    ("payload", optional record)]

def ProfileSchema : Check :=
  strict [("type", required (enum ["stream-profile"])), ("sessionId", SessionId), ("width", required (int 640 3840)),
    ("height", required (int 360 2160)), ("fps", required (int 30 120)), ("bitrate", required (int 500000 50000000)),
    ("capabilities", required (strict [("maxWidth", required (int 640 7680)), ("maxHeight", required (int 360 4320)),
      ("maxFps", required (int 30 240)), ("maxBitrate", required (int 500000 100000000)), ("h264", required boolean)]))]

/-- The union told apart by `type`. -/
def SignalingMessageSchema : Check := fun j =>
  match (j.field? "type").bind Json.str? with
  | some "offer" => OfferSchema j
  | some "answer" => AnswerSchema j
  | some "candidate" => CandidateSchema j
  | some "control" => ControlSchema j
  | some "stream-profile" => ProfileSchema j
  | _ => false

def InternalDisconnectSchema : Check :=
  strict [("type", required (enum ["peer-disconnected"])), ("sessionId", SessionId)]

/-- `[A-Za-z0-9:-]`. -/
def isSenderChar (c : Char) : Bool :=
  (65 ≤ c.toNat && c.toNat ≤ 90) || (97 ≤ c.toNat && c.toNat ≤ 122) || (48 ≤ c.toNat && c.toNat ≤ 58) || c.toNat = 45

/-- `/^client:[A-Za-z0-9:-]+$/`, of 8 to 96 characters. -/
def senderId : Check
  | .str s => 8 ≤ utf16Length s && utf16Length s ≤ 96 && s.toList.take 7 = "client:".toList && s.toList.length > 7 &&
      (s.toList.drop 7).all isSenderChar
  | _ => false

def RedisEnvelopeSchema : Check :=
  strict [("senderId", required senderId), ("senderRole", required (enum ["host", "player"])),
    ("sessionId", required uuid), ("hostId", required uuid),
    ("data", required fun j => SignalingMessageSchema j || InternalDisconnectSchema j),
    ("originServerId", required uuid)]

end schemas

/-! ## Validation -/

mutual

/-- `bounded` at the given depth, after `nodes` nodes: the nodes seen then, unless a limit is exceeded. -/
def bounded (depth nodes : Nat) : Json → Option Nat
  | .arr items =>
    if nodes + 1 > 512 || depth > 8 then none
    else if items.length ≤ 128 then boundedItems (depth + 1) (nodes + 1) items else none
  | .obj members =>
    if nodes + 1 > 512 || depth > 8 then none
    else if members.length ≤ 128 then boundedMembers (depth + 1) (nodes + 1) members else none
  | .str s => if nodes + 1 > 512 || depth > 8 || utf16Length s > 256 * 1024 then none else some (nodes + 1)
  | .null | .bool _ | .num _ => if nodes + 1 > 512 || depth > 8 then none else some (nodes + 1)

def boundedItems (depth nodes : Nat) : List Json → Option Nat
  | [] => some nodes
  | j :: js => (bounded depth nodes j).bind fun nodes => boundedItems depth nodes js

def boundedMembers (depth nodes : Nat) : List (String × Json) → Option Nat
  | [] => some nodes
  | (key, j) :: ms =>
    if utf16Length key ≤ 64 then (bounded depth nodes j).bind fun nodes => boundedMembers depth nodes ms else none

end

def validateSignalingMessage (message : Json) : Bool := (bounded 0 0 message).isSome && SignalingMessageSchema message

def validateRedisEnvelope (message : Json) : Bool := RedisEnvelopeSchema message

end Signaling
end CloudGaming
