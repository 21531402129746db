import CloudGaming.Host.Signaling
import CloudGaming.Signaling.Routing
/-!
# Understood — what the host makes of the signaling messages that are forwarded to it

Two validators read one message: the schemas of the server, on the values of its runtime, and the host's, on what its JSON
library parses from the text the server writes.  `1e999` is infinite, which no schema takes for an integer and which is
written as `null`: it is `null` here.
-/
namespace CloudGaming
namespace Signaling

open Host (SignalingSchema.validate)

/-! ## The values of the server -/

/-- A code point of a string; half of a surrogate pair without the other half is one as well. -/
inductive CodePoint where
  | scalar (c : Char)
  | surrogate (u : Fin 2048)
  deriving DecidableEq

namespace CodePoint

def isScalar : CodePoint → Bool
  | scalar _ => true
  | surrogate _ => false

def toChar : CodePoint → Char
  | scalar c => c
  | surrogate _ => '\uFFFD'

end CodePoint

abbrev JsString := List CodePoint

namespace JsString

def isWellFormed (s : JsString) : Bool := s.all CodePoint.isScalar

def toWellFormed (s : JsString) : String := String.ofList (s.map CodePoint.toChar)

end JsString

open JsString (toWellFormed)

inductive JsValue where
  | null
  | bool (b : Bool)
  | num (q : ℚ)
  | str (s : JsString)
  | arr (items : List JsValue)
  | obj (members : List (JsString × JsValue))

namespace JsValue

/-- The members of every object have distinct keys, as those `JSON.parse` makes. -/
inductive Distinct : JsValue → Prop
  | null : Distinct null
  | bool (b) : Distinct (bool b)
  | num (q) : Distinct (num q)
  | str (s) : Distinct (str s)
  | arr (items) (h : ∀ v ∈ items, Distinct v) : Distinct (arr items)
  | obj (members) (nodup : (members.map Prod.fst).Nodup) (h : ∀ m ∈ members, Distinct m.2) : Distinct (obj members)

mutual

/-- No string or key has a lone surrogate. -/
def isWellFormed : JsValue → Bool
  | null | bool _ | num _ => true
  | str s => JsString.isWellFormed s
  | arr items => itemsWellFormed items
  | obj members => membersWellFormed members

def itemsWellFormed : List JsValue → Bool
  | [] => true
  | v :: vs => v.isWellFormed && itemsWellFormed vs

def membersWellFormed : List (JsString × JsValue) → Bool
  | [] => true
  | (key, v) :: ms => JsString.isWellFormed key && v.isWellFormed && membersWellFormed ms

end

mutual

/-- The value as the schemas see it: they count code units and look for ASCII texts, for which a lone surrogate is as good
as the character that replaces it. -/
def toJson : JsValue → Json
  | null => .null
  | bool b => .bool b
  | num q => .num q
  | str s => .str (toWellFormed s)
  | arr items => .arr (itemsToJson items)
  | obj members => .obj (membersToJson members)

def itemsToJson : List JsValue → List Json
  | [] => []
  | v :: vs => v.toJson :: itemsToJson vs

def membersToJson : List (JsString × JsValue) → List (String × Json)
  | [] => []
  | (key, v) :: ms => (toWellFormed key, v.toJson) :: membersToJson ms

end

/-- What the schemas make of a payload: a record without the key `__proto__`. -/
def record : JsValue → JsValue
  | obj members => obj (members.filter fun m => toWellFormed m.1 ≠ "__proto__")
  | v => v

/-- The data of a message that passed: everything as it is, except a payload. -/
def data : JsValue → JsValue
  | obj members => obj (members.map fun m => (m.1, if toWellFormed m.1 = "payload" then m.2.record else m.2))
  | v => v

end JsValue

namespace Json

def record : Json → Json
  | obj members => obj (members.filter fun m => m.1 ≠ "__proto__")
  | j => j

def data : Json → Json
  | obj members => obj (members.map fun m => (m.1, if m.1 = "payload" then m.2.record else m.2))
  | j => j

end Json

/-! ## The text, and the host's parser -/

section received
variable (other : ℚ → Host.Json)

/-- A number as the host reads it: exact integers are written out in digits; the rest is left open. -/
def readNumber (q : ℚ) : Host.Json := if q.den = 1 ∧ q.num.natAbs ≤ 2 ^ 53 then .int q.num else other q

mutual

def parsed : Json → Host.Json
  | .null => .null
  | .bool b => .bool b
  | .num q => readNumber other q
  | .str s => .str s
  | .arr items => .arr (parsedItems items)
  | .obj members => .obj (parsedMembers members)

def parsedItems : List Json → List Host.Json
  | [] => []
  | j :: js => parsed j :: parsedItems js

def parsedMembers : List (String × Json) → List (String × Host.Json)
  | [] => []
  | (key, j) :: ms => (key, parsed j) :: parsedMembers ms

end

/-- What the host parses of the text of a value.  `JSON.stringify` writes a lone surrogate as an escape, which the host's
parser refuses.  The order of the members, which the host keeps by key, is left. -/
def received (v : JsValue) : Option Host.Json := if v.isWellFormed then some (parsed other v.toJson) else none

/-- The host accepts the text that the server forwards for the message. -/
def Understood (message : JsValue) : Prop :=
  ∃ json, received other message.data = some json ∧ SignalingSchema.validate json = .ok ()

end received

/-- The messages that a host is sent: those of a player that pass, with the session they belong to, and the news that the
player is gone. -/
inductive Forwarded (message : JsValue) : Prop
  | ofPlayer (valid : validateSignalingMessage message.toJson = true)
      (allowed : messageAllowedForRole .player message.toJson = true)
      (session : (message.toJson.field? "sessionId").isSome)
  | disconnected (envelope : JsValue) (valid : validateRedisEnvelope envelope.toJson = true)
      (data : envelope.toJson.field? "data" = some message.toJson)
      (type : message.toJson.field? "type" = some (.str "peer-disconnected"))

/-- The texts are within their limits in bytes as well, and a payload has at most 16 members. -/
structure Json.InLimits (j : Json) : Prop where
  sdp : ∀ s, j.field? "sdp" = some (.str s) → s.utf8ByteSize ≤ 256 * 1024
  candidate : ∀ s, j.field? "candidate" = some (.str s) → s.utf8ByteSize ≤ 4096
  sdpMid : ∀ s, j.field? "sdpMid" = some (.str s) → s.utf8ByteSize ≤ 64
  payload : ∀ members, j.data.field? "payload" = some (.obj members) → members.length ≤ 16

/-- The data has no lone surrogate, and is within the limits of the host. -/
def Fits (message : JsValue) : Prop := message.data.isWellFormed = true ∧ message.toJson.InLimits

/-! ## Objects, member by member -/

variable {other : ℚ → Host.Json}

theorem lookup_map {α β : Type*} (f : String → α → β) (members : List (String × α)) (key : String) :
    (members.map fun m => (m.1, f m.1 m.2)).lookup key = (members.lookup key).map (f key) := by
  induction members with
  | nil => rfl
  | cons m ms ih =>
    obtain ⟨k, v⟩ := m
    by_cases hk : key = k
    · subst hk
      simp
    · have hne : (key == k) = false := by simpa using hk
      simp [List.lookup_cons, hne, ih]

theorem membersToJson_eq (members : List (JsString × JsValue)) :
    JsValue.membersToJson members = members.map fun m => (toWellFormed m.1, m.2.toJson) := by
  induction members with
  | nil => rfl
  | cons m ms ih => simp [JsValue.membersToJson, ih]

theorem parsedMembers_eq (members : List (String × Json)) :
    parsedMembers other members = members.map fun m => (m.1, parsed other m.2) := by
  induction members with
  | nil => rfl
  | cons m ms ih => simp [parsedMembers, ih]

theorem membersWellFormed_iff (members : List (JsString × JsValue)) : JsValue.membersWellFormed members = true ↔
    ∀ m ∈ members, JsString.isWellFormed m.1 = true ∧ m.2.isWellFormed = true := by
  induction members with
  | nil => simp [JsValue.membersWellFormed]
  | cons m ms ih => simp [JsValue.membersWellFormed, ih]

theorem field?_parsed (members : List (String × Json)) (key : String) :
    (parsed other (.obj members)).field? key = (members.lookup key).map (parsed other) := by
  simp only [parsed, Host.Json.field?, parsedMembers_eq]
  exact lookup_map (fun _ => parsed other) members key

/-- An object that passes a strict schema: its keys are among the fields, and each field passes its check. -/
theorem strict_iff (fields : List (String × (Option Json → Bool))) (j : Json) : Check.strict fields j = true ↔
    ∃ members, j = .obj members ∧ (∀ m ∈ members, m.1 ∈ fields.map Prod.fst) ∧
      ∀ f ∈ fields, f.2 (members.lookup f.1) = true := by
  unfold Check.strict
  constructor
  · intro h
    cases j with
    | obj members =>
      simp only [Bool.and_eq_true, List.all_eq_true, List.contains_iff_mem] at h
      exact ⟨members, rfl, h⟩
    | _ => cases h
  · rintro ⟨members, rfl, hkeys, hfields⟩
    simp only [Bool.and_eq_true, List.all_eq_true, List.contains_iff_mem]
    exact ⟨hkeys, hfields⟩

section hasOnly
open Host.SignalingSchema

theorem hasOnly_parsed {members : List (String × Json)} {fields : List String} (hkeys : ∀ m ∈ members, m.1 ∈ fields)
    (hnodup : (members.map Prod.fst).Nodup) : hasOnly (parsed other (.obj members)) fields = true := by
  have hlength : members.length ≤ fields.length := by
    rw [← List.length_map Prod.fst]
    refine (List.subperm_of_subset hnodup fun key hkey => ?_).length_le
    obtain ⟨m, hm, rfl⟩ := List.mem_map.1 hkey
    exact hkeys m hm
  simp only [hasOnly, parsed, parsedMembers_eq, List.length_map, Bool.and_eq_true, decide_eq_true_eq, List.all_eq_true]
  refine ⟨hlength, fun m hm => ?_⟩
  obtain ⟨n, hn, rfl⟩ := List.mem_map.1 hm
  exact hkeys n hn

end hasOnly

/-! ## Values that both validators check -/

section checks
open Host.SignalingSchema

theorem isHexDigit_of_isHex {c : Char} (h : isHex c = true) : isHexDigit c = true := by
  unfold isHex at h
  unfold isHexDigit
  simp only [Bool.or_eq_true, Bool.and_eq_true, decide_eq_true_eq, Char.isDigit, Char.le_def, UInt32.le_iff_toNat_le,
    ge_iff_le] at h ⊢
  exact h

/-- The host finds hexadecimal digits where the server found them. -/
theorem isSessionIdText_append (digits rest : List Char) (i : Nat) (hdigits : digits.all isHex = true)
    (hi : ∀ k < digits.length, i + k ∉ [8, 13, 18, 23]) :
    isSessionIdText (digits ++ rest) i = isSessionIdText rest (i + digits.length) := by
  induction digits generalizing i with
  | nil => rfl
  | cons c cs ih =>
    simp only [List.all_cons, Bool.and_eq_true] at hdigits
    have hc : i ∉ [8, 13, 18, 23] := hi 0 (by simp)
    have hcs : ∀ k < cs.length, i + 1 + k ∉ [8, 13, 18, 23] := by
      intro k hk
      have := hi (k + 1) (by simpa using hk)
      rwa [show i + (k + 1) = i + 1 + k by omega] at this
    rw [List.cons_append, isSessionIdText, if_neg hc, isHexDigit_of_isHex hdigits.1, Bool.true_and, ih _ hdigits.2 hcs,
      List.length_cons, show i + 1 + cs.length = i + (cs.length + 1) by omega]

/-- A group of digits, the hyphen after it, and the other groups. -/
theorem isGrouped_cons {n m : Nat} {ns : List Nat} {cs : List Char} (h : isGrouped (n :: m :: ns) cs = true) :
    ∃ digits rest, cs = digits ++ '-' :: rest ∧ digits.length = n ∧ digits.all isHex = true ∧
      isGrouped (m :: ns) rest = true := by
  rw [isGrouped] at h
  · simp only [Bool.and_eq_true, decide_eq_true_eq] at h
    obtain ⟨⟨⟨hlen, hall⟩, hhead⟩, hrest⟩ := h
    refine ⟨cs.take n, cs.drop (n + 1), ?_, hlen, hall, hrest⟩
    cases hd : cs.drop n with
    | nil => rw [hd] at hhead; cases hhead
    | cons c rest =>
      rw [hd] at hhead
      obtain rfl := Option.some.inj hhead
      rw [← List.drop_drop, hd, List.drop_one, List.tail_cons, ← hd, List.take_append_drop]
  · simp

theorem isSessionId_of_uuid {j : Json} (h : Check.uuid j = true) : isSessionId (parsed other j) = true := by
  cases j with
  | str s =>
    obtain ⟨g₁, r₁, hs, hl₁, hg₁, h₁⟩ := isGrouped_cons h
    obtain ⟨g₂, r₂, rfl, hl₂, hg₂, h₂⟩ := isGrouped_cons h₁
    obtain ⟨g₃, r₃, rfl, hl₃, hg₃, h₃⟩ := isGrouped_cons h₂
    obtain ⟨g₄, g₅, rfl, hl₄, hg₄, h₄⟩ := isGrouped_cons h₃
    simp only [isGrouped, Bool.and_eq_true, decide_eq_true_eq] at h₄
    have hdash : ∀ cs i, i ∈ [8, 13, 18, 23] → isSessionIdText ('-' :: cs) i = isSessionIdText cs (i + 1) := by
      intro cs i hi
      rw [isSessionIdText, if_pos hi]
      simp
    simp only [isSessionId, parsed, Host.Json.str?, Option.any_some, hs]
    rw [isSessionIdText_append g₁ _ 0 hg₁ (by rw [hl₁]; decide), hl₁, hdash _ _ (by decide),
      isSessionIdText_append g₂ _ _ hg₂ (by rw [hl₂]; decide), hl₂, hdash _ _ (by decide),
      isSessionIdText_append g₃ _ _ hg₃ (by rw [hl₃]; decide), hl₃, hdash _ _ (by decide),
      isSessionIdText_append g₄ _ _ hg₄ (by rw [hl₄]; decide), hl₄, hdash _ _ (by decide),
      ← List.append_nil g₅, isSessionIdText_append g₅ _ _ h₄.2 (by rw [h₄.1]; decide), h₄.1]
    rfl
  | _ => cases h

theorem isIntInRange_of_int {j : Json} {low high : Int} (h : Check.int low high j = true) (hlow : -(2 ^ 53) ≤ low)
    (hhigh : high ≤ 2 ^ 53) : isIntInRange (parsed other j) low high = true := by
  cases j with
  | num q =>
    simp only [Check.int, Bool.and_eq_true, decide_eq_true_eq] at h
    obtain ⟨hden, hl, hh⟩ := h
    have hread : parsed other (.num q) = .int q.num := by
      rw [parsed, readNumber, if_pos ⟨hden, by omega⟩]
    have hwrap : Host.wrap 64 q.num = q.num := by
      unfold Host.wrap
      omega
    rw [hread]
    simp [isIntInRange, Host.Json.isInteger, Host.Json.int64?, hwrap, hl, hh]
  | _ => cases h

theorem isBoolean_of_boolean {j : Json} (h : Check.boolean j = true) : (parsed other j).isBoolean = true := by
  cases j with
  | bool b => rfl
  | _ => cases h

end checks

/-! ## What passes the schemas -/

theorem toJson_record (v : JsValue) : v.record.toJson = v.toJson.record := by
  cases v with
  | obj members =>
    simp only [JsValue.record, JsValue.toJson, Json.record, membersToJson_eq, List.filter_map]
    rfl
  | _ => rfl

theorem toJson_data (v : JsValue) : v.data.toJson = v.toJson.data := by
  cases v with
  | obj members =>
    simp only [JsValue.data, JsValue.toJson, Json.data, membersToJson_eq, List.map_map]
    congr 2
    funext m
    simp only [Function.comp]
    split
    · rw [toJson_record]
    · rfl
  | _ => rfl

theorem required_iff {p : Check} {o : Option Json} : Check.required p o = true ↔ ∃ j, o = some j ∧ p j = true := by
  cases o <;> simp [Check.required]

theorem optional_iff {p : Check} {o : Option Json} : Check.optional p o = true ↔ ∀ j, o = some j → p j = true := by
  cases o <;> simp [Check.optional]

theorem str_of_string {low high : Nat} {j : Json} (h : Check.string low high j = true) :
    ∃ s, j = .str s ∧ low ≤ utf16Length s := by
  cases j with
  | str s =>
    simp only [Check.string, Bool.and_eq_true, decide_eq_true_eq] at h
    exact ⟨s, rfl, h.1⟩
  | _ => cases h

theorem obj_of_record {j : Json} (h : Check.record j = true) : ∃ members, j = .obj members := by
  cases j with
  | obj members => exact ⟨members, rfl⟩
  | _ => cases h

theorem str_of_enum {values : List String} {j : Json} (h : Check.enum values j = true) : ∃ s ∈ values, j = .str s := by
  cases j with
  | str s => exact ⟨s, List.contains_iff_mem.1 h, rfl⟩
  | _ => cases h

section messages
open Host.SignalingSchema

variable {members : List (String × Json)}

theorem field?_forwarded (key : String) : (parsed other (Json.data (.obj members))).field? key =
    (members.lookup key).map fun j => parsed other (if key = "payload" then j.record else j) := by
  rw [Json.data, field?_parsed, lookup_map (fun (k : String) (j : Json) => if k = "payload" then j.record else j), Option.map_map]
  rfl

theorem field?_forwarded_of_ne {key : String} (h : key ≠ "payload") :
    (parsed other (Json.data (.obj members))).field? key = (members.lookup key).map (parsed other) := by
  rw [field?_forwarded]
  simp only [h, if_false]

theorem hasOnly_forwarded {fields : List String} (hkeys : ∀ m ∈ members, m.1 ∈ fields)
    (hnodup : (members.map Prod.fst).Nodup) : hasOnly (parsed other (Json.data (.obj members))) fields = true := by
  apply hasOnly_parsed
  · intro m hm
    obtain ⟨n, hn, rfl⟩ := List.mem_map.1 hm
    exact hkeys n hn
  · rwa [List.map_map]

theorem has_sessionId (h : SessionId (members.lookup "sessionId") = true) (hs : (members.lookup "sessionId").isSome) :
    has (parsed other (Json.data (.obj members))) "sessionId" isSessionId = true := by
  obtain ⟨j, hj⟩ := Option.isSome_iff_exists.1 hs
  rw [has, field?_forwarded_of_ne (by decide), hj]
  exact isSessionId_of_uuid (optional_iff.1 h j hj)

theorem hasOptional_sessionId (h : SessionId (members.lookup "sessionId") = true) :
    hasOptional (parsed other (Json.data (.obj members))) "sessionId" isSessionId = true := by
  rw [hasOptional, field?_forwarded_of_ne (by decide)]
  cases hj : members.lookup "sessionId" with
  | none => rfl
  | some j => exact isSessionId_of_uuid (optional_iff.1 h j hj)

theorem has_int {key : String} {low high : Int} (hkey : key ≠ "payload")
    (h : Check.required (Check.int low high) (members.lookup key) = true) (hlow : -(2 ^ 53) ≤ low) (hhigh : high ≤ 2 ^ 53) :
    has (parsed other (Json.data (.obj members))) key (isIntInRange · low high) = true := by
  obtain ⟨j, hj, hint⟩ := required_iff.1 h
  rw [has, field?_forwarded_of_ne hkey, hj]
  exact isIntInRange_of_int hint hlow hhigh

/-- A text that is not empty is in the host's limit exactly when its bytes are. -/
theorem has_text {key : String} {high limit : Nat} (hkey : key ≠ "payload")
    (h : Check.required (Check.string 1 high) (members.lookup key) = true) :
    has (parsed other (Json.data (.obj members))) key (isNonemptyText limit) = true ↔
      ∀ s, members.lookup key = some (.str s) → s.utf8ByteSize ≤ limit := by
  obtain ⟨j, hj, hstring⟩ := required_iff.1 h
  obtain ⟨s, rfl, hs⟩ := str_of_string hstring
  have hne : s ≠ "" := by
    rintro rfl
    exact absurd hs (by decide)
  rw [has, field?_forwarded_of_ne hkey, hj]
  simp [parsed, isNonemptyText, Host.Json.str?, hne]

theorem offerShape_iff (h : OfferSchema (.obj members) = true) (hs : (members.lookup "sessionId").isSome)
    (hnodup : (members.map Prod.fst).Nodup) : offerShape (parsed other (Json.data (.obj members))) = true ↔
      ∀ s, members.lookup "sdp" = some (.str s) → s.utf8ByteSize ≤ 256 * 1024 := by
  obtain ⟨_, ⟨rfl⟩, hkeys, hfields⟩ := (strict_iff _ _).1 h
  have hsession := hfields ("sessionId", SessionId) (by simp)
  have hsdp := hfields ("sdp", Check.required (Check.string 1 (256 * 1024))) (by simp)
  have honly : hasOnly (parsed other (Json.data (.obj members))) ["type", "sessionId", "sdp"] = true :=
    hasOnly_forwarded hkeys hnodup
  rw [offerShape, honly, has_sessionId hsession hs, Bool.true_and, Bool.true_and]
  exact has_text (by decide) hsdp

theorem candidateShape_iff (h : CandidateSchema (.obj members) = true) (hs : (members.lookup "sessionId").isSome)
    (hnodup : (members.map Prod.fst).Nodup) : candidateShape (parsed other (Json.data (.obj members))) = true ↔
      (∀ s, members.lookup "candidate" = some (.str s) → s.utf8ByteSize ≤ 4096) ∧
        ∀ s, members.lookup "sdpMid" = some (.str s) → s.utf8ByteSize ≤ 64 := by
  obtain ⟨_, ⟨rfl⟩, hkeys, hfields⟩ := (strict_iff _ _).1 h
  have hsession := hfields ("sessionId", SessionId) (by simp)
  have hcandidate := hfields ("candidate", Check.required (Check.string 1 4096)) (by simp)
  have hmid := hfields ("sdpMid", Check.optional (Check.string 0 64)) (by simp)
  have hindex := hfields ("sdpMLineIndex", Check.optional (Check.int 0 64)) (by simp)
  have hmid' : hasOptional (parsed other (Json.data (.obj members))) "sdpMid" (isText 64) = true ↔
      ∀ s, members.lookup "sdpMid" = some (.str s) → s.utf8ByteSize ≤ 64 := by
    rw [hasOptional, field?_forwarded_of_ne (by decide)]
    cases hm : members.lookup "sdpMid" with
    | none => simp
    | some j =>
      obtain ⟨s, rfl, -⟩ := str_of_string (optional_iff.1 hmid j hm)
      simp [parsed, isText, Host.Json.str?]
  have hindex' : hasOptional (parsed other (Json.data (.obj members))) "sdpMLineIndex" (isIntInRange · 0 64) = true := by
    rw [hasOptional, field?_forwarded_of_ne (by decide)]
    cases hm : members.lookup "sdpMLineIndex" with
    | none => rfl
    | some j => exact isIntInRange_of_int (optional_iff.1 hindex j hm) (by decide) (by decide)
  have honly : hasOnly (parsed other (Json.data (.obj members)))
      ["type", "sessionId", "candidate", "sdpMid", "sdpMLineIndex"] = true := hasOnly_forwarded hkeys hnodup
  rw [candidateShape, honly, has_sessionId hsession hs, hindex', Bool.true_and, Bool.true_and, Bool.and_true,
    Bool.and_eq_true, has_text (by decide) hcandidate, hmid']

theorem profileShape_of_schema (other : ℚ → Host.Json) (h : ProfileSchema (.obj members) = true) (hs : (members.lookup "sessionId").isSome)
    (hnodup : (members.map Prod.fst).Nodup)
    (hcaps : ∀ caps, members.lookup "capabilities" = some (.obj caps) → (caps.map Prod.fst).Nodup) :
    profileShape (parsed other (Json.data (.obj members))) = true ∧
      has (parsed other (Json.data (.obj members))) "capabilities" capabilitiesShape = true := by
  obtain ⟨_, ⟨rfl⟩, hkeys, hfields⟩ := (strict_iff _ _).1 h
  simp only [List.forall_mem_cons, List.not_mem_nil, false_implies, implies_true, and_true] at hfields
  obtain ⟨-, hsession, hwidth, hheight, hfps, hbitrate, hcapabilities⟩ := hfields
  obtain ⟨j, hj, hstrict⟩ := required_iff.1 hcapabilities
  obtain ⟨caps, rfl, hckeys, hcfields⟩ := (strict_iff _ _).1 hstrict
  simp only [List.forall_mem_cons, List.not_mem_nil, false_implies, implies_true, and_true] at hcfields
  obtain ⟨hmaxWidth, hmaxHeight, hmaxFps, hmaxBitrate, hh264⟩ := hcfields
  have hfield : (parsed other (Json.data (.obj members))).field? "capabilities" = some (parsed other (.obj caps)) := by
    rw [field?_forwarded_of_ne (by decide), hj]
    rfl
  have hint : ∀ {key : String} {low high : Int}, Check.required (Check.int low high) (caps.lookup key) = true →
      -(2 ^ 53) ≤ low → high ≤ 2 ^ 53 → has (parsed other (.obj caps)) key (isIntInRange · low high) = true := by
    intro key low high hc hlow hhigh
    obtain ⟨i, hi, hint⟩ := required_iff.1 hc
    rw [has, field?_parsed, hi]
    exact isIntInRange_of_int hint hlow hhigh
  constructor
  · have honly : hasOnly (parsed other (Json.data (.obj members)))
        ["type", "sessionId", "width", "height", "fps", "bitrate", "capabilities"] = true := hasOnly_forwarded hkeys hnodup
    rw [profileShape, honly, has_sessionId hsession hs, has_int (by decide) hwidth (by decide) (by decide),
      has_int (by decide) hheight (by decide) (by decide), has_int (by decide) hfps (by decide) (by decide),
      has_int (by decide) hbitrate (by decide) (by decide), has, hfield]
    rfl
  · have honly : hasOnly (parsed other (.obj caps)) ["maxWidth", "maxHeight", "maxFps", "maxBitrate", "h264"] = true :=
      hasOnly_parsed hckeys (hcaps caps hj)
    have hbool : has (parsed other (.obj caps)) "h264" Host.Json.isBoolean = true := by
      obtain ⟨b, hb, hbool⟩ := required_iff.1 hh264
      rw [has, field?_parsed, hb]
      exact isBoolean_of_boolean hbool
    rw [has, hfield, Option.any_some, capabilitiesShape, honly, hint hmaxWidth (by decide) (by decide),
      hint hmaxHeight (by decide) (by decide), hint hmaxFps (by decide) (by decide),
      hint hmaxBitrate (by decide) (by decide), hbool]
    rfl

theorem controlShape_iff (other : ℚ → Host.Json) (h : ControlSchema (.obj members) = true)
    (hnodup : (members.map Prod.fst).Nodup) :
    (controlShape (parsed other (Json.data (.obj members))) = true ↔
      ∀ payload, members.lookup "payload" = some (.obj payload) →
        (payload.filter fun m => m.1 ≠ "__proto__").length ≤ 16) ∧
      has (parsed other (Json.data (.obj members))) "action" (·.str?.any (· ∈ actions)) = true := by
  obtain ⟨_, ⟨rfl⟩, hkeys, hfields⟩ := (strict_iff _ _).1 h
  simp only [List.forall_mem_cons, List.not_mem_nil, false_implies, implies_true, and_true] at hfields
  obtain ⟨-, hsession, haction, hpayload⟩ := hfields
  obtain ⟨j, hj, henum⟩ := required_iff.1 haction
  obtain ⟨action, hmem, rfl⟩ := str_of_enum henum
  have hfield : (parsed other (Json.data (.obj members))).field? "action" = some (.str action) := by
    rw [field?_forwarded_of_ne (by decide), hj]
    rfl
  have honly : hasOnly (parsed other (Json.data (.obj members))) ["type", "sessionId", "action", "payload"] = true :=
    hasOnly_forwarded hkeys hnodup
  have htext : has (parsed other (Json.data (.obj members))) "action" (isText 64) = true := by
    rw [has, hfield]
    have hshort : ∀ a ∈ actions, isText 64 (.str a) = true := by decide
    exact hshort action hmem
  constructor
  · rw [controlShape, honly, htext, hasOptional_sessionId hsession, Bool.true_and, Bool.true_and, Bool.true_and,
      hasOptional, field?_forwarded]
    cases hp : members.lookup "payload" with
    | none => simp
    | some j =>
      obtain ⟨payload, rfl⟩ := obj_of_record (optional_iff.1 hpayload j hp)
      simp [Json.record, parsed, parsedMembers_eq, Host.Json.isObject, Host.Json.size]
  · rw [has, hfield]
    exact decide_eq_true hmem

theorem disconnectShape_of_schema (h : InternalDisconnectSchema (.obj members) = true)
    (hnodup : (members.map Prod.fst).Nodup) : disconnectShape (parsed other (Json.data (.obj members))) = true := by
  obtain ⟨_, ⟨rfl⟩, hkeys, hfields⟩ := (strict_iff _ _).1 h
  have hsession := hfields ("sessionId", SessionId) (by simp)
  have honly : hasOnly (parsed other (Json.data (.obj members))) ["type", "sessionId"] = true :=
    hasOnly_forwarded hkeys hnodup
  rw [disconnectShape, honly, hasOptional_sessionId hsession]
  rfl

theorem absent {fields : List (String × (Option Json → Bool))} (h : Check.strict fields (.obj members) = true)
    {key : String} (hkey : key ∉ fields.map Prod.fst) : members.lookup key = none := by
  obtain ⟨_, ⟨rfl⟩, hkeys, -⟩ := (strict_iff _ _).1 h
  rw [List.lookup_eq_none_iff]
  intro m hm
  rw [bne_iff_ne]
  rintro rfl
  exact hkey (hkeys m hm)

theorem inLimits_iff : (Json.obj members).InLimits ↔
    (∀ s, members.lookup "sdp" = some (.str s) → s.utf8ByteSize ≤ 256 * 1024) ∧
    ((∀ s, members.lookup "candidate" = some (.str s) → s.utf8ByteSize ≤ 4096) ∧
      ∀ s, members.lookup "sdpMid" = some (.str s) → s.utf8ByteSize ≤ 64) ∧
    ∀ payload, members.lookup "payload" = some (.obj payload) →
      (payload.filter fun m => m.1 ≠ "__proto__").length ≤ 16 := by
  have hdata : (Json.obj members).data.field? "payload" = (members.lookup "payload").map Json.record := by
    rw [Json.data, Json.field?, lookup_map (fun (k : String) (j : Json) => if k = "payload" then j.record else j)]
    rfl
  constructor
  · intro h
    refine ⟨h.sdp, ⟨h.candidate, h.sdpMid⟩, fun payload hp => h.payload _ ?_⟩
    rw [hdata, hp]
    rfl
  · rintro ⟨hsdp, ⟨hcandidate, hmid⟩, hpayload⟩
    refine ⟨hsdp, hcandidate, hmid, fun record hp => ?_⟩
    rw [hdata, Option.map_eq_some_iff] at hp
    obtain ⟨j, hj, hrecord⟩ := hp
    cases j with
    | obj payload =>
      cases hrecord
      exact hpayload payload hj
    | _ => cases hrecord

theorem messageType_forwarded {type : String} (ht : members.lookup "type" = some (.str type)) :
    messageType? (parsed other (Json.data (.obj members))) = some type := by
  rw [messageType?, field?_forwarded_of_ne (by decide), ht]
  rfl

theorem pure_iff {p : Prop} [Decidable p] {e : String} :
    (if p then pure () else throw e : Except String Unit) = .ok () ↔ p := by
  by_cases hp : p
  · simp only [hp, if_true, iff_true]
    rfl
  · simp only [hp, if_false, iff_false]
    intro h
    cases h

/-- The host accepts what is forwarded of a message exactly when it is within the host's limits. -/
theorem validate_iff (hnodup : (members.map Prod.fst).Nodup)
    (hcaps : ∀ caps, members.lookup "capabilities" = some (.obj caps) → (caps.map Prod.fst).Nodup)
    (h : SignalingMessageSchema (.obj members) = true) (hallowed : messageAllowedForRole .player (.obj members) = true)
    (hs : (members.lookup "sessionId").isSome) :
    validate (parsed other (Json.data (.obj members))) = .ok () ↔ (Json.obj members).InLimits := by
  have hof : ∀ {type : String}, ((Json.obj members).field? "type").bind Json.str? = some type →
      members.lookup "type" = some (.str type) := by
    intro type ht
    obtain ⟨j, hj, hstr⟩ := Option.bind_eq_some_iff.1 ht
    cases j with
    | str s =>
      obtain rfl := Option.some.inj hstr
      exact hj
    | _ => cases hstr
  rw [inLimits_iff]
  unfold SignalingMessageSchema at h
  split at h
  case h_1 htype =>
    have hnone : ∀ key, key ∉ ["type", "sessionId", "sdp"] → members.lookup key = none := fun _ hkey => absent h hkey
    simp only [validate, messageType_forwarded (hof htype)]
    rw [pure_iff, offerShape_iff h hs hnodup, hnone "candidate" (by decide), hnone "sdpMid" (by decide),
      hnone "payload" (by decide)]
    simp
  case h_2 htype =>
    -- an answer is not for a player to send
    simp [messageAllowedForRole, htype] at hallowed
  case h_3 htype =>
    have hnone : ∀ key, key ∉ ["type", "sessionId", "candidate", "sdpMid", "sdpMLineIndex"] → members.lookup key = none :=
      fun _ hkey => absent h hkey
    simp only [validate, messageType_forwarded (hof htype)]
    rw [pure_iff, candidateShape_iff h hs hnodup, hnone "sdp" (by decide), hnone "payload" (by decide)]
    simp
  case h_4 htype =>
    have hnone : ∀ key, key ∉ ["type", "sessionId", "action", "payload"] → members.lookup key = none :=
      fun _ hkey => absent h hkey
    obtain ⟨hshape, haction⟩ := controlShape_iff other h hnodup
    rw [hnone "sdp" (by decide), hnone "candidate" (by decide), hnone "sdpMid" (by decide)]
    simp only [validate, messageType_forwarded (hof htype), haction, reduceCtorEq, false_implies, implies_true, true_and]
    rw [← hshape]
    by_cases hcontrol : controlShape (parsed other (Json.data (.obj members))) = true
    · rw [if_pos hcontrol]
      exact ⟨fun _ => hcontrol, fun _ => rfl⟩
    · rw [if_neg hcontrol]
      exact ⟨fun hok => (by cases hok), fun hok => absurd hok hcontrol⟩
  case h_5 htype =>
    have hnone : ∀ key, key ∉ ["type", "sessionId", "width", "height", "fps", "bitrate", "capabilities"] →
        members.lookup key = none := fun _ hkey => absent h hkey
    obtain ⟨hshape, hcapabilities⟩ := profileShape_of_schema other h hs hnodup hcaps
    simp only [validate, messageType_forwarded (hof htype), hshape, hcapabilities]
    rw [hnone "sdp" (by decide), hnone "candidate" (by decide), hnone "sdpMid" (by decide), hnone "payload" (by decide)]
    simp only [reduceCtorEq, false_implies, implies_true, and_true, iff_true]
    rfl
  case h_6 => cases h

theorem validate_disconnected (other : ℚ → Host.Json) (hnodup : (members.map Prod.fst).Nodup)
    (h : InternalDisconnectSchema (.obj members) = true) (ht : members.lookup "type" = some (.str "peer-disconnected")) :
    validate (parsed other (Json.data (.obj members))) = .ok () ∧ (Json.obj members).InLimits := by
  have hnone : ∀ key, key ∉ ["type", "sessionId"] → members.lookup key = none := fun _ hkey => absent h hkey
  constructor
  · simp only [validate, messageType_forwarded ht]
    rw [pure_iff]
    exact disconnectShape_of_schema h hnodup
  · rw [inLimits_iff, hnone "sdp" (by decide), hnone "candidate" (by decide), hnone "sdpMid" (by decide),
      hnone "payload" (by decide)]
    simp

end messages

/-! ## Messages -/

theorem scalar_toChar {s : JsString} (h : JsString.isWellFormed s = true) :
    (s.map CodePoint.toChar).map CodePoint.scalar = s := by
  induction s with
  | nil => rfl
  | cons c cs ih =>
    simp only [JsString.isWellFormed, List.all_cons, Bool.and_eq_true] at h
    cases c with
    | scalar c => rw [List.map_cons, List.map_cons, ih h.2, CodePoint.toChar]
    | surrogate u => cases h.1

theorem toWellFormed_injective {s t : JsString} (hs : JsString.isWellFormed s = true) (ht : JsString.isWellFormed t = true)
    (h : toWellFormed s = toWellFormed t) : s = t := by
  rw [← scalar_toChar hs, ← scalar_toChar ht, String.ofList_injective h]

theorem keys_nodup {members : List (JsString × JsValue)} (hnodup : (members.map Prod.fst).Nodup)
    (hw : ∀ m ∈ members, JsString.isWellFormed m.1 = true) : ((JsValue.membersToJson members).map Prod.fst).Nodup := by
  have hkeys : (JsValue.membersToJson members).map Prod.fst = (members.map Prod.fst).map toWellFormed := by
    rw [membersToJson_eq, List.map_map, List.map_map]
    rfl
  rw [hkeys]
  refine List.Nodup.map_on (fun k hk l hl hkl => ?_) hnodup
  obtain ⟨m, hm, rfl⟩ := List.mem_map.1 hk
  obtain ⟨n, hn, rfl⟩ := List.mem_map.1 hl
  exact toWellFormed_injective (hw m hm) (hw n hn) hkl

theorem wellFormed_data {members : List (JsString × JsValue)} (h : (JsValue.obj members).data.isWellFormed = true) :
    ∀ m ∈ members, JsString.isWellFormed m.1 = true ∧ (toWellFormed m.1 ≠ "payload" → m.2.isWellFormed = true) := by
  intro m hm
  have hdata := (membersWellFormed_iff _).1 h _ (List.mem_map_of_mem hm)
  refine ⟨hdata.1, fun hne => ?_⟩
  rw [if_neg hne] at hdata
  exact hdata.2

/-- The keys of the capabilities are as distinct as those of the message. -/
theorem capabilities_nodup {members : List (JsString × JsValue)} (hd : (JsValue.obj members).Distinct)
    (hw : (JsValue.obj members).data.isWellFormed = true) {caps : List (String × Json)}
    (hc : (JsValue.membersToJson members).lookup "capabilities" = some (.obj caps)) : (caps.map Prod.fst).Nodup := by
  obtain ⟨l₁, l₂, heq, -⟩ := List.lookup_eq_some_iff.1 hc
  have hmem : ("capabilities", Json.obj caps) ∈ JsValue.membersToJson members := by simp [heq]
  rw [membersToJson_eq] at hmem
  obtain ⟨⟨key, v⟩, hm, hmv⟩ := List.mem_map.1 hmem
  obtain ⟨hkey, hv⟩ := Prod.mk.inj hmv
  have hwv : v.isWellFormed = true := (wellFormed_data hw _ hm).2 (by rw [hkey]; decide)
  cases hd with
  | obj _ _ hdistinct =>
    have hdv := hdistinct _ hm
    cases v with
    | obj fields =>
      cases hv
      cases hdv with
      | obj _ hnodup _ => exact keys_nodup hnodup fun m hm => ((membersWellFormed_iff fields).1 hwv m hm).1
    | _ => cases hv

theorem disconnect_of_envelope {envelope data : Json} (h : validateRedisEnvelope envelope = true)
    (hdata : envelope.field? "data" = some data) (htype : data.field? "type" = some (.str "peer-disconnected")) :
    InternalDisconnectSchema data = true := by
  obtain ⟨members, rfl, -, hfields⟩ := (strict_iff _ _).1 h
  have hf := hfields ("data", Check.required fun j => SignalingMessageSchema j || InternalDisconnectSchema j) (by simp)
  obtain ⟨j, hj, hunion⟩ := required_iff.1 hf
  obtain rfl : j = data := Option.some.inj (hj.symm.trans hdata)
  have hnot : SignalingMessageSchema j = false := by simp [SignalingMessageSchema, htype, Json.str?]
  rwa [hnot, Bool.false_or] at hunion

/-- **The host understands what is forwarded of a message exactly when the message is within the host's limits too.** -/
theorem understood_iff (other : ℚ → Host.Json) (message : JsValue) (hd : message.Distinct) (h : Forwarded message) :
    Understood other message ↔ Fits message := by
  by_cases hw : message.data.isWellFormed = true
  · have hunderstood : Understood other message ↔
        Host.SignalingSchema.validate (parsed other message.toJson.data) = .ok () := by
      rw [Understood, received, if_pos hw, toJson_data]
      exact ⟨fun ⟨_, hj, hv⟩ => Option.some.inj hj ▸ hv, fun hv => ⟨_, rfl, hv⟩⟩
    have hfits : Fits message ↔ message.toJson.InLimits := ⟨And.right, And.intro hw⟩
    rw [hunderstood, hfits]
    cases message with
    | obj members =>
      have hnodup : ((JsValue.membersToJson members).map Prod.fst).Nodup := by
        cases hd with
        | obj _ hnodup _ => exact keys_nodup hnodup fun m hm => (wellFormed_data hw m hm).1
      cases h with
      | ofPlayer hvalid hallowed hsession =>
        have hschema := (Bool.and_eq_true_iff.1 hvalid).2
        exact validate_iff hnodup (fun caps hc => capabilities_nodup hd hw hc) hschema hallowed hsession
      | disconnected envelope hvalid hdata htype =>
        have hboth := validate_disconnected other hnodup (disconnect_of_envelope hvalid hdata htype) htype
        exact ⟨fun _ => hboth.2, fun _ => hboth.1⟩
    | _ =>
      cases h with
      | ofPlayer _ _ hsession => cases hsession
      | disconnected _ _ _ htype => cases htype
  · constructor
    · rintro ⟨json, hj, -⟩
      rw [received, if_neg hw] at hj
      cases hj
    · exact fun hfits => absurd hfits.1 hw

section candidate

/-- A text of the language as a string of the server. -/
def jsString (s : String) : JsString := s.toList.map .scalar

/-- A candidate of the player's session, in the media section of the given name. -/
def candidateIn (sdpMid : String) : JsValue :=
  .obj [(jsString "type", .str (jsString "candidate")),
    (jsString "sessionId", .str (jsString "00000000-0000-4000-8000-000000000001")),
    (jsString "candidate", .str (jsString "candidate:1 1 udp 2122260223 192.0.2.1 54400 typ host")),
    (jsString "sdpMid", .str (jsString sdpMid))]

theorem candidateIn_distinct (sdpMid : String) : (candidateIn sdpMid).Distinct := by
  have hkeys : [jsString "type", jsString "sessionId", jsString "candidate", jsString "sdpMid"].Nodup := by decide +kernel
  refine .obj _ hkeys fun m hm => ?_
  simp only [List.mem_cons, List.not_mem_nil, or_false] at hm
  obtain rfl | rfl | rfl | rfl := hm <;> exact .str _

theorem candidateIn_forwarded : Forwarded (candidateIn "0") := by
  refine .ofPlayer ?_ ?_ ?_ <;> decide +kernel

/-- The host understands a usual candidate. -/
theorem understood_candidate : Understood .float (candidateIn "0") ↔ Fits (candidateIn "0") :=
  understood_iff .float (candidateIn "0") (candidateIn_distinct "0") candidateIn_forwarded

/-- **A name of 33 letters is within the server's limit and not within the host's**, where each takes two bytes. -/
theorem not_understood : ¬∀ (other : ℚ → Host.Json) (message : JsValue), message.Distinct → Forwarded message →
    Understood other message := by
  intro h
  have hforwarded : Forwarded (candidateIn (String.ofList (List.replicate 33 'é'))) := by
    refine .ofPlayer ?_ ?_ ?_ <;> decide +kernel
  obtain ⟨json, hj, hv⟩ := h .float _ (candidateIn_distinct _) hforwarded
  have hrejected : (received .float (candidateIn (String.ofList (List.replicate 33 'é'))).data).all
      fun json => match Host.SignalingSchema.validate json with
        | .ok _ => false
        | .error _ => true := by
    decide +kernel
  rw [hj, Option.all_some, hv] at hrejected
  cases hrejected

end candidate

end Signaling
end CloudGaming
