import CloudGaming.Host.GameInventory
import CloudGaming.Host.Tick
import CloudGaming.Signaling.Schema
import Mathlib.Data.Bool.AllAny
/-!
# Orchestration — what the server takes of the presence the host builds

The schema of a presence, and the presence the runtime makes of its inventory.  The presence is written as JSON, which the
library does only where all its strings are UTF-8.
-/
namespace CloudGaming
namespace Orchestration

open Async
open Signaling (Json Check utf16Length)
open Host (Bytes HostRuntime InstalledGame)
open Host.Bytes (ascii decode)
open Host.GameInventory (Game Outside loadState)

/-! ## The schema -/

/-- The white space and line terminators that `trim` takes off. -/
def isSpace (c : Char) : Bool :=
  (9 ≤ c.toNat && c.toNat ≤ 13) || (0x2000 ≤ c.toNat && c.toNat ≤ 0x200A) ||
    [32, 0xA0, 0x1680, 0x2028, 0x2029, 0x202F, 0x205F, 0x3000, 0xFEFF].contains c.toNat

def trim (s : String) : String :=
  String.ofList (((s.toList.dropWhile isSpace).reverse.dropWhile isSpace).reverse)

def isDigit (c : Char) : Bool := 48 ≤ c.toNat && c.toNat ≤ 57

/-- `[a-z0-9]`. -/
def isIdStart (c : Char) : Bool := isDigit c || (97 ≤ c.toNat && c.toNat ≤ 122)

/-- `[a-z0-9-]`. -/
def isIdRest (c : Char) : Bool := isIdStart c || c.toNat == 45

/-- `[A-Za-z0-9_-]`. -/
def isRegionChar (c : Char) : Bool := isIdRest c || (65 ≤ c.toNat && c.toNat ≤ 90) || c.toNat == 95

/-- `/^(?:steam:\d{1,10}|manual:[a-z0-9][a-z0-9-]{0,63})$/`. -/
def isGameId (cs : List Char) : Bool :=
  (cs.take 6 = "steam:".toList && (1 ≤ (cs.drop 6).length && (cs.drop 6).length ≤ 10) && (cs.drop 6).all isDigit) ||
    (cs.take 7 = "manual:".toList && (cs.drop 7).head?.any isIdStart && (cs.drop 7).length ≤ 64 &&
      (cs.drop 7).all isIdRest)

namespace Check

/-- `z.string().regex`. -/
def regex (p : List Char → Bool) : Check
  | .str s => p s.toList
  | _ => false

/-- `z.string().trim()`, and what follows it. -/
def trimmed (p : Check) : Check
  | .str s => p (.str (trim s))
  | _ => false

/-- `z.number().min(min).max(max)`. -/
def number (min max : ℚ) : Check
  | .num q => min ≤ q && q ≤ max
  | _ => false

/-- `z.array(p).max(max)`. -/
def array (p : Check) (max : Nat) : Check
  | .arr items => items.length ≤ max && items.all p
  | _ => false

end Check

section schemas
open Check Signaling.Check

def GameId : Check := regex isGameId

def HostStates : Check := enum ["idle", "reserved", "preparing", "ready", "streaming", "cleaning", "failed"]

def GameSchema : Check :=
  strict [("id", required GameId), ("source", required (enum ["steam", "manual"])),
    ("title", required (trimmed (string 1 160))), ("localManifestId", required (string 8 128)),
    ("enabled", optional boolean)]

/-- `/^[A-Za-z0-9_-]{1,32}$/`, trimmed. -/
def Region : Check := trimmed (regex fun cs => 1 ≤ cs.length && cs.length ≤ 32 && cs.all isRegionChar)

def PresenceSchema : Check :=
  strict [("hostId", required uuid), ("state", optional HostStates), ("region", required Region),
    ("games", required (array GameSchema 512)), ("agentVersion", required (trimmed (string 1 32))),
    ("capabilities", optional (strict [("gpu", optional (trimmed (string 0 160))), ("maxWidth", optional (int 640 7680)),
      ("maxHeight", optional (int 480 4320)), ("maxFps", optional (int 30 240))])),
    ("network", optional (strict [("probeRegion", required Region), ("probeRttMs", required (number 0 5000))]))]

end schemas

/-! ## The presence -/

/-- `isValidHostId`. -/
def isValidHostId (value : String) : Bool :=
  value.toList.length = 36 && value.toList.zipIdx.all fun p =>
    if [8, 13, 18, 23].contains p.2 then p.1 = '-' else Signaling.isHex p.1

/-- A runtime whose identity is loaded. -/
structure StartedHost where
  runtime : HostRuntime
  identified : isValidHostId runtime.hostId = true

/-- What `lastRttMs` returns: a time clamped. -/
structure RoundTrip where
  ms : ℚ
  nonneg : 0 ≤ ms
  le : ms ≤ 5000

def CLOUD_GAMING_VERSION : String := "0.1.0"

/-- The strings of a game, as JSON has them. -/
def decodeGame (game : Game) : Option InstalledGame :=
  (decode game.id).bind fun id => (decode game.title).bind fun title =>
    (decode game.localManifestId).map fun localManifestId =>
      ⟨id, game.source.text, title, localManifestId, game.enabled, game.installed⟩

def gameJson (game : String × String × String × String) : Json :=
  .obj [("id", .str game.1), ("source", .str game.2.1), ("title", .str game.2.2.1), ("localManifestId", .str game.2.2.2),
    ("enabled", .bool true)]

def presenceJson (presence : Host.Presence) (rtt : RoundTrip) : Json :=
  .obj [("hostId", .str presence.hostId), ("state", .str presence.state), ("region", .str presence.region),
    ("games", .arr (presence.games.map gameJson)), ("agentVersion", .str CLOUD_GAMING_VERSION),
    ("capabilities", .obj [("maxWidth", .num presence.maxWidth), ("maxHeight", .num presence.maxHeight),
      ("maxFps", .num presence.maxFps)]),
    ("network", .obj [("probeRegion", .str presence.region), ("probeRttMs", .num rtt.ms)])]

/-- The games of the presence. -/
def offered (o : Outside) (s : Host.GameInventory.State) : List Game :=
  (Host.GameInventory.list o s).filter fun game => game.enabled && game.installed

/-- The presence the runtime builds, as it is sent; `none` where the library throws. -/
def marketplacePresence (host : StartedHost) (region : String) (rtt : RoundTrip) (o : Outside)
    (s : Host.GameInventory.State) : Option Json :=
  ((offered o s).mapM decodeGame).map fun games =>
    presenceJson (host.runtime.marketplacePresence region { games := games }) rtt

/-! ## Strings -/

theorem dropWhile_of_all {cs : List Char} {p : Char → Bool} (h : ∀ c ∈ cs, p c = false) : cs.dropWhile p = cs := by
  cases cs with
  | nil => rfl
  | cons c cs => rw [List.dropWhile_cons, h c List.mem_cons_self, if_neg Bool.false_ne_true]

theorem trim_of_all {s : String} (h : ∀ c ∈ s.toList, isSpace c = false) : trim s = s := by
  unfold trim
  rw [dropWhile_of_all h, dropWhile_of_all fun c hc => h c (List.mem_reverse.1 hc), List.reverse_reverse,
    String.ofList_toList]

theorem utf16Length_trim_le (s : String) : utf16Length (trim s) ≤ utf16Length s := by
  have hfront := List.takeWhile_append_dropWhile (p := isSpace) (l := s.toList)
  have hback := List.takeWhile_append_dropWhile (p := isSpace) (l := (s.toList.dropWhile isSpace).reverse)
  have hsplit : s = String.ofList (s.toList.takeWhile isSpace) ++ (trim s ++
      String.ofList (((s.toList.dropWhile isSpace).reverse.takeWhile isSpace).reverse)) := by
    rw [trim, ← String.ofList_append, ← List.reverse_append, hback, List.reverse_reverse, ← String.ofList_append, hfront,
      String.ofList_toList]
  have hsum := congrArg utf16Length hsplit
  rw [Signaling.utf16Length_append, Signaling.utf16Length_append] at hsum
  omega

theorem isSpace_of_region {c : Char} (h : isRegionChar c = true) : isSpace c = false := by
  simp only [isRegionChar, isIdRest, isIdStart, isDigit, Bool.or_eq_true, Bool.and_eq_true, decide_eq_true_eq,
    beq_iff_eq] at h
  simp only [isSpace, Bool.or_eq_false_iff, Bool.and_eq_false_iff, decide_eq_false_iff_not, List.contains_eq_mem,
    List.mem_cons, List.not_mem_nil, or_false]
  omega

theorem isRegionChar_of_id {c : Char} (h : Host.SessionManager.isIdCharacter c = true) : isRegionChar c = true := by
  have halnum : c.isAlphanum = (decide (65 ≤ c.toNat ∧ c.toNat ≤ 90) || (97 ≤ c.toNat && c.toNat ≤ 122) ||
      (48 ≤ c.toNat && c.toNat ≤ 57)) := rfl
  simp only [Host.SessionManager.isIdCharacter, halnum, Bool.or_eq_true, Bool.and_eq_true, decide_eq_true_eq] at h
  simp only [isRegionChar, isIdRest, isIdStart, isDigit, Bool.or_eq_true, Bool.and_eq_true, decide_eq_true_eq,
    beq_iff_eq]
  rcases h with (((⟨h₁, h₂⟩ | ⟨h₁, h₂⟩) | ⟨h₁, h₂⟩) | rfl) | rfl
  · exact .inl (.inr ⟨h₁, h₂⟩)
  · exact .inl (.inl (.inl (.inr ⟨h₁, h₂⟩)))
  · exact .inl (.inl (.inl (.inl ⟨h₁, h₂⟩)))
  · decide
  · decide

theorem toNat_lt_of_region {c : Char} (h : isRegionChar c = true) : c.toNat < 128 := by
  simp only [isRegionChar, isIdRest, isIdStart, isDigit, Bool.or_eq_true, Bool.and_eq_true, decide_eq_true_eq,
    beq_iff_eq] at h
  omega

theorem toNat_lt_of_idRest {c : Char} (h : isIdRest c = true) : c.toNat < 128 :=
  toNat_lt_of_region (by rw [isRegionChar, h]; rfl)

theorem toNat_lt_of_digit {c : Char} (h : isDigit c = true) : c.toNat < 128 :=
  toNat_lt_of_idRest (by rw [isIdRest, isIdStart, h]; rfl)

/-- The characters of a host id, one by one. -/
theorem getElem_of_isValidHostId {value : String} (h : isValidHostId value = true) :
    value.toList.length = 36 ∧ ∀ i (hi : i < value.toList.length), if [8, 13, 18, 23].contains i then value.toList[i] = '-'
      else Signaling.isHex value.toList[i] = true := by
  simp only [isValidHostId, Bool.and_eq_true, decide_eq_true_eq, List.all_eq_true] at h
  refine ⟨h.1, fun i hi => ?_⟩
  have hat := h.2 (value.toList[i], i) (List.mem_zipIdx_iff_getElem?.2 (by simp))
  dsimp only at hat
  split
  · rename_i hc
    rw [if_pos hc] at hat
    simpa using hat
  · rename_i hc
    rw [if_neg hc] at hat
    exact hat

/-- A host id is a UUID of the schema library. -/
theorem isUuid_of_isValidHostId {value : String} (h : isValidHostId value = true) : Signaling.isUuid value = true := by
  obtain ⟨hlength, hat⟩ := getElem_of_isValidHostId h
  unfold Signaling.isUuid
  generalize value.toList = cs at hlength hat
  have hgroup : ∀ k n, k + n ≤ 36 → ((List.range n).all fun i => !(List.contains [8, 13, 18, 23] (k + i))) = true →
      ((cs.drop k).take n).length = n ∧ ((cs.drop k).take n).all Signaling.isHex = true := by
    intro k n hle hno
    refine ⟨by simp; omega, List.all_eq_true.2 fun c hc => ?_⟩
    obtain ⟨i, hi, rfl⟩ := List.mem_iff_getElem.1 hc
    rw [List.length_take, List.length_drop, hlength] at hi
    have hnot := List.all_eq_true.1 hno i (List.mem_range.2 (by omega))
    have hhex := hat (k + i) (by omega)
    rw [if_neg (by simpa using hnot)] at hhex
    simpa using hhex
  have hhyphen : ∀ k, [8, 13, 18, 23].contains k = true → k < 36 → (cs.drop k).head? = some '-' := by
    intro k hk hlt
    have hc := hat k (by omega)
    rw [if_pos hk] at hc
    rw [List.head?_drop, List.getElem?_eq_getElem (by omega), hc]
  have h₀ := hgroup 0 8 (by decide) (by decide)
  have h₁ := hgroup 9 4 (by decide) (by decide)
  have h₂ := hgroup 14 4 (by decide) (by decide)
  have h₃ := hgroup 19 4 (by decide) (by decide)
  have h₄ := hgroup 24 12 (by decide) (by decide)
  rw [List.drop_zero] at h₀
  rw [List.take_of_length_le (by simp; omega)] at h₄
  simp only [Signaling.isGrouped, List.drop_drop, Bool.and_eq_true, decide_eq_true_eq]
  exact ⟨⟨h₀, hhyphen 8 (by decide) (by decide)⟩, ⟨h₁, hhyphen 13 (by decide) (by decide)⟩,
    ⟨h₂, hhyphen 18 (by decide) (by decide)⟩, ⟨h₃, hhyphen 23 (by decide) (by decide)⟩, h₄⟩

/-- The region of a presence, whatever the environment says. -/
theorem region_ok (s : HostRuntime) (region : String) (inventory : Host.Inventory) :
    Region (.str (s.marketplacePresence region inventory).region) = true := by
  have hregion : ∀ value : String, (∀ c ∈ value.toList, isRegionChar c = true) → value.toList ≠ [] →
      value.toList.length ≤ 32 → Region (.str value) = true := by
    intro value hall hne hlength
    have htrim := trim_of_all fun c hc => isSpace_of_region (hall c hc)
    have hpos := List.length_pos_iff.2 hne
    simp only [Region, Check.trimmed, Check.regex, htrim, Bool.and_eq_true, decide_eq_true_eq, List.all_eq_true]
    exact ⟨⟨hpos, hlength⟩, hall⟩
  unfold HostRuntime.marketplacePresence
  dsimp only
  split
  · exact hregion "local" (List.all_eq_true.1 (by decide)) (by decide) (by decide)
  · rename_i hvalid
    simp only [not_or, not_lt, not_not, List.all_eq_true] at hvalid
    obtain ⟨hne, hsize, hall⟩ := hvalid
    refine hregion region (fun c hc => isRegionChar_of_id (hall c hc)) ?_ ?_
    · exact fun hnil => hne (String.toList_eq_nil_iff.1 hnil)
    · have hsmall : ∀ c ∈ region.toList, c.toNat < 65536 := fun c hc =>
        Nat.lt_trans (toNat_lt_of_region (isRegionChar_of_id (hall c hc))) (by decide)
      rw [← Signaling.utf16Length_of_small hsmall]
      exact (Signaling.utf16Length_le_utf8ByteSize region).trans hsize

/-! ## Ids -/

open Host.GameInventory (isIdByte isIdByte_lt)
open Host.Bytes (chars isalnum isdigit)

/-- The classes of bytes and of characters agree. -/
theorem isDigit_ofNat {d : UInt8} (h : d < 128) : isDigit (Char.ofNat d.toNat) = isdigit d := by
  rw [isDigit, Host.Bytes.toNat_ofNat_of_lt (UInt8.lt_iff_toNat_lt.1 h)]
  rfl

theorem isIdStart_ofNat {d : UInt8} (h : d < 128) : isIdStart (Char.ofNat d.toNat) = isalnum d := by
  rw [isIdStart, isDigit_ofNat h, Host.Bytes.toNat_ofNat_of_lt (UInt8.lt_iff_toNat_lt.1 h)]
  rfl

theorem isIdRest_ofNat {d : UInt8} (h : isIdByte d = true) : isIdRest (Char.ofNat d.toNat) = true := by
  have hlt := isIdByte_lt h
  rw [isIdRest, isIdStart_ofNat hlt, Host.Bytes.toNat_ofNat_of_lt (UInt8.lt_iff_toNat_lt.1 hlt), Bool.or_eq_true,
    beq_iff_eq]
  rw [isIdByte, Bool.or_eq_true, beq_iff_eq] at h
  exact h.imp_right fun h => congrArg UInt8.toNat h

/-- A text of ASCII characters with bytes below 128 behind it. -/
theorem decode_append {s : String} {b : Bytes} (hs : ∀ c ∈ s.toList, c.toNat < 128) (hb : ∀ c ∈ b, c < 128) :
    decode (ascii s ++ b) = some (String.ofList (s.toList ++ chars b)) := by
  have hback : chars (ascii s) = s.toList := by
    rw [chars, ascii, List.map_map]
    refine (List.map_congr_left fun c hc => ?_).trans (List.map_id _)
    have hlt : c.toNat % 256 = c.toNat := Nat.mod_eq_of_lt (Nat.lt_trans (hs c hc) (by decide))
    change Char.ofNat (c.toNat % 256) = c
    rw [hlt, Char.ofNat_toNat]
  have hall : ∀ c ∈ ascii s ++ b, c < 128 := by
    intro c hc
    rcases List.mem_append.1 hc with hc | hc
    · obtain ⟨d, hd, rfl⟩ := List.mem_map.1 hc
      have := hs d hd
      rw [UInt8.lt_iff_toNat_lt]
      change d.toNat % 256 < 128
      omega
    · exact hb c hc
  rw [Host.Bytes.decode_of_ascii hall, chars, List.map_append, ← chars, ← chars, hback]

theorem steam_ascii : ∀ d ∈ "steam:".toList, d.toNat < 128 := List.all_iff_forall_prop.1 (by decide)

theorem manual_ascii : ∀ d ∈ "manual:".toList, d.toNat < 128 := List.all_iff_forall_prop.1 (by decide)

/-- **Every manual game has an id the server takes.** -/
theorem decode_manualGameId (title : Bytes) :
    ∃ id, decode (Host.GameInventory.manualGameId title) = some id ∧ isGameId id.toList = true := by
  obtain ⟨c, rest, hid, hc, hrest, hlength⟩ := Host.GameInventory.manualGameId_spec title
  have hcid : isIdByte c = true := by rw [isIdByte, hc, Bool.true_or]
  have hall : ∀ d ∈ c :: rest, isIdByte d = true := by
    intro d hd
    rcases List.mem_cons.1 hd with rfl | hd
    · exact hcid
    · exact hrest d hd
  have hseven : "manual:".toList.length = 7 := by decide
  refine ⟨_, by rw [hid, decode_append manual_ascii fun d hd => isIdByte_lt (hall d hd)], ?_⟩
  rw [String.toList_ofList, isGameId, Bool.or_eq_true]
  right
  rw [List.take_left' hseven, List.drop_left' hseven]
  simp only [Bool.and_eq_true, decide_eq_true_eq, List.all_eq_true]
  refine ⟨⟨⟨trivial, ?_⟩, ?_⟩, fun d hd => ?_⟩
  · exact (isIdStart_ofNat (isIdByte_lt hcid)).trans hc
  · simp only [chars, List.length_map, List.length_cons]
    omega
  · obtain ⟨e, he, rfl⟩ := List.mem_map.1 hd
    exact isIdRest_ofNat (hall e he)

theorem utf16Length_ofList_append {s : String} {b : Bytes} (hs : ∀ c ∈ s.toList, c.toNat < 128) (hb : ∀ c ∈ b, c < 128) :
    utf16Length (String.ofList (s.toList ++ chars b)) = s.toList.length + b.length := by
  rw [Signaling.utf16Length_of_small, String.toList_ofList, List.length_append, chars, List.length_map]
  rw [String.toList_ofList]
  intro c hc
  rcases List.mem_append.1 hc with hc | hc
  · exact Nat.lt_trans (hs c hc) (by decide)
  · obtain ⟨d, hd, rfl⟩ := List.mem_map.1 hc
    have hlt := UInt8.lt_iff_toNat_lt.1 (hb d hd)
    rw [Host.Bytes.toNat_ofNat_of_lt hlt]
    exact Nat.lt_trans hlt (by decide)

theorem decode_localManifestId (bytes : Host.GameInventory.SecureIdBytes) :
    ∃ id, decode (ascii "manual-" ++ (Host.GameInventory.generateRoomId bytes).take 16) = some id ∧ utf16Length id = 23 := by
  obtain ⟨rest, hid, hrest, hlength⟩ := Host.GameInventory.localManifestId_spec bytes
  have hmanual : ∀ d ∈ "manual-".toList, d.toNat < 128 := List.all_iff_forall_prop.1 (by decide)
  have hlt : ∀ d ∈ rest, d < 128 := fun d hd => isIdByte_lt (hrest d hd)
  refine ⟨_, by rw [hid, decode_append hmanual hlt], ?_⟩
  rw [utf16Length_ofList_append hmanual hlt, hlength]
  decide

/-- The id of an app: 2 to 10 digits. -/
def AppId (appId : Bytes) : Prop := 2 ≤ appId.length ∧ appId.length ≤ 10 ∧ ∀ c ∈ appId, isdigit c = true

theorem isdigit_of_isDigit {c : Char} (h : isDigit c = true) : isdigit c.toNat.toUInt8 = true := by
  simp only [isDigit, Bool.and_eq_true, decide_eq_true_eq] at h
  simp only [isdigit, Bool.and_eq_true, decide_eq_true_eq, UInt8.le_iff_toNat_le]
  change 48 ≤ c.toNat % 256 ∧ c.toNat % 256 ≤ 57
  omega

/-- What follows `steam:` in an id the server takes. -/
theorem digits_of_isGameId {id : String} {appId : Bytes} (h : decode (ascii "steam:" ++ appId) = some id)
    (hid : isGameId id.toList = true) : appId.length ≤ 10 ∧ ∀ c ∈ appId, isdigit c = true := by
  simp only [isGameId, Bool.or_eq_true, Bool.and_eq_true, decide_eq_true_eq, List.all_eq_true] at hid
  rcases hid with ⟨⟨htake, hlength⟩, hdigits⟩ | ⟨⟨⟨htake, -⟩, -⟩, hrest⟩
  · have hsplit : id.toList = "steam:".toList ++ id.toList.drop 6 := by rw [← htake, List.take_append_drop]
    generalize id.toList.drop 6 = digits at hsplit hlength hdigits
    have hascii : ∀ c ∈ id.toList, c.toNat < 128 := by
      rw [hsplit]
      exact List.forall_mem_append.2 ⟨steam_ascii, fun c hc => toNat_lt_of_digit (hdigits c hc)⟩
    have hbytes := Host.Bytes.eq_of_decode h hascii
    rw [hsplit, List.map_append, ascii, List.append_cancel_left_eq] at hbytes
    subst hbytes
    refine ⟨by rw [List.length_map]; exact hlength.2, fun c hc => ?_⟩
    obtain ⟨d, hd, rfl⟩ := List.mem_map.1 hc
    exact isdigit_of_isDigit (hdigits d hd)
  · have hsplit : id.toList = "manual:".toList ++ id.toList.drop 7 := by rw [← htake, List.take_append_drop]
    generalize id.toList.drop 7 = rest at hsplit hrest
    have hascii : ∀ c ∈ id.toList, c.toNat < 128 := by
      rw [hsplit]
      exact List.forall_mem_append.2 ⟨manual_ascii, fun c hc => toNat_lt_of_idRest (hrest c hc)⟩
    -- the first bytes differ
    have hbytes := Host.Bytes.eq_of_decode h hascii
    have hsteam : ascii "steam:" = 115 :: ascii "team:" := by decide
    have hmanual : "manual:".toList.map (fun c => c.toNat.toUInt8) = 109 :: ascii "anual:" := by decide
    rw [hsplit, List.map_append, hsteam, hmanual, List.cons_append, List.cons_append, List.cons.injEq] at hbytes
    exact absurd hbytes.1 (by decide)

/-- **The server takes the ids of a game of Steam exactly where its app id has 2 to 10 digits.** -/
theorem steam_ids_iff (appId : Bytes) :
    (∃ id localManifestId, decode (ascii "steam:" ++ appId) = some id ∧ isGameId id.toList = true ∧
      decode (ascii "steam-" ++ appId) = some localManifestId ∧ 8 ≤ utf16Length localManifestId ∧
        utf16Length localManifestId ≤ 128) ↔ AppId appId := by
  have hascii : (∀ c ∈ appId, isdigit c = true) → ∀ c ∈ appId, c < 128 := fun h c hc =>
    isIdByte_lt (by rw [isIdByte, isalnum, h c hc]; rfl)
  have hsteam' : ∀ d ∈ "steam-".toList, d.toNat < 128 := List.all_iff_forall_prop.1 (by decide)
  have hsix : "steam:".toList.length = 6 := by decide
  have hsix' : "steam-".toList.length = 6 := by decide
  constructor
  · rintro ⟨id, localManifestId, hid, hvalid, hlocal, hlow, -⟩
    obtain ⟨hlength, hdigits⟩ := digits_of_isGameId hid hvalid
    rw [decode_append hsteam' (hascii hdigits), Option.some.injEq] at hlocal
    rw [← hlocal, utf16Length_ofList_append hsteam' (hascii hdigits), hsix'] at hlow
    exact ⟨by omega, hlength, hdigits⟩
  · rintro ⟨hlow, hhigh, hdigits⟩
    have hlt := hascii hdigits
    refine ⟨_, _, decode_append steam_ascii hlt, ?_, decode_append hsteam' hlt, ?_, ?_⟩
    · rw [String.toList_ofList, isGameId, Bool.or_eq_true]
      left
      rw [List.take_left' hsix, List.drop_left' hsix]
      simp only [Bool.and_eq_true, decide_eq_true_eq, List.all_eq_true, chars, List.length_map]
      refine ⟨⟨trivial, by omega, hhigh⟩, fun d hd => ?_⟩
      obtain ⟨c, hc, rfl⟩ := List.mem_map.1 hd
      exact (isDigit_ofNat (hlt c hc)).trans (hdigits c hc)
    · rw [utf16Length_ofList_append hsteam' hlt, hsix']
      omega
    · rw [utf16Length_ofList_append hsteam' hlt, hsix']
      omega

/-! ## Titles -/

/-- The title is one the server takes. -/
def Presentable (title : Bytes) : Prop :=
  ∃ text, decode title = some text ∧ 1 ≤ utf16Length (trim text) ∧ utf16Length (trim text) ≤ 160

/-- The title consists of white space. -/
def Blank (title : Bytes) : Prop := ∃ text, decode title = some text ∧ trim text = ""

/-- A title of a manual game is one the server takes, unless it consists of white space. -/
theorem presentable_iff_of_made {item : Host.GameInventory.ManualItem} (h : item.Made) :
    Presentable item.title ↔ ¬Blank item.title := by
  obtain ⟨text, htext⟩ := h.decodes
  have hsize : text.utf8ByteSize = item.title.length := by
    rw [← String.size_toByteArray, Host.Bytes.decode_eq_some_iff.1 htext, List.size_toByteArray]
  have hlength : utf16Length (trim text) ≤ 160 :=
    ((utf16Length_trim_le text).trans (Signaling.utf16Length_le_utf8ByteSize text)).trans (hsize ▸ h.length)
  constructor
  · rintro ⟨text', htext', hlow, -⟩ ⟨text'', htext'', hblank⟩
    rw [htext'] at htext''
    obtain rfl := Option.some.inj htext''
    rw [hblank] at hlow
    exact absurd hlow (by decide)
  · intro hblank
    refine ⟨text, htext, Nat.pos_of_ne_zero fun h0 => hblank ⟨text, htext, ?_⟩, hlength⟩
    exact Signaling.utf16Length_eq_zero_iff.1 h0

/-! ## Acceptance -/

theorem gameSchema_iff (id title localManifestId : String) (source : Host.GameInventory.Source) :
    GameSchema (gameJson (id, source.text, title, localManifestId)) = true ↔
      isGameId id.toList = true ∧ (1 ≤ utf16Length (trim title) ∧ utf16Length (trim title) ≤ 160) ∧
        8 ≤ utf16Length localManifestId ∧ utf16Length localManifestId ≤ 128 := by
  have hsource : Signaling.Check.enum ["steam", "manual"] (.str source.text) = true := by cases source <;> decide
  simp [GameSchema, gameJson, GameId, Signaling.Check.strict, Signaling.Check.required, Signaling.Check.optional,
    Signaling.Check.boolean, Signaling.Check.string, Check.regex, Check.trimmed, List.lookup_cons, hsource]

theorem presenceSchema_iff (host : StartedHost) (region : String) (rtt : RoundTrip) (inventory : Host.Inventory) :
    PresenceSchema (presenceJson (host.runtime.marketplacePresence region inventory) rtt) = true ↔
      (host.runtime.marketplacePresence region inventory).games.length ≤ 512 ∧
        ∀ game ∈ (host.runtime.marketplacePresence region inventory).games, GameSchema (gameJson game) = true := by
  have hhost : Signaling.Check.uuid (.str (host.runtime.marketplacePresence region inventory).hostId) = true :=
    isUuid_of_isValidHostId host.identified
  have hstate : HostStates (.str (host.runtime.marketplacePresence region inventory).state) = true := by
    change HostStates (.str (Host.HostRuntime.presenceState host.runtime.state)) = true
    cases host.runtime.state <;> decide
  have hregion := region_ok host.runtime region inventory
  have hversion : Check.trimmed (Signaling.Check.string 1 32) (.str CLOUD_GAMING_VERSION) = true := by
    have htrim : trim CLOUD_GAMING_VERSION = CLOUD_GAMING_VERSION := trim_of_all (List.all_iff_forall_prop.1 (by decide))
    rw [Check.trimmed, htrim]
    decide
  have hwidth : (host.runtime.marketplacePresence region inventory).maxWidth = 3840 := rfl
  have hheight : (host.runtime.marketplacePresence region inventory).maxHeight = 2160 := rfl
  have hfps : (host.runtime.marketplacePresence region inventory).maxFps = 120 := rfl
  generalize host.runtime.marketplacePresence region inventory = presence at *
  simp [PresenceSchema, presenceJson, Signaling.Check.strict, Signaling.Check.required, Signaling.Check.optional,
    List.lookup_cons, hhost, hstate, hregion, hversion, hwidth, hheight, hfps, Check.array, Check.number, rtt.nonneg,
    rtt.le, Signaling.Check.int]

/-- The server accepts the presence the runtime builds. -/
def accepted (host : StartedHost) (region : String) (rtt : RoundTrip) (o : Outside) (s : Host.GameInventory.State) : Bool :=
  (marketplacePresence host region rtt o s).any PresenceSchema

theorem mapM_eq_some {α β : Type} {f : α → Option β} : ∀ {l : List α} {bs : List β}, l.mapM f = some bs →
    bs.length = l.length ∧ (∀ b ∈ bs, ∃ a ∈ l, f a = some b) ∧ ∀ a ∈ l, ∃ b ∈ bs, f a = some b
  | [], bs, h => by
    obtain rfl := Option.some.inj h
    exact ⟨rfl, (fun _ hb => by cases hb), (fun _ ha => by cases ha)⟩
  | a :: l, bs, h => by
    rw [List.mapM_cons] at h
    obtain ⟨b, hb, h⟩ := Option.bind_eq_some_iff.1 h
    obtain ⟨rest, hrest, h⟩ := Option.bind_eq_some_iff.1 h
    obtain rfl := Option.some.inj h
    obtain ⟨hlength, hback, hforth⟩ := mapM_eq_some hrest
    refine ⟨by rw [List.length_cons, List.length_cons, hlength], fun c hc => ?_, fun c hc => ?_⟩
    · rcases List.mem_cons.1 hc with rfl | hc
      · exact ⟨a, List.mem_cons_self, hb⟩
      · obtain ⟨d, hd, hfd⟩ := hback c hc
        exact ⟨d, List.mem_cons_of_mem a hd, hfd⟩
    · rcases List.mem_cons.1 hc with rfl | hc
      · exact ⟨b, List.mem_cons_self, hb⟩
      · obtain ⟨d, hd, hfd⟩ := hforth c hc
        exact ⟨d, List.mem_cons_of_mem b hd, hfd⟩

theorem exists_mapM {α β : Type} {f : α → Option β} : ∀ {l : List α}, (∀ a ∈ l, ∃ b, f a = some b) →
    ∃ bs, l.mapM f = some bs
  | [], _ => ⟨[], rfl⟩
  | a :: l, h => by
    obtain ⟨b, hb⟩ := h a List.mem_cons_self
    obtain ⟨bs, hbs⟩ := exists_mapM fun c hc => h c (List.mem_cons_of_mem a hc)
    exact ⟨b :: bs, by rw [List.mapM_cons, hb, hbs]; rfl⟩

/-- The server takes the game. -/
def Taken (game : Game) : Prop :=
  (∃ id localManifestId, decode game.id = some id ∧ isGameId id.toList = true ∧
    decode game.localManifestId = some localManifestId ∧ 8 ≤ utf16Length localManifestId ∧
      utf16Length localManifestId ≤ 128) ∧ Presentable game.title

theorem decodeGame_eq_some_iff {game : Game} {decoded : InstalledGame} : decodeGame game = some decoded ↔
    ∃ id title localManifestId, decode game.id = some id ∧ decode game.title = some title ∧
      decode game.localManifestId = some localManifestId ∧
        decoded = ⟨id, game.source.text, title, localManifestId, game.enabled, game.installed⟩ := by
  unfold decodeGame
  simp only [Option.bind_eq_some_iff, Option.map_eq_some_iff]
  constructor
  · rintro ⟨id, hid, title, htitle, localManifestId, hlocal, rfl⟩
    exact ⟨id, title, localManifestId, hid, htitle, hlocal, rfl⟩
  · rintro ⟨id, title, localManifestId, hid, htitle, hlocal, rfl⟩
    exact ⟨id, hid, title, htitle, localManifestId, hlocal, rfl⟩

/-- A game is taken where it is written and passes its schema. -/
theorem taken_iff (game : Game) : Taken game ↔ ∃ decoded, decodeGame game = some decoded ∧
    GameSchema (gameJson (decoded.id, decoded.source, decoded.title, decoded.localManifestId)) = true := by
  constructor
  · rintro ⟨⟨id, localManifestId, hid, hvalid, hlocal, hbounds⟩, title, htitle, htitleBounds⟩
    refine ⟨_, decodeGame_eq_some_iff.2 ⟨id, title, localManifestId, hid, htitle, hlocal, rfl⟩, ?_⟩
    exact (gameSchema_iff id title localManifestId game.source).2 ⟨hvalid, htitleBounds, hbounds⟩
  · rintro ⟨decoded, hdecoded, hschema⟩
    obtain ⟨id, title, localManifestId, hid, htitle, hlocal, rfl⟩ := decodeGame_eq_some_iff.1 hdecoded
    obtain ⟨hvalid, htitleBounds, hbounds⟩ := (gameSchema_iff id title localManifestId game.source).1 hschema
    exact ⟨⟨id, localManifestId, hid, hvalid, hlocal, hbounds⟩, title, htitle, htitleBounds⟩

/-- **The presence is accepted exactly where there are not too many games, and each of them is taken.** -/
theorem accepted_iff_taken (host : StartedHost) (region : String) (rtt : RoundTrip) (o : Outside)
    (s : Host.GameInventory.State) : accepted host region rtt o s = true ↔
      (offered o s).length ≤ 512 ∧ ∀ game ∈ offered o s, Taken game := by
  have hgames : ∀ {games}, (offered o s).mapM decodeGame = some games →
      (host.runtime.marketplacePresence region { games := games }).games =
        games.map fun g => (g.id, g.source, g.title, g.localManifestId) := by
    intro games h
    refine congrArg (List.map _) (List.filter_eq_self.2 fun decoded hdecoded => ?_)
    obtain ⟨game, hgame, heq⟩ := (mapM_eq_some h).2.1 decoded hdecoded
    obtain ⟨id, title, localManifestId, -, -, -, rfl⟩ := decodeGame_eq_some_iff.1 heq
    exact (List.mem_filter.1 hgame).2
  unfold accepted marketplacePresence
  rw [Option.any_map, Option.any_eq_true]
  constructor
  · rintro ⟨games, hmap, hschema⟩
    obtain ⟨hlength, -, hforth⟩ := mapM_eq_some hmap
    rw [presenceSchema_iff, hgames hmap, List.length_map, hlength] at hschema
    refine ⟨hschema.1, fun game hgame => ?_⟩
    obtain ⟨decoded, hdecoded, heq⟩ := hforth game hgame
    exact (taken_iff game).2 ⟨decoded, heq, hschema.2 _ (List.mem_map_of_mem hdecoded)⟩
  · rintro ⟨hcount, htaken⟩
    obtain ⟨games, hmap⟩ := exists_mapM fun game hgame => ((taken_iff game).1 (htaken game hgame)).imp fun _ h => h.1
    obtain ⟨hlength, hback, -⟩ := mapM_eq_some hmap
    refine ⟨games, hmap, ?_⟩
    rw [presenceSchema_iff, hgames hmap, List.length_map, hlength]
    refine ⟨hcount, fun game hgame => ?_⟩
    obtain ⟨decoded, hdecoded, rfl⟩ := List.mem_map.1 hgame
    obtain ⟨source, hsource, heq⟩ := hback decoded hdecoded
    obtain ⟨decoded', heq', hschema⟩ := (taken_iff source).1 (htaken source hsource)
    rw [heq] at heq'
    obtain rfl := Option.some.inj heq'
    exact hschema

/-- What an inventory offers can be published: not too much, no manual game with a blank title, and the games of Steam
with a title and an app id that the server takes. -/
structure Publishable (o : Outside) (s : Host.GameInventory.State) : Prop where
  count : (offered o s).length ≤ 512
  manual : ∀ item ∈ (loadState s).manual, item.id ∈ (loadState s).enabled → o.isRegularFile item.launchTarget = true →
    ¬Blank item.title
  steam : ∀ game ∈ Host.GameInventory.scanSteam [] o.manifests, game.id ∈ (loadState s).enabled →
    AppId game.launchTarget ∧ Presentable game.title

theorem taken_manual_iff {item : Host.GameInventory.ManualItem} (h : item.Made) (o : Outside)
    (s : Host.GameInventory.State) : Taken (item.game o s) ↔ ¬Blank item.title := by
  obtain ⟨id, hid, hvalid⟩ := decode_manualGameId item.title
  obtain ⟨bytes, hlocal⟩ := h.localManifestId
  obtain ⟨localManifestId, hdecode, hlength⟩ := decode_localManifestId bytes
  rw [← presentable_iff_of_made h]
  refine ⟨fun htaken => htaken.2, fun htitle => ⟨⟨id, localManifestId, ?_, hvalid, ?_, by omega, by omega⟩, htitle⟩⟩
  · exact (congrArg decode h.id).trans hid
  · exact (congrArg decode hlocal).trans hdecode

theorem taken_steam_iff {game : Game} {o : Outside} (h : game ∈ Host.GameInventory.scanSteam [] o.manifests)
    (enabled : Bool) : Taken { game with enabled := enabled } ↔ AppId game.launchTarget ∧ Presentable game.title := by
  obtain ⟨hid, hlocal, -⟩ := Host.GameInventory.scanSteam_spec h
  unfold Taken
  dsimp only
  rw [hid, hlocal, steam_ids_iff]

/-- **The presence of an inventory whose manual games are as they were made is accepted exactly where it can be
published.** -/
theorem accepted_iff_publishable (host : StartedHost) (region : String) (rtt : RoundTrip) (o : Outside)
    {s : Host.GameInventory.State} (h : ∀ item ∈ s.manual, item.Made) :
    accepted host region rtt o s = true ↔ Publishable o s := by
  have hmade : ∀ item ∈ (loadState s).manual, item.Made := fun item hitem =>
    h item (Host.GameInventory.mem_manual_of_loadState hitem)
  rw [accepted_iff_taken]
  constructor
  · rintro ⟨hcount, htaken⟩
    refine ⟨hcount, fun item hitem henabled hfile => ?_, fun game hgame henabled => ?_⟩
    · refine (taken_manual_iff (hmade item hitem) o (loadState s)).1 (htaken _ (List.mem_filter.2 ⟨?_, ?_⟩))
      · exact Host.GameInventory.mem_listUnlocked.2 (.inr ⟨item, hitem, rfl⟩)
      · simpa [Host.GameInventory.ManualItem.game] using ⟨henabled, hfile⟩
    · refine (taken_steam_iff hgame ((loadState s).enabled.contains game.id)).1 (htaken _ (List.mem_filter.2 ⟨?_, ?_⟩))
      · exact Host.GameInventory.mem_listUnlocked.2 (.inl ⟨game, hgame, rfl⟩)
      · simpa [(Host.GameInventory.scanSteam_spec hgame).2.2] using henabled
  · rintro ⟨hcount, hmanual, hsteam⟩
    refine ⟨hcount, fun game hgame => ?_⟩
    obtain ⟨hlist, hoffered⟩ := List.mem_filter.1 hgame
    rw [Bool.and_eq_true] at hoffered
    rcases Host.GameInventory.mem_listUnlocked.1 hlist with ⟨found, hfound, rfl⟩ | ⟨item, hitem, rfl⟩
    · exact (taken_steam_iff hfound _).2 (hsteam found hfound (List.contains_iff_mem.1 hoffered.1))
    · exact (taken_manual_iff (hmade item hitem) o (loadState s)).2
        (hmanual item hitem (List.contains_iff_mem.1 hoffered.1) hoffered.2)

/-- **In every run of the inventory, whatever is there: the presence is accepted exactly where it can be published.** -/
theorem published_throughout (calls : List Host.GameInventory.Call) :
    Throughout Host.GameInventory.step (fun s => ∀ (host : StartedHost) (region : String) (rtt : RoundTrip) (o : Outside),
      accepted host region rtt o s = true ↔ Publishable o s) {} calls := by
  have hmade : Throughout Host.GameInventory.step (fun s => ∀ item ∈ s.manual, item.Made) {} calls :=
    Throughout.of_along (fun _ _ _ h _ hs => Host.GameInventory.made_step h hs) (fun _ h => by cases h) along_true
  exact hmade.mono fun s h host region rtt o => accepted_iff_publishable host region rtt o h

/-! ## A blank title -/

section
open Host.GameInventory

def zeroBytes : SecureIdBytes := ⟨List.replicate 16 0, by decide⟩

def notepad : Executable := ⟨true, ascii ".exe", true, ascii "C:/notepad.exe"⟩

/-- A game whose title is a space. -/
def blankItem : ManualItem :=
  ⟨manualGameId (ascii " "), ascii " ", ascii "manual-" ++ (generateRoomId zeroBytes).take 16, notepad.canonical⟩

theorem decode_space : decode (ascii " ") = some " " := Host.Bytes.decode_ascii (List.all_iff_forall_prop.1 (by decide))

theorem made_blankItem : blankItem.Made where
  id := rfl
  decodes := ⟨" ", decode_space⟩
  length := by decide
  localManifestId := ⟨zeroBytes, rfl⟩

theorem dumps_blankItem (enabled : List Bytes) (h : ∀ id ∈ enabled, id = blankItem.id) :
    ({ enabled := enabled, manual := [blankItem] } : State).dumps = true := by
  obtain ⟨id, hid, -⟩ := decode_manualGameId (ascii " ")
  obtain ⟨localManifestId, hlocal, -⟩ := decode_localManifestId zeroBytes
  have htarget : decode notepad.canonical = some "C:/notepad.exe" :=
    Host.Bytes.decode_ascii (List.all_iff_forall_prop.1 (by decide))
  have hid' : (decode blankItem.id).isSome = true := by
    rw [blankItem, hid]
    rfl
  simp only [State.dumps, Bool.and_eq_true, List.all_eq_true, List.mem_singleton, forall_eq]
  refine ⟨fun i hi => by rw [h i hi]; exact hid', ⟨⟨hid', ?_⟩, ?_⟩, ?_⟩
  · rw [blankItem, decode_space]
    rfl
  · rw [blankItem, hlocal]
    rfl
  · rw [blankItem, htarget]
    rfl

/-- A file of one or two hundred bytes is read. -/
theorem loadState_blankItem : loadState { manual := [blankItem] } = { manual := [blankItem] } ∧
    loadState { enabled := [blankItem.id], manual := [blankItem] } =
      { enabled := [blankItem.id], manual := [blankItem] } :=
  ⟨if_pos (by decide +kernel), if_pos (by decide +kernel)⟩

/-- The calls that add the game and enable it. -/
def blankCalls : List Call :=
  [.addManual (ascii " ") notepad zeroBytes none, .setEnabled { isRegularFile := fun _ => true } blankItem.id true none]

theorem after_blankCalls :
    after step {} blankCalls = some { enabled := [blankItem.id], manual := [blankItem] } := by
  have hadd : step {} (.addManual (ascii " ") notepad zeroBytes none) = some { manual := [blankItem] } := by
    have hdumps := dumps_blankItem [] fun _ h => by cases h
    have hvalid : ¬(ascii " " = [] ∨ 160 < (ascii " ").length ∨ !notepad.isAbsolute ∨
        notepad.extension.map Host.Bytes.tolower ≠ ascii ".exe" ∨ !notepad.isRegularFile) := by decide
    have hempty : loadState {} = {} := if_pos (by decide +kernel)
    rw [step, addManual, if_neg hvalid, hempty]
    dsimp only
    rw [if_neg (by simp)]
    exact congrArg Except.toOption (if_pos hdumps)
  have henable : step { manual := [blankItem] }
      (.setEnabled { isRegularFile := fun _ => true } blankItem.id true none) =
        some { enabled := [blankItem.id], manual := [blankItem] } := by
    have hdumps := dumps_blankItem [blankItem.id] fun _ h => List.mem_singleton.1 h
    rw [step, setEnabled, loadState_blankItem.1]
    dsimp only
    rw [if_pos (by simp [listUnlocked, scanSteam])]
    exact congrArg Except.toOption (if_pos hdumps)
  rw [blankCalls, after, hadd, Option.bind_some, after, henable, Option.bind_some, after]

/-- **A presence that is refused**: a game with a blank title is added and enabled. -/
theorem not_published_throughout :
    ¬∀ calls : List Call, Throughout step (fun s => ∀ (host : StartedHost) (region : String) (rtt : RoundTrip) (o : Outside),
      accepted host region rtt o s = true) {} calls := by
  intro h
  have haccepted := (h blankCalls).after after_blankCalls
    ⟨{ hostId := "00000000-0000-4000-8000-000000000000" }, by decide⟩ "local" ⟨20, by decide, by decide⟩
    { isRegularFile := fun _ => true }
  have hmade : ∀ item ∈ [blankItem], item.Made := fun item hitem => List.mem_singleton.1 hitem ▸ made_blankItem
  have hpublishable := (accepted_iff_publishable _ _ _ _ hmade).1 haccepted
  have hmanual := hpublishable.manual
  rw [loadState_blankItem.2] at hmanual
  refine hmanual blankItem List.mem_cons_self List.mem_cons_self rfl ⟨" ", decode_space, ?_⟩
  have hblank : (" ".toList.dropWhile isSpace) = [] := by decide
  rw [trim, hblank]
  rfl

end

end Orchestration
end CloudGaming
