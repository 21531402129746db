import CloudGaming.Host.GameInventory
import CloudGaming.Host.SecretStore
import CloudGaming.Signaling.Tokens
/-!
# Identity — the id of a host

The first start that finds none in the secret store makes one up, stores it and uses it; every later start uses the stored
one or throws.  Between the starts the store may be used for other secrets.
-/
namespace CloudGaming
namespace Host
namespace Identity

open Async (Prog Ending Explained perform perform_explained AllDrawn)
open ConfigStore (Document JsonText)
open Files
open GameInventory (SecureIdBytes hexDigit generateRoomId)
open SecretStore (Relies Noticed secrets)

/-! ## Ids -/

/-- A byte in two digits, as `std::hex` with `setw(2)` and `setfill('0')` writes it. -/
def hexByte (value : UInt8) : Bytes := [hexDigit (value.toNat / 16), hexDigit (value.toNat % 16)]

/-- Version 4, variant 8 to b. -/
def versioned (bytes : List UInt8) : List UInt8 :=
  (bytes.modify 6 fun b => (b &&& 0x0f) ||| 0x40).modify 8 fun b => (b &&& 0x3f) ||| 0x80

/-- The loop of `generateHostId`. -/
def grouped (bytes : List UInt8) : Bytes :=
  bytes.zipIdx.flatMap fun (value, i) => (if i = 4 ∨ i = 6 ∨ i = 8 ∨ i = 10 then [45] else []) ++ hexByte value

def generateHostId (bytes : SecureIdBytes) : Bytes := grouped (versioned bytes.val)

def isxdigit (c : UInt8) : Bool := (48 ≤ c && c ≤ 57) || (65 ≤ c && c ≤ 70) || (97 ≤ c && c ≤ 102)

/-- `isValidHostId` -/
def isValidHostId (value : Bytes) : Bool :=
  value.length = 36 && value[8]? = some 45 && value[13]? = some 45 && value[18]? = some 45 && value[23]? = some 45 &&
    value.zipIdx.all fun (c, index) => index = 8 || index = 13 || index = 18 || index = 23 || isxdigit c

/-! ## The id of this host -/

section
variable (lib : JsonText)

/-- The rest of `loadOrCreateHostId`, where nothing is stored; `none` is a generator that fails. -/
def createHostId : Option SecureIdBytes → Prog sig (Except String Bytes)
  | none => pure (.error "BCryptGenRandom failed")
  | some bytes => do
    match ← SecretStore.set lib "deviceId" (generateHostId bytes) with
    | .error error => pure (.error ("Could not persist the host device identity: " ++ error))
    | .ok _ => pure (.ok (generateHostId bytes))

/-- `loadOrCreateHostId`; an error is what it throws. -/
def loadOrCreateHostId (bytes : Option SecureIdBytes) : Prog sig (Except String Bytes) := do
  match ← SecretStore.get lib "deviceId" with
  | .error error =>
    if error = "" then createHostId lib bytes
    else pure (.error ("Could not read the host device identity: " ++ error))
  | .ok none => createHostId lib bytes
  | .ok (some stored) =>
    if isValidHostId stored then pure (.ok stored)
    else pure (.error "The stored host device identity is invalid; re-enrollment is required")

end

/-! ### What is generated -/

theorem xdigit_hexDigit : ∀ n < 16, isxdigit (hexDigit n) = true := by decide

theorem xdigits (b : UInt8) : isxdigit (hexDigit (b.toNat / 16)) = true ∧ isxdigit (hexDigit (b.toNat % 16)) = true := by
  have hb : b.toNat < 256 := b.toNat_lt
  exact ⟨xdigit_hexDigit _ (by omega), xdigit_hexDigit _ (by omega)⟩

theorem eq_of_length_16 {bytes : List UInt8} (h : bytes.length = 16) :
    bytes = (List.range 16).map fun i => bytes.getD i 0 := by
  refine List.ext_getElem (by simp [h]) fun i hi _ => ?_
  simp [List.getD_eq_getElem?_getD, List.getElem?_eq_getElem hi]

theorem length_versioned (bytes : SecureIdBytes) : (versioned bytes.val).length = 16 := by
  rw [versioned, List.length_modify, List.length_modify, bytes.size]

theorem valid_grouped {bytes : List UInt8} (h : bytes.length = 16) : isValidHostId (grouped bytes) = true := by
  rw [eq_of_length_16 h]
  simp [List.range_succ, grouped, hexByte, isValidHostId, xdigits]

/-- **A generated id is valid.** -/
theorem valid_generateHostId (bytes : SecureIdBytes) : isValidHostId (generateHostId bytes) = true :=
  valid_grouped (length_versioned bytes)

theorem isHex_hexDigit : ∀ n < 16, Signaling.isHex (Char.ofNat (hexDigit n).toNat) = true := by decide

theorem version_byte (b : UInt8) : ((b &&& 0x0f) ||| 0x40).toNat / 16 = 4 := by
  have h : ∀ n < 256, ((n.toUInt8 &&& 0x0f) ||| 0x40).toNat / 16 = 4 := by decide +kernel
  have hb := h b.toNat b.toNat_lt
  rwa [show b.toNat.toUInt8 = b from UInt8.ofNat_toNat] at hb

theorem variant_byte (b : UInt8) : ((b &&& 0x3f) ||| 0x80).toNat / 16 ∈ [8, 9, 10, 11] := by
  have h : ∀ n < 256, ((n.toUInt8 &&& 0x3f) ||| 0x80).toNat / 16 ∈ [8, 9, 10, 11] := by decide +kernel
  have hb := h b.toNat b.toNat_lt
  rwa [show b.toNat.toUInt8 = b from UInt8.ofNat_toNat] at hb

theorem getD_versioned (bytes : SecureIdBytes) : ((versioned bytes.val).getD 6 0).toNat / 16 = 4 ∧
    ((versioned bytes.val).getD 8 0).toNat / 16 ∈ [8, 9, 10, 11] := by
  have h6 : 6 < bytes.val.length := by rw [bytes.size]; omega
  have h8 : 8 < bytes.val.length := by rw [bytes.size]; omega
  constructor
  · simp only [versioned, List.getD_eq_getElem?_getD, List.getElem?_modify, List.getElem?_eq_getElem h6]
    exact version_byte _
  · simp only [versioned, List.getD_eq_getElem?_getD, List.getElem?_modify, List.getElem?_eq_getElem h8]
    exact variant_byte _

theorem isHex_hexByte (b : UInt8) : Signaling.isHex (Char.ofNat (hexDigit (b.toNat / 16)).toNat) = true ∧
    Signaling.isHex (Char.ofNat (hexDigit (b.toNat % 16)).toNat) = true := by
  have hb : b.toNat < 256 := b.toNat_lt
  exact ⟨isHex_hexDigit _ (by omega), isHex_hexDigit _ (by omega)⟩

theorem isVersioned_grouped {bytes : List UInt8} (h : bytes.length = 16) (h6 : (bytes.getD 6 0).toNat / 16 = 4)
    (h8 : (bytes.getD 8 0).toNat / 16 ∈ [8, 9, 10, 11]) :
    Signaling.isVersioned (.ofList (Bytes.chars (grouped bytes))) = true := by
  rw [List.getD_eq_getElem?_getD] at h6 h8
  simp only [List.mem_cons, List.not_mem_nil, or_false] at h8
  rw [eq_of_length_16 h]
  simp [List.range_succ, Signaling.isVersioned, Signaling.isUuid, Signaling.isGrouped, grouped, hexByte, Bytes.chars,
    isHex_hexByte, h6]
  rcases h8 with h8 | h8 | h8 | h8 <;> rw [h8] <;> decide

theorem lt_hexByte (b : UInt8) : ∀ c ∈ hexByte b, c < 128 := by
  have h : ∀ n < 16, hexDigit n < 128 := by decide
  have hb : b.toNat < 256 := b.toNat_lt
  intro c hc
  rcases List.mem_pair.1 hc with rfl | rfl
  · exact h _ (by omega)
  · exact h _ (by omega)

theorem lt_grouped (bytes : List UInt8) : ∀ c ∈ grouped bytes, c < 128 := by
  intro c hc
  obtain ⟨x, -, hx⟩ := List.mem_flatMap.1 hc
  rcases List.mem_append.1 hx with hx | hx
  · split at hx
    · rw [List.mem_singleton.1 hx]
      decide
    · cases hx
  · exact lt_hexByte x.1 c hx

/-- **The signaling server takes every generated id for a UUID**, and every generated room id for a room id. -/
theorem accepted (bytes : SecureIdBytes) :
    (∃ text, Bytes.decode (generateHostId bytes) = some text ∧ Signaling.isVersioned text = true) ∧
      ∃ text, Bytes.decode (generateRoomId bytes) = some text ∧ Signaling.validateRoomId text = true := by
  obtain ⟨h6, h8⟩ := getD_versioned bytes
  have hroom : ∀ c ∈ generateRoomId bytes, c < 128 := fun c hc => by
    obtain ⟨b, -, hb⟩ := List.mem_flatMap.1 hc
    exact lt_hexByte b c hb
  refine ⟨⟨_, Bytes.decode_of_ascii (lt_grouped _), isVersioned_grouped (length_versioned bytes) h6 h8⟩,
    _, Bytes.decode_of_ascii hroom, ?_⟩
  rw [generateRoomId, eq_of_length_16 bytes.size]
  simp [List.range_succ, Signaling.validateRoomId, Bytes.chars, isHex_hexByte]

/-! ## Starts -/

/-- What the host and its tools do with the store: a start, and a call about another secret. -/
inductive Use where
  | start (bytes : Option SecureIdBytes)
  | other (call : SecretStore.Call) (h : call.Leaves "deviceId")

inductive Outcome where
  | id (r : Except String Bytes)
  | other (answer : SecretStore.Answer)

def use (lib : JsonText) : Use → Prog sig Outcome
  | .start bytes => do return .id (← loadOrCreateHostId lib bytes)
  | .other call _ => do return .other (← SecretStore.call lib call)

/-- The id of a host, from the use of its store: nothing changes it once it is there, and what a start returns is it. -/
def HostId (_ : Use) (e : Ending Outcome) (a b : Option Bytes) : Prop :=
  (∀ id, a = some id → b = some id) ∧ ∀ id, e = .returned (.id (.ok id)) → b = some id ∧ isValidHostId id = true

section
variable {lib : JsonText} {sys : System} {held : Document → Prop}

theorem wp_createHostId (hr : Relies lib sys held) {bytes : Option SecureIdBytes} {d : Disk} :
    (createHostId lib bytes).wp (device sys) Noticed
      (fun e d' => ∀ id, e = .returned (.ok id) →
        secrets lib sys d'.file "deviceId" = some id ∧ isValidHostId id = true) d := by
  cases bytes with
  | none => exact fun id he => by cases he
  | some bytes =>
    refine Prog.wp_bind (Prog.wp_mono (fun e d' h => ?_) (SecretStore.wp_set hr "deviceId" (generateHostId bytes) rfl))
    cases e with
    | threw => exact fun id he => by cases he
    | killed => exact fun id he => by cases he
    | returned r =>
      cases r with
      | error error => exact fun id he => by cases he
      | ok u =>
        intro id he
        cases he
        refine ⟨?_, valid_generateHostId bytes⟩
        rcases h.1 with h | h
        · exact absurd rfl h.2
        · rw [h, Function.update_self]

theorem wp_loadOrCreateHostId (hr : Relies lib sys held) {bytes : Option SecureIdBytes} {d : Disk} {a : Option Bytes}
    (hd : secrets lib sys d.file "deviceId" = a) : (loadOrCreateHostId lib bytes).wp (device sys) Noticed
      (fun e d' => (∀ id, a = some id → secrets lib sys d'.file "deviceId" = some id) ∧
        ∀ id, e = .returned (.ok id) → secrets lib sys d'.file "deviceId" = some id ∧ isValidHostId id = true) d := by
  refine Prog.wp_bind (Prog.wp_mono (fun e d' h => ?_) (SecretStore.wp_get hr "deviceId" rfl))
  obtain ⟨hfound, hsame⟩ := h
  have hd' : secrets lib sys d'.file "deviceId" = a := by rw [hsame, hd]
  have hstay : ∀ id, a = some id → secrets lib sys d'.file "deviceId" = some id := fun id ha => hd'.trans ha
  cases e with
  | threw => exact hfound.elim
  | killed => exact ⟨hstay, fun id he => by cases he⟩
  | returned r =>
    cases r with
    | error error =>
      dsimp only
      rw [if_neg hfound]
      exact ⟨hstay, fun id he => by cases he⟩
    | ok found =>
      rw [SecretStore.Finds, hd] at hfound
      cases found with
      | none =>
        refine Prog.wp_mono (fun e d'' h => ⟨fun id ha => ?_, h⟩) (wp_createHostId hr)
        rw [hfound] at ha
        cases ha
      | some stored =>
        dsimp only
        split
        · rename_i hvalid
          refine ⟨hstay, fun id he => ?_⟩
          cases he
          exact ⟨hstay stored hfound, hvalid⟩
        · exact ⟨hstay, fun id he => by cases he⟩

theorem wp_use (hr : Relies lib sys held) (op : Use) (d : Disk) (a : Option Bytes)
    (hd : secrets lib sys d.file "deviceId" = a) : (use lib op).wp (device sys) Noticed
      (fun e d' => ∃ b, HostId op e a b ∧ secrets lib sys d'.file "deviceId" = b) d := by
  cases op with
  | start bytes =>
    refine Prog.wp_map (Prog.wp_mono (fun e d' h => ⟨_, ⟨h.1, fun id he => ?_⟩, rfl⟩) (wp_loadOrCreateHostId hr hd))
    cases e with
    | returned r =>
      cases he
      exact h.2 id rfl
    | threw => cases he
    | killed => cases he
  | other call hleaves =>
    refine Prog.wp_map (Prog.wp_mono (fun e d' h => ⟨_, ⟨fun id ha => ?_, fun id he => ?_⟩, rfl⟩)
      (SecretStore.wp_call hr call d _ rfl))
    · obtain ⟨b, hb, hd'⟩ := h
      rw [hd', SecretStore.Secrets.leaves hleaves hb, hd, ha]
    · cases e <;> cases he

/-- **A host keeps its id.**  In any run of starts and other uses of the store, each with any failures that are noticed and
killed at any point, all ids that starts return are one, it is valid, and it is the one that is stored at the end. -/
theorem host_keeps_id (hr : Relies lib sys held) {calls : List (Use × List Draw)} {d : Disk}
    (hdrawn : AllDrawn (device sys) Noticed (use lib) d calls) :
    (∀ id, secrets lib sys d.file "deviceId" = some id →
      secrets lib sys (perform (device sys) (use lib) d calls).2.file "deviceId" = some id) ∧
    ∀ x ∈ (perform (device sys) (use lib) d calls).1, ∀ id, x.2 = .returned (.id (.ok id)) →
      secrets lib sys (perform (device sys) (use lib) d calls).2.file "deviceId" = some id ∧ isValidHostId id = true := by
  obtain ⟨b, hes, hb⟩ := perform_explained (fun d a => secrets lib sys d.file "deviceId" = a)
    (fun op d a => wp_use hr op d a) rfl hdrawn
  rw [hb]
  refine ⟨fun id hid => ?_, ?_⟩
  · exact hes.keeps (I := fun a => a = some id) (fun _ _ _ _ h => h.1 id) hid
  · refine hes.says (fun x b => ∀ id, x.2 = .returned (.id (.ok id)) → b = some id ∧ isValidHostId id = true)
      (fun _ _ _ _ h => h.2) fun _ _ _ _ x h hx id he => ?_
    exact ⟨h.1 id (hx id he).1, (hx id he).2⟩

def sampleBytes (n : UInt8) : SecureIdBytes := ⟨List.replicate 16 n, List.length_replicate⟩

/-- A start that is killed in the move, two more starts, and a credential between them. -/
def sampleUses : List (Use × List Draw) :=
  [(.start (some (sampleBytes 7)), List.replicate 10 (.goes 5) ++ [.killed 1]),
    (.start (some (sampleBytes 9)), List.replicate 12 (.goes 5)),
    (.other (.set "hostSecret" (Bytes.ascii "secret")) (by decide : "hostSecret" ≠ "deviceId"),
      List.replicate 11 (.goes 5)),
    (.start (some (sampleBytes 11)), List.replicate 12 (.goes 5))]

theorem host_keeps_id_sample :
    (∀ id, secrets ConfigStore.Flat.library SecretStore.sampleSystem none "deviceId" = some id →
      secrets ConfigStore.Flat.library SecretStore.sampleSystem
        (perform (device SecretStore.sampleSystem) (use ConfigStore.Flat.library) ⟨none, none, [], false⟩
          sampleUses).2.file "deviceId" = some id) ∧
    ∀ x ∈ (perform (device SecretStore.sampleSystem) (use ConfigStore.Flat.library) ⟨none, none, [], false⟩ sampleUses).1,
      ∀ id, x.2 = .returned (.id (.ok id)) →
        secrets ConfigStore.Flat.library SecretStore.sampleSystem
          (perform (device SecretStore.sampleSystem) (use ConfigStore.Flat.library) ⟨none, none, [], false⟩
            sampleUses).2.file "deviceId" = some id ∧ isValidHostId id = true :=
  host_keeps_id (d := ⟨none, none, [], false⟩) SecretStore.relies_flat
    (Async.allDrawn_of_draws _ _ _ fun call hcall l hl => SecretStore.noticed_of_goes (by
      revert l
      revert call
      simp [sampleUses]))

end

end Identity
end Host
end CloudGaming
