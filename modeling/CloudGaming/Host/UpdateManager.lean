import CloudGaming.Host.JsonText
import Mathlib.Data.List.Perm.Subperm
/-!
# UpdateManager — which update is offered, and which installer is started

The trust root is compiled in: the feed and the publisher's certificates.  What the network, the cryptography and the
file system answer during a call is `Outside`.  Strings are texts here: every test on a byte in them is one for ASCII.
-/
namespace CloudGaming
namespace Host
namespace UpdateManager

open ConfigStore (JsonText Document)

/-- The compiled constants. -/
structure Build where
  feedUrl : String
  certSha256 : String
  certSha256Next : String
  version : String

inductive Status where
  | disabled
  | upToDate
  | available
  | error
  deriving DecidableEq

structure Result where
  status : Status := .error
  message : String := ""
  version : String := ""
  downloadUrl : String := ""
  sha256 : String := ""
  size : Nat := 0
  deriving DecidableEq

/-! ## What a call meets -/

/-- The components of a URL; the credentials by their lengths. -/
structure Url where
  https : Bool
  host : String
  port : Nat
  userName : Nat
  password : Nat

/-- One round of the read loop: what `WinHttpQueryDataAvailable` says, and what `WinHttpReadData` reads. -/
inductive Read where
  | unavailable
  | available (n : Nat) (data : Option Bytes)

/-- One request.  `status` is `none` where the header cannot be read. -/
structure Exchange where
  session : Bool
  connection : Bool
  response : Bool
  status : Option Nat
  reads : List Read

structure Certificate where
  sha256 : Option Bytes
  trusted : Bool

structure Outside where
  crackUrl : String → Option Url
  exchange : String → Exchange
  /-- The signer of a detached signature that verifies. -/
  signer : Bytes → Bytes → Option Certificate
  windows : Option (List Int)
  hash : Bytes → Option Bytes
  random : Option Bytes
  createDirectories : Bool
  protect : Except String Unit
  writeFile : Bool
  /-- `WinVerifyTrust` on the file with this content. -/
  trust : Bytes → Bool
  authenticodeSigner : Bytes → Option Bytes
  systemDirectory : Bool
  shellExecute : Bool

/-! ## Downloads -/

def readBody (maximumBytes : Nat) : List Read → Bytes → Except String Bytes
  | [], _ => .error "Could not read update data"
  | .unavailable :: _, _ => .error "Could not read update data"
  | .available 0 _ :: _, body => .ok body
  | .available (n + 1) data :: reads, body =>
    if body.length + (n + 1) > maximumBytes then .error "Update response exceeds its size limit"
    else match data with
      | none => .error "Could not read update data"
      | some data => readBody maximumBytes reads (body ++ data.take (n + 1))

def downloadHttps (out : Outside) (url : String) (maximumBytes : Nat) : Except String Bytes :=
  if url = "" then .error "Invalid update URL"
  else match out.crackUrl url with
    | none => .error "The update feed must use HTTPS"
    | some parts =>
      if !parts.https || parts.userName ≠ 0 || parts.password ≠ 0 then .error "The update feed must use HTTPS"
      else
        let exchange := out.exchange url
        if !exchange.session then .error "Could not initialize the update network client"
        else if !exchange.connection then .error "Could not connect to the update server"
        else if !exchange.response then .error "The update download failed"
        else if exchange.status ≠ some 200 then
          .error ("The update server returned HTTP " ++ toString (exchange.status.getD 0))
        else readBody maximumBytes exchange.reads []

theorem length_readBody {maximumBytes : Nat} {reads : List Read} {body data : Bytes} (hbody : body.length ≤ maximumBytes)
    (h : readBody maximumBytes reads body = .ok data) : data.length ≤ maximumBytes := by
  induction reads generalizing body with
  | nil => cases h
  | cons r reads ih =>
    match r with
    | .unavailable => cases h
    | .available 0 _ =>
      cases h
      exact hbody
    | .available (n + 1) got =>
      simp only [readBody] at h
      split at h
      · cases h
      · rename_i hroom
        cases got with
        | none => cases h
        | some got =>
          refine ih ?_ h
          rw [List.length_append]
          have := List.length_take_le (n + 1) got
          omega

/-- What a download that succeeds went through. -/
theorem downloadHttps_ok {out : Outside} {url : String} {maximumBytes : Nat} {data : Bytes}
    (h : downloadHttps out url maximumBytes = .ok data) :
    (∃ parts, out.crackUrl url = some parts ∧ parts.https = true ∧ parts.userName = 0 ∧ parts.password = 0) ∧
      (out.exchange url).status = some 200 ∧ data.length ≤ maximumBytes := by
  unfold downloadHttps at h
  split at h
  · cases h
  · split at h
    · cases h
    · rename_i parts hparts
      split at h
      · cases h
      · rename_i hsafe
        simp only [Bool.or_eq_true, Bool.not_eq_true', decide_eq_true_eq, not_or, Bool.not_eq_false, not_not,
          ne_eq] at hsafe
        dsimp only at h
        split at h
        · cases h
        · split at h
          · cases h
          · split at h
            · cases h
            · split at h
              · cases h
              · rename_i hstatus
                exact ⟨⟨parts, hparts, hsafe.1.1, hsafe.1.2, hsafe.2⟩, not_not.1 hstatus,
                  length_readBody (Nat.zero_le _) h⟩

/-! ## Texts -/

def isDigit (c : Char) : Bool := '0' ≤ c && c ≤ '9'

def isXDigit (c : Char) : Bool := isDigit c || ('A' ≤ c && c ≤ 'F') || ('a' ≤ c && c ≤ 'f')

/-- `std::tolower` in the C locale. -/
def lower (c : Char) : Char := if 'A' ≤ c && c ≤ 'Z' then Char.ofNat (c.toNat + 32) else c

def normalizeHex (value : String) : String :=
  String.ofList ((value.toList.filter fun c => !(c == ':' || c == ' ' || c == '-')).map lower)

def toHex (bytes : Bytes) : String :=
  String.ofList (bytes.flatMap fun b =>
    [Nat.digitChar (b.toNat / 16), Nat.digitChar (b.toNat % 16)])

/-- A token of `ParseVersion`, at most six digits. -/
def number (token : List Char) : Option Int :=
  if token.isEmpty || token.length > 6 || !token.all isDigit then none
  else some (token.foldl (fun n c => 10 * n + (c.toNat - 48 : Nat)) 0)

/-- The tokens that are left to read: only the last one ends the text. -/
def parseTokens : Nat → List Char → Option (List Int)
  | 0, _ => some []
  | i + 1, cs => do
    let rest := cs.dropWhile (· ≠ '.')
    let n ← number (cs.takeWhile (· ≠ '.'))
    if rest.isEmpty ≠ decide (i = 0) then none
    else
      let ns ← parseTokens i rest.tail
      some (n :: ns)

def parseVersion (version : String) : List Int := (parseTokens 3 version.toList).getD [-1, -1, -1]

/-- `d` in the pattern stands for a digit; what is left after it. -/
def matchPattern : List Char → List Char → Option (List Char)
  | [], cs => some cs
  | _ :: _, [] => none
  | p :: ps, c :: cs => if (if p = 'd' then isDigit c else p = c) then matchPattern ps cs else none

/-- `^\d{4}-\d{2}-\d{2}T\d{2}:\d{2}:\d{2}(\.\d+)?Z$` -/
def isPublishedUtc (published : String) : Bool :=
  match matchPattern "dddd-dd-ddTdd:dd:dd".toList published.toList with
  | some ['Z'] => true
  | some ('.' :: c :: cs) => (c :: cs).dropLast ≠ [] && (c :: cs).dropLast.all isDigit && (c :: cs).getLast? == some 'Z'
  | _ => false

def sameHttpsOrigin (out : Outside) (left right : String) : Bool :=
  match out.crackUrl left, out.crackUrl right with
  | some a, some b => a.https && b.https && a.host.toList.map lower == b.host.toList.map lower && a.port == b.port
  | _, _ => false

/-! ## The manifest -/

def Build.publisherPins (b : Build) : List String :=
  ([b.certSha256, b.certSha256Next].map normalizeHex).filter fun pin => pin.utf8ByteSize == 64

def verifyManifest (out : Outside) (pins : List String) (manifest signature : Bytes) : Except String Unit :=
  if pins.isEmpty then .error "A compiled SHA-256 publisher certificate pin is required"
  else match out.signer manifest signature with
    | none => .error "The update manifest signature is invalid"
    | some signer =>
      if signer.trusted && signer.sha256.any (fun hash => hash ≠ [] && pins.contains (toHex hash)) then .ok ()
      else .error "The update manifest signer does not match the configured publisher"

def fetchManifest (b : Build) (out : Outside) : Except String Bytes := do
  let manifest ← downloadHttps out b.feedUrl (256 * 1024)
  let signature ← downloadHttps out (b.feedUrl ++ ".p7s") (256 * 1024)
  verifyManifest out b.publisherPins manifest signature
  return manifest

def expectedFields : List String :=
  ["schemaVersion", "product", "version", "channel", "publishedUtc", "downloadUrl", "size", "sha256", "minimumOs"]

def keys : Json → List String
  | .obj fields => fields.map (·.1)
  | _ => []

def hasShape (document : Json) : Bool :=
  document.isObject && document.size == expectedFields.length && (keys document).all expectedFields.contains

/-- 750 MB. -/
def maximumInstaller : Nat := 750 * 1024 * 1024

/-- What the last test of the manifest asks for. -/
def hasValidFields (b : Build) (out : Outside) (document : Json) (result : Result) (channel published : String)
    (minimumVersion : List Int) : Option Bool := do
  let schemaVersion ← document.valueInt "schemaVersion" 0
  let product ← document.valueStr "product" ""
  let manifestChannel ← document.valueStr "channel" ""
  return schemaVersion = 1 && product = "Cloud Gaming Host" && manifestChannel = channel &&
    sameHttpsOrigin out b.feedUrl result.downloadUrl &&
    result.sha256.utf8ByteSize = 64 && result.sha256.toList.all isXDigit &&
    (parseVersion result.version).headD 0 ≥ 0 && result.size ≠ 0 && result.size ≤ maximumInstaller &&
    isPublishedUtc published && minimumVersion.headD 0 ≥ 0

/-- `value("channel", "stable")`, which throws where the configuration's member is no object. -/
def channelOf (update : Json) : Option String :=
  if update.isObject then update.valueStr "channel" "stable" else none

/-- Copies the members into the result as far as they have their types; the minimum version where nothing throws. -/
def readManifest (b : Build) (out : Outside) (update document : Json) (result : Result) : Result × Option (List Int) :=
  if !hasShape document then (result, none)
  else match (document.field? "version").bind Json.str? with
    | none => (result, none)
    | some version =>
      let result := { result with version }
      match (document.field? "downloadUrl").bind Json.str? with
      | none => (result, none)
      | some downloadUrl =>
        let result := { result with downloadUrl }
        match (document.field? "sha256").bind Json.str? with
        | none => (result, none)
        | some sha256 =>
          let result := { result with sha256 := normalizeHex sha256 }
          match (document.field? "size").bind Json.uint64? with
          | none => (result, none)
          | some size =>
            let result := { result with size }
            let minimum := do
              let channel ← channelOf update
              let published ← (document.field? "publishedUtc").bind Json.str?
              let minimumOs ← (document.field? "minimumOs").bind Json.str?
              let minimumVersion := parseVersion minimumOs
              let valid ← hasValidFields b out document result channel published minimumVersion
              if valid then some minimumVersion else none
            (result, minimum)

def currentWindowsAtLeast (out : Outside) (minimum : List Int) : Bool := out.windows.any fun actual => minimum ≤ actual

def check (b : Build) (lib : JsonText) (out : Outside) (config : Json) : Result :=
  let update := (config.field? "update").getD (.obj [])
  if b.feedUrl = "" then { status := .disabled, message := "Update checking is not configured" }
  else match fetchManifest b out with
    | .error error => { message := error }
    | .ok manifest =>
      match lib.parse manifest with
      | .error _ => { message := "The signed update manifest is malformed" }
      | .ok document =>
        match readManifest b out update document.value {} with
        | (result, none) => { result with message := "The signed update manifest is malformed" }
        | (result, some minimum) =>
          if !currentWindowsAtLeast out minimum then
            { result with status := .error, message := "This update requires a newer Windows version" }
          else if parseVersion result.version ≤ parseVersion b.version then
            { result with status := .upToDate, message := "Cloud Gaming Host is up to date" }
          else
            { result with status := .available, message := "Cloud Gaming Host " ++ result.version ++ " is available" }

/-! ## The installer -/

structure Launch where
  file : String
  installer : Bytes

def installerName (version : String) : String := "CloudGamingHost-" ++ version ++ "-x64.msi"

def verifyAuthenticode (out : Outside) (pins : List String) (file : Bytes) : Bool :=
  out.trust file && (out.authenticodeSigner file).any fun signer => signer ≠ [] && pins.contains (toHex signer)

def downloadVerifyAndLaunch (b : Build) (out : Outside) (update : Result) : Except String Launch :=
  if update.status ≠ .available then .error "No verified update is available"
  else if update.size = 0 || update.size > maximumInstaller then .error ""
  else match downloadHttps out update.downloadUrl update.size with
    | .error error => .error error
    | .ok installer =>
      if installer.length ≠ update.size then .error "The downloaded update size does not match"
      else if ((out.hash installer).map toHex).getD "" ≠ normalizeHex update.sha256 then
        .error "The downloaded update hash does not match"
      else if out.random.isNone then .error "Could not create a protected update path"
      else if !out.createDirectories then .error "Could not create the update directory"
      else match out.protect with
        | .error aclError => .error ("Could not protect the update directory: " ++ aclError)
        | .ok () =>
          if !out.writeFile then .error "Could not save the update installer"
          else if !verifyAuthenticode out b.publisherPins installer then
            .error "The installer is not signed by the pinned Cloud Gaming publisher"
          else if !out.systemDirectory then .error "Could not locate Windows Installer"
          else if !out.shellExecute then .error "Could not start Windows Installer"
          else .ok ⟨installerName update.version, installer⟩

/-! ## What is offered -/

/-- A signature of a pinned publisher that Windows trusts goes with the manifest. -/
def Signed (b : Build) (out : Outside) (manifest : Bytes) : Prop :=
  ∃ signature signer hash, downloadHttps out (b.feedUrl ++ ".p7s") (256 * 1024) = .ok signature ∧
    out.signer manifest signature = some signer ∧ signer.trusted = true ∧ signer.sha256 = some hash ∧
    toHex hash ∈ b.publisherPins

/-- The manifest has the nine members and no other, and the result is read from them. -/
structure Names (update document : Json) (r : Result) : Prop where
  only : ∀ key, (document.field? key).isSome ↔ key ∈ expectedFields
  schemaVersion : (document.field? "schemaVersion").bind Json.int32? = some 1
  product : document.field? "product" = some (.str "Cloud Gaming Host")
  channel : ∃ channel, channelOf update = some channel ∧ document.field? "channel" = some (.str channel)
  version : document.field? "version" = some (.str r.version)
  downloadUrl : document.field? "downloadUrl" = some (.str r.downloadUrl)
  sha256 : ∃ digest, document.field? "sha256" = some (.str digest) ∧ r.sha256 = normalizeHex digest
  size : (document.field? "size").bind Json.uint64? = some r.size

/-- What the members of an offered update satisfy. -/
structure Acceptable (b : Build) (out : Outside) (r : Result) : Prop where
  origin : sameHttpsOrigin out b.feedUrl r.downloadUrl = true
  digest : r.sha256.utf8ByteSize = 64 ∧ r.sha256.toList.all isXDigit = true
  version : (parseVersion r.version).headD 0 ≥ 0
  size : r.size ≠ 0 ∧ r.size ≤ maximumInstaller

/-- **What an available update stands for**: a manifest that a pinned publisher signed names it, and it is newer than the
build. -/
structure Offered (b : Build) (lib : JsonText) (out : Outside) (config : Json) (r : Result) : Prop where
  manifest : ∃ manifest document, downloadHttps out b.feedUrl (256 * 1024) = .ok manifest ∧ Signed b out manifest ∧
    lib.parse manifest = .ok document ∧ Names ((config.field? "update").getD (.obj [])) document.value r
  acceptable : Acceptable b out r
  newer : parseVersion b.version < parseVersion r.version

theorem str_of_bind {v : Option Json} {s : String} (h : v.bind Json.str? = some s) : v = some (.str s) := by
  obtain ⟨j, rfl, hj⟩ := Option.bind_eq_some_iff.1 h
  cases j <;> first | (cases hj; rfl) | cases hj

theorem verifyManifest_ok {b : Build} {out : Outside} {manifest signature : Bytes}
    (h : verifyManifest out b.publisherPins manifest signature = .ok ()) :
    ∃ signer hash, out.signer manifest signature = some signer ∧ signer.trusted = true ∧ signer.sha256 = some hash ∧
      toHex hash ∈ b.publisherPins := by
  unfold verifyManifest at h
  split at h
  · cases h
  · split at h
    · cases h
    · rename_i signer hsigner
      split at h
      · rename_i hpinned
        rw [Bool.and_eq_true, Option.any_eq_true] at hpinned
        obtain ⟨htrusted, hash, hhash, hin⟩ := hpinned
        rw [Bool.and_eq_true, List.contains_iff_mem] at hin
        exact ⟨signer, hash, hsigner, htrusted, hhash, hin.2⟩
      · cases h

theorem fetchManifest_ok {b : Build} {out : Outside} {manifest : Bytes} (h : fetchManifest b out = .ok manifest) :
    downloadHttps out b.feedUrl (256 * 1024) = .ok manifest ∧ Signed b out manifest := by
  unfold fetchManifest at h
  cases hm : downloadHttps out b.feedUrl (256 * 1024) with
  | error e =>
    rw [hm] at h
    cases h
  | ok m =>
    cases hs : downloadHttps out (b.feedUrl ++ ".p7s") (256 * 1024) with
    | error e =>
      rw [hm, hs] at h
      cases h
    | ok signature =>
      rw [hm, hs] at h
      cases hv : verifyManifest out b.publisherPins m signature with
      | error e =>
        simp only [bind, Except.bind, hv] at h
        cases h
      | ok u =>
        simp only [bind, Except.bind, hv, pure, Except.pure] at h
        cases h
        obtain ⟨signer, hash, hsigner⟩ := verifyManifest_ok hv
        exact ⟨rfl, signature, signer, hash, hs, hsigner⟩

theorem isSome_lookup_iff (fields : List (String × Json)) (key : String) :
    ((Json.obj fields).field? key).isSome ↔ key ∈ fields.map (·.1) := by
  rw [Json.field?]
  induction fields with
  | nil => simp
  | cons field fields ih =>
    rw [ConfigStore.lookup_cons, List.map_cons, List.mem_cons, ← ih]
    split
    · rename_i hk
      exact iff_of_true rfl (.inl hk)
    · rename_i hk
      exact (or_iff_right hk).symm

/-- Nine distinct keys among the nine expected ones are all of them. -/
theorem isSome_field_iff {document : Document} (h : hasShape document.value = true) (key : String) :
    (document.value.field? key).isSome ↔ key ∈ expectedFields := by
  unfold hasShape at h
  simp only [Bool.and_eq_true, beq_iff_eq, List.all_eq_true] at h
  obtain ⟨⟨hobj, hsize⟩, hall⟩ := h
  have hordered := document.ordered
  generalize document.value = j at *
  cases hordered with
  | obj hsorted hmembers =>
    rename_i fields
    have hnodup : (fields.map (·.1)).Nodup :=
      List.Pairwise.map _ (fun a b (hab : a.1 < b.1) => ne_of_lt hab) hsorted
    have hsub : (fields.map (·.1)).Subperm expectedFields :=
      List.subperm_of_subset hnodup fun k hk => List.contains_iff_mem.1 (hall k hk)
    have hperm : (fields.map (·.1)).Perm expectedFields := hsub.perm_of_length_le (by
      rw [List.length_map]
      exact hsize.ge)
    rw [isSome_lookup_iff, hperm.mem_iff]
  | _ => cases hobj

/-- A member with a default, where it is there. -/
theorem field?_of_valueStr {document : Json} {key text default : String} (hhas : (document.field? key).isSome)
    (h : document.valueStr key default = some text) : document.field? key = some (.str text) := by
  obtain ⟨v, hv⟩ := Option.isSome_iff_exists.1 hhas
  rw [Json.valueStr, hv] at h
  exact str_of_bind (v := document.field? key) (by rw [hv]; exact h)

theorem hasValidFields_iff {b : Build} {out : Outside} {document : Json} {r : Result} {channel published : String}
    {minimum : List Int} (hhas : ∀ key ∈ expectedFields, (document.field? key).isSome)
    (h : hasValidFields b out document r channel published minimum = some true) :
    (document.field? "schemaVersion").bind Json.int32? = some 1 ∧
      document.field? "product" = some (.str "Cloud Gaming Host") ∧
      document.field? "channel" = some (.str channel) ∧ Acceptable b out r := by
  unfold hasValidFields at h
  simp only [bind, Option.bind_eq_some_iff, pure, Option.some.injEq] at h
  obtain ⟨schemaVersion, hschema, product, hproduct, manifestChannel, hchannel, hall⟩ := h
  simp only [Bool.and_eq_true, decide_eq_true_eq] at hall
  obtain ⟨⟨⟨⟨⟨⟨⟨⟨⟨⟨rfl, rfl⟩, rfl⟩, horigin⟩, hlen⟩, hxdigit⟩, hversion⟩, hpos⟩, hmax⟩, -⟩, -⟩ := hall
  have hdefault (key text default : String) (hkey : key ∈ expectedFields) (hv : document.valueStr key default = some text) :
      document.field? key = some (.str text) :=
    field?_of_valueStr (hhas key hkey) hv
  refine ⟨?_, hdefault _ _ _ (by decide) hproduct, hdefault _ _ _ (by decide) hchannel,
    ⟨horigin, ⟨hlen, hxdigit⟩, hversion, hpos, hmax⟩⟩
  obtain ⟨v, hv⟩ := Option.isSome_iff_exists.1 (hhas "schemaVersion" (by decide))
  rw [Json.valueInt, hv] at hschema
  rw [hv]
  exact hschema

/-- What a manifest that is read to its end names. -/
theorem readManifest_some {b : Build} {out : Outside} {update : Json} {document : Document} {start r : Result}
    {minimum : List Int} (h : readManifest b out update document.value start = (r, some minimum)) :
    Names update document.value r ∧ Acceptable b out r := by
  unfold readManifest at h
  split at h
  · cases h
  · rename_i hshape
    have honly := isSome_field_iff (by simpa using hshape)
    split at h
    · cases h
    · rename_i version hversion
      dsimp only at h
      split at h
      · cases h
      · rename_i downloadUrl hurl
        split at h
        · cases h
        · rename_i sha256 hsha
          split at h
          · cases h
          · rename_i size hsize
            obtain ⟨rfl, hmin⟩ := Prod.mk.inj h
            simp only [bind, Option.bind_eq_some_iff] at hmin
            obtain ⟨channel, hchannel, published, -, minimumOs, -, valid, hvalid, hlast⟩ := hmin
            split at hlast
            · rename_i htrue
              rw [htrue] at hvalid
              obtain ⟨hschema, hproduct, hnamed, hacc⟩ :=
                hasValidFields_iff (fun key hkey => (honly key).2 hkey) hvalid
              exact ⟨⟨honly, hschema, hproduct, ⟨channel, hchannel, hnamed⟩, str_of_bind hversion, str_of_bind hurl,
                ⟨sha256, str_of_bind hsha, rfl⟩, hsize⟩, hacc⟩
            · cases hlast

theorem status_readManifest (b : Build) (out : Outside) (update document : Json) (start : Result) :
    (readManifest b out update document start).1.status = start.status := by
  unfold readManifest
  split
  · rfl
  · split
    · rfl
    · dsimp only
      split
      · rfl
      · split
        · rfl
        · split
          · rfl
          · rfl

/-- **A check that finds an update was given it by a pinned publisher**, and by one manifest. -/
theorem check_available {b : Build} {lib : JsonText} {out : Outside} {config : Json}
    (h : (check b lib out config).status = .available) : Offered b lib out config (check b lib out config) := by
  unfold check at h ⊢
  dsimp only at h ⊢
  split at h
  · cases h
  · rename_i hfeed
    rw [if_neg hfeed]
    split at h
    · cases h
    · rename_i manifest hfetch
      obtain ⟨hdownload, hsigned⟩ := fetchManifest_ok hfetch
      split at h
      · cases h
      · rename_i document hparse
        split at h
        · rename_i r hread
          have hstatus := status_readManifest b out ((config.field? "update").getD (.obj [])) document.value {}
          rw [hread] at hstatus
          cases h.symm.trans hstatus
        · rename_i r minimum hread
          obtain ⟨hnames, hacc⟩ := readManifest_some hread
          split at h
          · cases h
          · rename_i hwindows
            split at h
            · cases h
            · rename_i hnewer
              rw [if_neg hwindows, if_neg hnewer]
              exact ⟨⟨manifest, document, hdownload, hsigned, hparse, hnames.only, hnames.schemaVersion, hnames.product,
                hnames.channel, hnames.version, hnames.downloadUrl, hnames.sha256, hnames.size⟩,
                ⟨hacc.origin, hacc.digest, hacc.version, hacc.size⟩, not_le.1 hnewer⟩

/-- What a started installer went through. -/
theorem downloadVerifyAndLaunch_ok {b : Build} {out : Outside} {update : Result} {launch : Launch}
    (h : downloadVerifyAndLaunch b out update = .ok launch) :
    update.status = .available ∧ downloadHttps out update.downloadUrl update.size = .ok launch.installer ∧
      launch.installer.length = update.size ∧
      ((out.hash launch.installer).map toHex).getD "" = normalizeHex update.sha256 ∧
      (∃ signer, out.trust launch.installer = true ∧ out.authenticodeSigner launch.installer = some signer ∧
        toHex signer ∈ b.publisherPins) ∧ launch.file = installerName update.version := by
  unfold downloadVerifyAndLaunch at h
  split at h
  · cases h
  rename_i hstatus
  split at h
  · cases h
  split at h
  · cases h
  rename_i installer hdownload
  split at h
  · cases h
  rename_i hlength
  split at h
  · cases h
  rename_i hhash
  split at h
  · cases h
  split at h
  · cases h
  split at h
  · cases h
  split at h
  · cases h
  split at h
  · cases h
  rename_i hauth
  split at h
  · cases h
  split at h
  · cases h
  cases h
  rw [verifyAuthenticode, Bool.not_eq_true', Bool.not_eq_false, Bool.and_eq_true, Option.any_eq_true] at hauth
  obtain ⟨htrust, signer, hsigner, hpin⟩ := hauth
  rw [Bool.and_eq_true, List.contains_iff_mem] at hpin
  exact ⟨not_not.1 hstatus, hdownload, not_not.1 hlength, not_not.1 hhash, ⟨signer, htrust, hsigner, hpin.2⟩, rfl⟩

/-! ## What is started -/

theorem lower_lower (c : Char) : lower (lower c) = lower c := by
  unfold lower
  split
  · rename_i hc
    simp only [Bool.and_eq_true, decide_eq_true_eq] at hc
    have hle : 65 ≤ c.toNat ∧ c.toNat ≤ 90 := ⟨UInt32.le_iff_toNat_le.1 hc.1, UInt32.le_iff_toNat_le.1 hc.2⟩
    have hnat : (Char.ofNat (c.toNat + 32)).toNat = c.toNat + 32 := Bytes.toNat_ofNat_of_lt (by omega)
    refine if_neg fun hcontra => ?_
    simp only [Bool.and_eq_true, decide_eq_true_eq] at hcontra
    have hup : (Char.ofNat (c.toNat + 32)).toNat ≤ 90 := UInt32.le_iff_toNat_le.1 hcontra.2
    omega
  · rfl

theorem separator_lower (c : Char) (h : (!(c == ':' || c == ' ' || c == '-')) = true) :
    (!(lower c == ':' || lower c == ' ' || lower c == '-')) = true := by
  unfold lower
  split
  · rename_i hc
    simp only [Bool.and_eq_true, decide_eq_true_eq] at hc
    have hle : 65 ≤ c.toNat ∧ c.toNat ≤ 90 := ⟨UInt32.le_iff_toNat_le.1 hc.1, UInt32.le_iff_toNat_le.1 hc.2⟩
    have hnat : (Char.ofNat (c.toNat + 32)).toNat = c.toNat + 32 := Bytes.toNat_ofNat_of_lt (by omega)
    have hne (d : Char) (hd : d.toNat < 97) : (Char.ofNat (c.toNat + 32) == d) = false := by
      refine beq_eq_false_iff_ne.2 fun heq => ?_
      have := congrArg Char.toNat heq
      omega
    rw [hne ':' (by decide), hne ' ' (by decide), hne '-' (by decide)]
    rfl
  · exact h

theorem normalizeHex_normalizeHex (value : String) : normalizeHex (normalizeHex value) = normalizeHex value := by
  unfold normalizeHex
  rw [String.toList_ofList, List.filter_eq_self.2, List.map_map]
  · exact congrArg String.ofList (List.map_congr_left fun c _ => lower_lower c)
  · intro c hc
    obtain ⟨d, hd, rfl⟩ := List.mem_map.1 hc
    exact separator_lower d (List.mem_filter.1 hd).2

theorem mem_of_parseTokens {i : Nat} {cs : List Char} {ns : List Int} (h : parseTokens i cs = some ns) (hi : 0 < i) :
    ∀ c ∈ cs, isDigit c = true ∨ c = '.' := by
  induction i generalizing cs ns with
  | zero => cases hi
  | succ i ih =>
    simp only [parseTokens, bind, Option.bind_eq_some_iff] at h
    obtain ⟨n, hn, h⟩ := h
    split at h
    · cases h
    · rename_i hlast
      obtain ⟨rest, hrest, -⟩ := Option.bind_eq_some_iff.1 h
      have hdigits : ∀ c ∈ cs.takeWhile (· ≠ '.'), isDigit c = true := by
        unfold number at hn
        split at hn
        · cases hn
        · rename_i hok
          simp only [Bool.or_eq_true, Bool.not_eq_true', not_or, Bool.not_eq_false] at hok
          exact List.all_eq_true.1 hok.2
      intro c hc
      rw [← List.takeWhile_append_dropWhile (p := (· ≠ '.')) (l := cs)] at hc
      rcases List.mem_append.1 hc with hc | hc
      · exact .inl (hdigits c hc)
      · cases hd : cs.dropWhile (· ≠ '.') with
        | nil =>
          rw [hd] at hc
          cases hc
        | cons d ds =>
          rw [hd] at hc hlast hrest
          rcases List.mem_cons.1 hc with rfl | hc
          · have := List.head_dropWhile_not (p := (· ≠ '.')) (l := cs) (by rw [hd]; exact List.cons_ne_nil _ _)
            simp only [hd, List.head_cons] at this
            exact .inr (by simpa using this)
          · refine ih hrest ?_ c hc
            rcases Nat.eq_zero_or_pos i with rfl | hpos
            · simp at hlast
            · exact hpos

/-- A version is digits and dots, so the name of its installer can neither leave the directory nor end the quotes. -/
def isNameChar (c : Char) : Bool := isDigit c || ('A' ≤ c && c ≤ 'Z') || ('a' ≤ c && c ≤ 'z') || c == '-' || c == '.'

theorem isNameChar_installerName {version : String} (h : (parseVersion version).headD 0 ≥ 0) :
    (installerName version).toList.all isNameChar = true := by
  have hversion : ∀ c ∈ version.toList, isDigit c = true ∨ c = '.' := by
    unfold parseVersion at h
    cases hp : parseTokens 3 version.toList with
    | none =>
      rw [hp] at h
      exact absurd h (by decide)
    | some ns => exact mem_of_parseTokens hp (by decide)
  unfold installerName
  rw [String.toList_append, String.toList_append, List.all_append, List.all_append, Bool.and_eq_true, Bool.and_eq_true]
  refine ⟨⟨by decide, List.all_eq_true.2 fun c hc => ?_⟩, by decide⟩
  unfold isNameChar
  rcases hversion c hc with hd | rfl
  · rw [hd]
    rfl
  · rfl

/-- **An installer that may be started**: the one that the signed manifest names by its size and its digest, signed by a
pinned publisher itself. -/
structure Verified (b : Build) (out : Outside) (update : Result) (launch : Launch) : Prop where
  size : launch.installer.length = update.size
  digest : (out.hash launch.installer).map toHex = some update.sha256
  publisher : ∃ signer, out.trust launch.installer = true ∧ out.authenticodeSigner launch.installer = some signer ∧
    toHex signer ∈ b.publisherPins
  https : ∃ parts, out.crackUrl update.downloadUrl = some parts ∧ parts.https = true ∧ parts.userName = 0 ∧
    parts.password = 0
  file : launch.file = installerName update.version ∧ launch.file.toList.all isNameChar = true

theorem verified_of_offered {b : Build} {lib : JsonText} {out out' : Outside} {config : Json} {update : Result}
    {launch : Launch} (ho : Offered b lib out config update) (h : downloadVerifyAndLaunch b out' update = .ok launch) :
    Verified b out' update launch := by
  obtain ⟨-, hdownload, hlength, hhash, hsigner, hfile⟩ := downloadVerifyAndLaunch_ok h
  obtain ⟨-, document, -, -, -, hnames⟩ := ho.manifest
  obtain ⟨digest, -, hdigest⟩ := hnames.sha256
  obtain ⟨hparts, -, -⟩ := downloadHttps_ok hdownload
  refine ⟨hlength, ?_, hsigner, hparts, hfile, hfile ▸ isNameChar_installerName ho.acceptable.version⟩
  rw [hdigest, normalizeHex_normalizeHex, ← hdigest] at hhash
  cases hh : out'.hash launch.installer with
  | none =>
    rw [hh] at hhash
    have := ho.acceptable.digest.1
    rw [← hhash] at this
    exact absurd this (by decide)
  | some d =>
    rw [hh] at hhash
    exact congrArg some hhash

end UpdateManager
end Host
end CloudGaming
