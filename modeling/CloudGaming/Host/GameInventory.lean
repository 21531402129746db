import CloudGaming.Async.Along
import CloudGaming.Host.Bytes
import Mathlib.Algebra.Group.Nat.Defs
/-!
# GameInventory — the games of the host

The games found in the manifests of Steam, the games added by hand, and which of them are enabled.  The manifests, the
executables and whether the inventory can be written come from outside; a call that fails leaves the inventory as it was.
-/
namespace CloudGaming
namespace Host
namespace GameInventory

open Async
open Bytes (ascii decode isalnum isspace tolower)

/-! ## Steam -/

/-- What stands between the quotes that follow the quoted key, where the text begins with it. -/
def valueAt (key text : Bytes) : Option Bytes :=
  if (text.take (key.length + 2)).map tolower = 34 :: key ++ [34] then
    match (text.drop (key.length + 2)).dropWhile isspace with
    | [] => none
    | quote :: rest =>
      if quote = 34 ∧ 34 ∈ rest then some (rest.takeWhile (· ≠ 34)) else none
  else none

/-- `VdfValue`: the first match in the text. -/
def vdfValue (key text : Bytes) : Bytes := (text.tails.findSome? (valueAt key)).getD []

inductive Source where
  | steam | manual
  deriving DecidableEq

def Source.text : Source → String
  | steam => "steam"
  | manual => "manual"

structure Game where
  id : Bytes
  source : Source
  title : Bytes
  localManifestId : Bytes
  launchTarget : Bytes
  enabled : Bool
  installed : Bool

/-- The loop of `ScanSteam` over the manifests it can read. -/
def scanSteam : List Bytes → List Bytes → List Game
  | _, [] => []
  | seen, manifest :: rest =>
    let appId := vdfValue (ascii "appid") manifest
    let title := vdfValue (ascii "name") manifest
    if appId = [] ∨ title = [] ∨ appId ∈ seen then scanSteam seen rest
    else ⟨ascii "steam:" ++ appId, .steam, title, ascii "steam-" ++ appId, appId, false, true⟩ :: scanSteam (appId :: seen) rest

/-! ## Manual games -/

def hexDigit (n : Nat) : UInt8 := if n < 10 then (48 + n).toUInt8 else (87 + n).toUInt8

/-- A byte of a title, in the loop of `ManualGameId`. -/
def slugStep (slug : Bytes) (byte : UInt8) : Bytes :=
  let lowered := tolower byte
  if isalnum lowered then slug ++ [lowered]
  else if slug ≠ [] ∧ slug.getLast? ≠ some 45 then slug ++ [45]
  else slug

def slug (title : Bytes) : Bytes :=
  let slug := ((title.foldl slugStep []).reverse.dropWhile (· = 45)).reverse
  (if slug = [] then ascii "game" else slug).take 40

def hash (title : Bytes) : UInt64 :=
  title.foldl (fun hash byte => (hash ^^^ (tolower byte).toUInt64) * 1099511628211) 1469598103934665603

def manualGameId (title : Bytes) : Bytes :=
  ascii "manual:" ++ (slug title ++ 45 :: (List.range 16).reverse.map fun i => hexDigit ((hash title).toNat / 16 ^ i % 16))

structure SecureIdBytes where
  val : List UInt8
  size : val.length = 16

def generateRoomId (bytes : SecureIdBytes) : Bytes :=
  bytes.val.flatMap fun value => [hexDigit (value.toNat / 16), hexDigit (value.toNat % 16)]

/-! ## The inventory -/

structure ManualItem where
  id : Bytes
  title : Bytes
  localManifestId : Bytes
  launchTarget : Bytes

structure State where
  enabled : List Bytes := []
  manual : List ManualItem := []

def escaped (c : UInt8) : Bytes :=
  match [(8, 98), (9, 116), (10, 110), (12, 102), (13, 114), (34, 34), (92, 92)].lookup c with
  | some letter => [92, letter]
  | none => if c < 32 then ascii "\\u00" ++ [hexDigit (c.toNat / 16), hexDigit (c.toNat % 16)] else [c]

def quoted (b : Bytes) : Bytes := 34 :: b.flatMap escaped ++ [34]

/-- What stands between brackets, a line each, as `dump(2)` lays it out. -/
def lines (opening closing : UInt8) (indent : Nat) (items : List Bytes) : Bytes :=
  if items = [] then [opening, closing]
  else
    opening :: 10 :: List.intercalate [44, 10] (items.map (List.replicate (indent + 2) 32 ++ ·)) ++
      10 :: List.replicate indent 32 ++ [closing]

def field (key : String) (value : Bytes) : Bytes := quoted (ascii key) ++ ascii ": " ++ value

/-- `state.dump(2)`. -/
def State.dump (s : State) : Bytes :=
  lines 123 125 0 [
    field "enabled" (lines 91 93 2 (s.enabled.map quoted)),
    field "manual" (lines 91 93 2 (s.manual.map fun item =>
      lines 123 125 4 [field "id" (quoted item.id), field "launchTarget" (quoted item.launchTarget),
        field "localManifestId" (quoted item.localManifestId), field "title" (quoted item.title)]))]

/-- `LoadState`: `ReadFile` gives up a file of more than 16 MiB, the line end behind the text included. -/
def loadState (s : State) : State := if s.dump.length + 1 ≤ 16 * 1024 * 1024 then s else {}

/-- The JSON library writes the inventory: all its strings are UTF-8. -/
def State.dumps (s : State) : Bool :=
  s.enabled.all (fun id => (decode id).isSome) &&
    s.manual.all fun item =>
      (decode item.id).isSome && (decode item.title).isSome && (decode item.localManifestId).isSome &&
        (decode item.launchTarget).isSome

/-- `SaveState`; `failure` is the error of the file, if there is one. -/
def saveState (s : State) (failure : Option String) : Except String State :=
  if s.dumps then
    match failure with
    | some error => .error error
    | none => .ok s
  else .error "invalid UTF-8"

/-- What is there: the manifests that can be read, and the files. -/
structure Outside where
  manifests : List Bytes := []
  isRegularFile : Bytes → Bool := fun _ => false

def listUnlocked (o : Outside) (s : State) : List Game :=
  let games := scanSteam [] o.manifests ++ s.manual.map fun item =>
    { id := item.id
      source := .manual
      title := item.title
      localManifestId := item.localManifestId
      launchTarget := item.launchTarget
      enabled := false
      installed := o.isRegularFile item.launchTarget }
  games.map fun game => { game with enabled := s.enabled.contains game.id }

def list (o : Outside) (s : State) : List Game := listUnlocked o (loadState s)

def setEnabled (o : Outside) (s : State) (id : Bytes) (enabled : Bool) (failure : Option String) : Except String State :=
  let s := loadState s
  if ((listUnlocked o s).find? (·.id = id)).any (·.installed) then
    let values := s.enabled.filter (· ≠ id)
    saveState { s with enabled := if enabled then values ++ [id] else values } failure
  else .error "Game is not installed"

/-- The executable of a manual game; `canonical` is its path as `AddManual` keeps it. -/
structure Executable where
  isAbsolute : Bool
  extension : Bytes
  isRegularFile : Bool
  canonical : Bytes

def addManual (s : State) (title : Bytes) (executable : Executable) (bytes : SecureIdBytes) (failure : Option String) :
    Except String State :=
  if title = [] ∨ 160 < title.length ∨ !executable.isAbsolute ∨ executable.extension.map tolower ≠ ascii ".exe" ∨
      !executable.isRegularFile then
    .error "Manual games require a title and an existing absolute .exe path"
  else
    let s := loadState s
    if s.manual.any (·.id = manualGameId title) then .error "A manual game with this title is already configured"
    else
      let result : ManualItem :=
        ⟨manualGameId title, title, ascii "manual-" ++ (generateRoomId bytes).take 16, executable.canonical⟩
      saveState { s with manual := s.manual ++ [result] } failure

/-! ## Runs -/

inductive Call where
  | addManual (title : Bytes) (executable : Executable) (bytes : SecureIdBytes) (failure : Option String)
  | setEnabled (o : Outside) (id : Bytes) (enabled : Bool) (failure : Option String)

/-- A call that the inventory accepts. -/
def step (s : State) : Call → Option State
  | .addManual title executable bytes failure => (addManual s title executable bytes failure).toOption
  | .setEnabled o id enabled failure => (setEnabled o s id enabled failure).toOption

/-- A manual game as `AddManual` makes it. -/
structure ManualItem.Made (item : ManualItem) : Prop where
  id : item.id = manualGameId item.title
  decodes : ∃ text, decode item.title = some text
  length : item.title.length ≤ 160
  localManifestId : ∃ bytes, item.localManifestId = ascii "manual-" ++ (generateRoomId bytes).take 16

theorem saveState_eq_ok {s t : State} {failure : Option String} (h : (saveState s failure).toOption = some t) :
    t = s ∧ s.dumps = true := by
  unfold saveState at h
  split at h
  · rename_i hdumps
    cases failure with
    | some error => cases h
    | none => exact ⟨(Option.some.inj h).symm, hdumps⟩
  · cases h

theorem mem_manual_of_loadState {s : State} {item : ManualItem} (h : item ∈ (loadState s).manual) : item ∈ s.manual := by
  unfold loadState at h
  split at h
  · exact h
  · cases h

theorem State.decodes_of_dumps {s : State} (h : s.dumps = true) {item : ManualItem} (hitem : item ∈ s.manual) :
    ∃ text, decode item.title = some text := by
  simp only [State.dumps, Bool.and_eq_true, List.all_eq_true] at h
  exact Option.isSome_iff_exists.1 (h.2 item hitem).1.1.2

/-- **Every manual game is as it was made**, in every run. -/
theorem made_step {s t : State} {call : Call} (h : ∀ item ∈ s.manual, item.Made) (hs : step s call = some t) :
    ∀ item ∈ t.manual, item.Made := by
  cases call with
  | addManual title executable bytes failure =>
    simp only [step, addManual] at hs
    split at hs
    · cases hs
    · rename_i hvalid
      split at hs
      · cases hs
      · obtain ⟨rfl, hdumps⟩ := saveState_eq_ok hs
        intro item hitem
        rcases List.mem_append.1 hitem with hold | hnew
        · exact h item (mem_manual_of_loadState hold)
        · have hdecodes := State.decodes_of_dumps hdumps hitem
          obtain rfl := List.mem_singleton.1 hnew
          rw [not_or, not_or] at hvalid
          exact ⟨rfl, hdecodes, Nat.le_of_not_lt hvalid.2.1, bytes, rfl⟩
  | setEnabled o id enabled failure =>
    simp only [step, setEnabled] at hs
    split at hs
    · obtain ⟨rfl, -⟩ := saveState_eq_ok hs
      exact fun item hitem => h item (mem_manual_of_loadState hitem)
    · cases hs

/-! ## What is listed -/

/-- What the games of Steam have in common. -/
theorem scanSteam_spec : ∀ {manifests seen : List Bytes} {game : Game}, game ∈ scanSteam seen manifests →
    game.id = ascii "steam:" ++ game.launchTarget ∧ game.localManifestId = ascii "steam-" ++ game.launchTarget ∧
      game.installed = true
  | [], _, _, h => by cases h
  | manifest :: rest, seen, game, h => by
    unfold scanSteam at h
    dsimp only at h
    split at h
    · exact scanSteam_spec h
    · rcases List.mem_cons.1 h with rfl | h
      · exact ⟨rfl, rfl, rfl⟩
      · exact scanSteam_spec h

/-- A manual item as it is listed. -/
def ManualItem.game (item : ManualItem) (o : Outside) (s : State) : Game where
  id := item.id
  source := .manual
  title := item.title
  localManifestId := item.localManifestId
  launchTarget := item.launchTarget
  enabled := s.enabled.contains item.id
  installed := o.isRegularFile item.launchTarget

theorem mem_listUnlocked {o : Outside} {s : State} {game : Game} : game ∈ listUnlocked o s ↔
    (∃ found ∈ scanSteam [] o.manifests, game = { found with enabled := s.enabled.contains found.id }) ∨
      ∃ item ∈ s.manual, game = item.game o s := by
  unfold listUnlocked
  simp only [List.map_append, List.mem_append, List.mem_map, List.map_map, Function.comp_apply]
  constructor
  · rintro (⟨found, hfound, rfl⟩ | ⟨item, hitem, rfl⟩)
    · exact .inl ⟨found, hfound, rfl⟩
    · exact .inr ⟨item, hitem, rfl⟩
  · rintro (⟨found, hfound, rfl⟩ | ⟨item, hitem, rfl⟩)
    · exact .inl ⟨found, hfound, rfl⟩
    · exact .inr ⟨item, hitem, rfl⟩

/-! ## Ids -/

/-- A digit, a small letter or a hyphen. -/
def isIdByte (c : UInt8) : Bool := isalnum c || c == 45

theorem isIdByte_lt {c : UInt8} (h : isIdByte c = true) : c < 128 := by
  simp only [isIdByte, isalnum, Bytes.isdigit, Bool.or_eq_true, Bool.and_eq_true, decide_eq_true_eq, beq_iff_eq] at h
  rcases h with (⟨-, h⟩ | ⟨-, h⟩) | rfl
  · exact UInt8.lt_of_le_of_lt h (by decide)
  · exact UInt8.lt_of_le_of_lt h (by decide)
  · decide

theorem isalnum_hexDigit : ∀ n < 16, isalnum (hexDigit n) = true := by decide

/-- Letters and digits with hyphens between them, none at the front. -/
def Slug (slug : Bytes) : Prop := (∀ c ∈ slug, isIdByte c = true) ∧ ∀ c ∈ slug.head?, isalnum c = true

theorem slug_slugStep {slug : Bytes} (h : Slug slug) (byte : UInt8) : Slug (slugStep slug byte) := by
  have hpush : ∀ {c}, isIdByte c = true → (slug = [] → isalnum c = true) → Slug (slug ++ [c]) := by
    intro c hc hfirst
    refine ⟨fun d hd => ?_, fun d hd => ?_⟩
    · rcases List.mem_append.1 hd with hd | hd
      · exact h.1 d hd
      · exact List.mem_singleton.1 hd ▸ hc
    · cases slug with
      | nil =>
        obtain rfl := Option.some.inj hd
        exact hfirst rfl
      | cons e slug => exact h.2 d hd
  unfold slugStep
  dsimp only
  split
  · rename_i halnum
    exact hpush (by rw [isIdByte, halnum, Bool.true_or]) fun _ => halnum
  · split
    · rename_i hne
      exact hpush (by decide) fun hempty => absurd hempty hne.1
    · exact h

theorem Slug.of_front {slug front : Bytes} (h : Slug slug) (hfront : front <+: slug) : Slug front := by
  refine ⟨fun c hc => h.1 c (hfront.subset hc), fun c hc => ?_⟩
  obtain ⟨rest, rfl⟩ := hfront
  cases front with
  | nil => cases hc
  | cons d front => exact h.2 c hc

/-- The slug of a title, whatever the title is. -/
theorem slug_spec (title : Bytes) : slug title ≠ [] ∧ (slug title).length ≤ 40 ∧ Slug (slug title) := by
  have hfold : ∀ (title slug : Bytes), Slug slug → Slug (title.foldl slugStep slug) := by
    intro title
    induction title with
    | nil => exact fun _ h => h
    | cons byte title ih => exact fun slug h => ih _ (slug_slugStep h byte)
  have hall := hfold title [] ⟨(fun _ hc => by cases hc), (fun _ hc => by cases hc)⟩
  unfold slug
  dsimp only
  generalize title.foldl slugStep [] = whole at hall
  have hfront : (whole.reverse.dropWhile (· = 45)).reverse <+: whole := by
    have := List.reverse_prefix.2 (List.dropWhile_suffix (l := whole.reverse) (· = 45))
    rwa [List.reverse_reverse] at this
  have hslug := hall.of_front hfront
  generalize (whole.reverse.dropWhile (· = 45)).reverse = front at hslug
  by_cases hempty : front = []
  · rw [if_pos hempty]
    have hgame : ∀ c ∈ ascii "game", isIdByte c = true := List.all_eq_true.1 (by decide)
    refine ⟨by decide, by decide, hgame, fun c hc => ?_⟩
    obtain rfl := Option.some.inj hc
    decide
  · rw [if_neg hempty]
    refine ⟨?_, List.length_take_le 40 front, hslug.of_front (List.take_prefix 40 front)⟩
    intro htake
    rcases List.take_eq_nil_iff.1 htake with h | h
    · cases h
    · exact hempty h

/-- **The id of a manual game**: what follows the source begins with a letter or a digit and has 57 characters at most. -/
theorem manualGameId_spec (title : Bytes) : ∃ c rest, manualGameId title = ascii "manual:" ++ c :: rest ∧
    isalnum c = true ∧ (∀ d ∈ rest, isIdByte d = true) ∧ rest.length ≤ 56 := by
  obtain ⟨hne, hlength, hslug⟩ := slug_spec title
  unfold manualGameId
  cases hs : slug title with
  | nil => exact absurd hs hne
  | cons c front =>
    rw [hs] at hlength hslug
    refine ⟨c, front ++ 45 :: (List.range 16).reverse.map fun i => hexDigit ((hash title).toNat / 16 ^ i % 16), rfl,
      hslug.2 c rfl, fun d hd => ?_, ?_⟩
    · rcases List.mem_append.1 hd with hd | hd
      · exact hslug.1 d (List.mem_cons_of_mem c hd)
      · rcases List.mem_cons.1 hd with rfl | hd
        · decide
        · obtain ⟨i, -, rfl⟩ := List.mem_map.1 hd
          rw [isIdByte, isalnum_hexDigit _ (Nat.mod_lt _ (by decide)), Bool.true_or]
    · rw [List.length_cons] at hlength
      simp only [List.length_append, List.length_cons, List.length_map, List.length_reverse, List.length_range]
      omega

theorem length_generateRoomId (bytes : SecureIdBytes) : (generateRoomId bytes).length = 32 := by
  have hpairs : ∀ values : List UInt8,
      (values.flatMap fun value => [hexDigit (value.toNat / 16), hexDigit (value.toNat % 16)]).length = 2 * values.length := by
    intro values
    induction values with
    | nil => rfl
    | cons value values ih =>
      rw [List.flatMap_cons, List.length_append, ih, List.length_cons]
      simp only [List.length_cons, List.length_nil]
      omega
  rw [generateRoomId, hpairs, bytes.size]

/-- The local id of a manual game is one of 23 characters. -/
theorem localManifestId_spec (bytes : SecureIdBytes) :
    ∃ rest, (ascii "manual-" ++ (generateRoomId bytes).take 16) = ascii "manual-" ++ rest ∧
      (∀ d ∈ rest, isIdByte d = true) ∧ rest.length = 16 := by
  refine ⟨_, rfl, fun d hd => ?_, ?_⟩
  · obtain ⟨value, -, hd⟩ := List.mem_flatMap.1 (List.take_subset 16 _ hd)
    have hvalue : value.toNat < 256 := value.toNat_lt
    rcases List.mem_cons.1 hd with rfl | hd
    · rw [isIdByte, isalnum_hexDigit _ (by omega), Bool.true_or]
    · rw [List.mem_singleton.1 hd, isIdByte, isalnum_hexDigit _ (by omega), Bool.true_or]
  · rw [List.length_take, length_generateRoomId]
    decide

end GameInventory
end Host
end CloudGaming
