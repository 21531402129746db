import CloudGaming.Host.GameInventory
import CloudGaming.Host.Json
/-!
# AgentDispatch — the answer of the agent to a request

The values the agent sends and their encoding, the inventory as its state file and the manifests give it, and the
dispatcher with everything that it reads of a request.  A field of the wrong type throws, and so may a call of the
standard library on a path; an answer whose strings are not UTF-8 cannot be encoded.
-/
namespace CloudGaming
namespace Host

/-- The bytes of a text. -/
def Bytes.utf8 (s : String) : Bytes := s.toByteArray.data.toList

theorem Bytes.decode_utf8 (s : String) : Bytes.decode (Bytes.utf8 s) = some s := by
  rw [Bytes.decode_eq_some_iff]
  refine ByteArray.ext ?_
  rw [List.data_toByteArray]
  exact (Array.toArray_toList).symm

namespace AgentServer

open Bytes (ascii utf8 decode decode_utf8)
open GameInventory (Game SecureIdBytes quoted scanSteam manualGameId generateRoomId)

/-! ## Values to be sent -/

/-- A string is a sequence of bytes; of a number there is its text. -/
inductive Value where
  | null
  | bool (b : Bool)
  | num (text : Bytes)
  | str (b : Bytes)
  | arr (items : List Value)
  | obj (fields : List (String × Value))

/-- A text as a value. -/
abbrev Value.text (s : String) : Value := .str (utf8 s)

mutual

/-- `dump`. -/
def Value.dump : Value → Bytes
  | .null => utf8 "null"
  | .bool b => utf8 (if b then "true" else "false")
  | .num text => text
  | .str b => quoted b
  | .arr items => 91 :: dumpItems items ++ [93]
  | .obj fields => 123 :: dumpFields fields ++ [125]

def dumpItems : List Value → Bytes
  | [] => []
  | [v] => v.dump
  | v :: vs => v.dump ++ 44 :: dumpItems vs

def dumpFields : List (String × Value) → Bytes
  | [] => []
  | [(key, v)] => quoted (utf8 key) ++ 58 :: v.dump
  | (key, v) :: fields => quoted (utf8 key) ++ 58 :: (v.dump ++ 44 :: dumpFields fields)

end

mutual

/-- All strings of the value are UTF-8, so that `dump` does not throw. -/
def Value.valid : Value → Bool
  | .null | .bool _ | .num _ => true
  | .str b => (decode b).isSome
  | .arr items => validItems items
  | .obj fields => validFields fields

def validItems : List Value → Bool
  | [] => true
  | v :: vs => v.valid && validItems vs

def validFields : List (String × Value) → Bool
  | [] => true
  | (_, v) :: fields => v.valid && validFields fields

end

def Value.field? : Value → String → Option Value
  | .obj fields, key => fields.lookup key
  | _, _ => none

/-! ## Responses -/

inductive Body where
  | result (v : Value)
  | error (code : String) (message : Bytes) (retryable : Bool)

structure Response where
  requestId : String
  body : Body

/-- `SuccessResponse` and `ErrorResponse`; an object is in key order. -/
def Response.json (r : Response) : Value :=
  match r.body with
  | .result v =>
    .obj [("kind", .text "response"), ("ok", .bool true), ("protocolVersion", .num (utf8 "1")),
      ("requestId", .text r.requestId), ("result", v)]
  | .error code message retryable =>
    .obj [("error", .obj [("code", .text code), ("message", .str message), ("retryable", .bool retryable)]),
      ("kind", .text "response"), ("ok", .bool false), ("protocolVersion", .num (utf8 "1")),
      ("requestId", .text r.requestId)]

/-! ## Exceptions -/

/-- An exception of the JSON library, or another one, with its text. -/
inductive Failure where
  | json (text : Bytes)
  | other (text : Bytes)

def typeName : Json → String
  | .null => "null"
  | .bool _ => "boolean"
  | .int _ | .float _ => "number"
  | .str _ => "string"
  | .arr _ => "array"
  | .obj _ => "object"

/-- `type_error` 302. -/
def mustBe (type : String) (j : Json) : Failure :=
  .json (utf8 ("[json.exception.type_error.302] type must be " ++ type ++ ", but is " ++ typeName j))

/-- `type_error` 306. -/
def cannotUseValue (j : Json) : Failure :=
  .json (utf8 ("[json.exception.type_error.306] cannot use value() with " ++ typeName j))

/-- `type_error` 308. -/
def cannotPushBack (j : Json) : Failure :=
  .json (utf8 ("[json.exception.type_error.308] cannot use push_back() with " ++ typeName j))

/-! ## Reading fields -/

/-- `value(key, default)` at a string. -/
def readStr (j : Json) (key : String) : Except Failure String :=
  if !j.isObject then .error (cannotUseValue j)
  else
    match j.field? key with
    | none => .ok ""
    | some v => match v.str? with
      | some s => .ok s
      | none => .error (mustBe "string" v)

/-- `value(key, 0)`. -/
def readInt (j : Json) (key : String) : Except Failure Int :=
  if !j.isObject then .error (cannotUseValue j)
  else
    match j.field? key with
    | none => .ok 0
    | some v => match v.int32? with
      | some n => .ok n
      | none => .error (mustBe "number" v)

/-- The strings of an array. -/
def readStrs : List Json → Except Failure (List String)
  | [] => .ok []
  | v :: vs =>
    match v.str? with
    | none => .error (mustBe "string" v)
    | some s => (readStrs vs).map (s :: ·)

/-- What a loop over the value goes through. -/
def elements : Json → List Json
  | .arr items => items
  | .obj fields => fields.map Prod.snd
  | .null => []
  | j => [j]

/-! ## The inventory -/

/-- What the inventory finds.  `stateFile` is what the file with a text parses to; `path` is the conversion of a text to
a path, and `save` the error of `SaveState`. -/
structure Inventory where
  steamRoot : Bool := true
  manifests : Except Failure (List Bytes) := .ok []
  stateFile : Option (Option Json) := none
  path : String → Except Failure Unit := fun _ => .ok ()
  isRegularFile : String → Except Failure Bool := fun _ => .ok false
  save : Option Bytes := none

namespace Inventory

variable (i : Inventory)

def loadState : Json :=
  match i.stateFile with
  | none => .obj [("enabled", .arr []), ("manual", .arr [])]
  | some none => .obj []
  | some (some j) => if j.isObject then j else .obj []

/-- `state.value("enabled", std::vector<std::string>{})`. -/
def enabledIds (state : Json) : Except Failure (List String) :=
  match state.field? "enabled" with
  | none => .ok []
  | some (.arr items) => readStrs items
  | some j => .error (mustBe "array" j)

/-- `state.value("manual", nlohmann::json::array())`. -/
def manual (state : Json) : Json := (state.field? "manual").getD (.arr [])

/-- A manual game of the state file, where it is one. -/
def manualGame (item : Json) : Except Failure (Option Game) :=
  if !item.isObject then .ok none
  else do
    let launchTarget ← readStr item "launchTarget"
    i.path launchTarget
    let id ← readStr item "id"
    let title ← readStr item "title"
    let localManifestId ← readStr item "localManifestId"
    let installed ← i.isRegularFile launchTarget
    return some ⟨utf8 id, .manual, utf8 title, utf8 localManifestId, utf8 launchTarget, false, installed⟩

def manualGames : List Json → Except Failure (List Game)
  | [] => .ok []
  | item :: items => do
    let game ← i.manualGame item
    let games ← manualGames items
    return game.toList ++ games

def listUnlocked : Except Failure (List Game) := do
  let manifests ← i.manifests
  let enabled ← enabledIds i.loadState
  let games ← i.manualGames (elements (manual i.loadState))
  return (scanSteam [] manifests ++ games).map fun game =>
    { game with enabled := (enabled.map utf8).contains game.id }

/-- The error of `List`. -/
def listError (games : List Game) : String :=
  if games.isEmpty && !i.steamRoot then "Steam was not found; add a manual game instead" else ""

/-- `SetEnabled`; the error where it fails. -/
def setEnabled (id : String) : Except Failure (Option Bytes) := do
  let games ← i.listUnlocked
  if (games.find? (·.id = utf8 id)).any (·.installed) then return i.save
  else return some (utf8 "Game is not installed")

end Inventory

/-- `PublicJson`. -/
def publicJson (game : Game) : Value :=
  .obj [("enabled", .bool game.enabled), ("id", .str game.id), ("installed", .bool game.installed),
    ("localManifestId", .str game.localManifestId), ("source", .text game.source.text), ("title", .str game.title)]

/-- The executable of a manual game; `canonical` is its path as `AddManual` keeps it. -/
structure Executable where
  isAbsolute : Bool := true
  extension : Bytes := utf8 ".exe"
  isRegularFile : Except Failure Bool := .ok true
  canonical : Except Failure Bytes := .ok []

/-- A manual game of this id is in the state file already. -/
def configured (id : Bytes) : List Json → Except Failure Bool
  | [] => .ok false
  | item :: items => do
    let other ← readStr item "id"
    if utf8 other = id then return true
    else configured id items

/-- `push_back`; null becomes an array. -/
def pushBack : Json → Except Failure Unit
  | .arr _ | .null => .ok ()
  | j => .error (cannotPushBack j)

/-- What `AddManual` refuses before a look at the file. -/
def misnamed (title : String) (executable : Executable) : Bool :=
  title = "" || 160 < title.utf8ByteSize || !executable.isAbsolute ||
    executable.extension.map Bytes.tolower ≠ utf8 ".exe"

/-- `AddManual`; what it fails with, or the game. -/
def Inventory.addManual (i : Inventory) (title : String) (executable : Executable)
    (secureIdBytes : Except Failure SecureIdBytes) : Except Failure (Except Bytes Game) := do
  let invalid : Bytes := utf8 "Manual games require a title and an existing absolute .exe path"
  if misnamed title executable then return .error invalid
  else
    if !(← executable.isRegularFile) then return .error invalid
    else
      let id := manualGameId (utf8 title)
      if ← configured id (elements (manual i.loadState)) then
        return .error (utf8 "A manual game with this title is already configured")
      else
        let bytes ← secureIdBytes
        let launchTarget ← executable.canonical
        pushBack (manual i.loadState)
        match i.save with
        | some error => return .error error
        | none =>
          return .ok ⟨id, .manual, utf8 title, ascii "manual-" ++ (generateRoomId bytes).take 16, launchTarget, false,
            true⟩

/-! ## The dispatcher -/

structure Target where
  processId : Bytes
  processName : String
  title : String
  clientWidth : Bytes
  clientHeight : Bytes
  minimized : Bool

/-- What a request finds: the snapshot, the targets, whether a selection is taken, and the inventory. -/
structure Outside where
  snapshot : Value := .obj []
  targets : List Target := []
  selectTarget : String → String → Except Failure Bool := fun _ _ => .ok true
  inventory : Inventory := {}
  executable : String → Executable := fun _ => {}
  secureIdBytes : Except Failure SecureIdBytes := .ok ⟨List.replicate 16 0, by decide⟩
  nativeVersion : String := "0.0.0"
  architecture : String := "x64"

def commands : List String :=
  ["system.hello", "host.getSnapshot", "host.listTargets", "host.selectTarget", "host.start", "host.stop",
    "inventory.list", "inventory.setEnabled", "inventory.addManual", "host.shutdownAgent"]

def Target.json (t : Target) : Value :=
  .obj [("clientHeight", .num t.clientHeight), ("clientWidth", .num t.clientWidth), ("minimized", .bool t.minimized),
    ("processId", .num t.processId), ("processName", .text t.processName), ("title", .text t.title)]

variable (o : Outside)

def hello : Value :=
  .obj [("architecture", .text o.architecture), ("commands", .arr (commands.map Value.text)),
    ("nativeVersion", .text o.nativeVersion), ("protocolVersion", .num (utf8 "1"))]

def refuse (code message : String) (retryable : Bool := false) : Body := .error code (utf8 message) retryable

def selectTarget (params : Json) : Except Failure Body := do
  let processName ← readStr params "processName"
  let preferredTitle ← readStr params "preferredTitle"
  if processName = "" ∨ processName.utf8ByteSize > 260 ∨ preferredTitle.utf8ByteSize > 512 then
    return refuse "INVALID_TARGET" "Invalid process name or preferred title"
  else if ← o.selectTarget processName preferredTitle then return .result o.snapshot
  else return refuse "TARGET_REJECTED" "Invalid target process selection" true

def listInventory : Except Failure Body := do
  let games ← o.inventory.listUnlocked
  let error := o.inventory.listError games
  if error ≠ "" ∧ games = [] then return refuse "INVENTORY_FAILED" error true
  else return .result (.arr (games.map publicJson))

def setEnabled (params : Json) : Except Failure Body := do
  let id ← readStr params "id"
  if id = "" ∨ !(params.field? "enabled").any Json.isBoolean then
    return refuse "INVALID_GAME" "Game ID and enabled state are required"
  else
    match ← o.inventory.setEnabled id with
    | some error => return .error "INVENTORY_FAILED" error true
    | none => return .result (.bool true)

/-- The answer to what `AddManual` gave. -/
def addBody : Except Bytes Game → Body
  | .error error => .error "INVALID_GAME" error false
  | .ok game => .result (publicJson game)

def addManual (params : Json) : Except Failure Body := do
  let title ← readStr params "title"
  let executable ← readStr params "executable"
  (o.inventory.addManual title (o.executable executable) o.secureIdBytes).map addBody

/-- The commands. -/
def call (method : String) (params : Json) : Except Failure Body :=
  if method = "system.hello" then .ok (.result (hello o))
  else if method = "host.getSnapshot" then .ok (.result o.snapshot)
  else if method = "host.listTargets" then .ok (.result (.arr (o.targets.map Target.json)))
  else if method = "host.selectTarget" then selectTarget o params
  else if method = "host.start" then .ok (.result o.snapshot)
  else if method = "host.stop" then .ok (.result o.snapshot)
  else if method = "inventory.list" then listInventory o
  else if method = "inventory.setEnabled" then setEnabled o params
  else if method = "inventory.addManual" then addManual o params
  else if method = "host.shutdownAgent" then .ok (.result o.snapshot)
  else .ok (refuse "UNKNOWN_METHOD" "Unknown native agent command")

/-- What a request asks for, where its envelope is in order. -/
inductive Envelope where
  | refused (code message : String)
  | command (method : String) (params : Json)

/-- `value("params", nlohmann::json::object())`. -/
def paramsOf (request : Json) : Json := (request.field? "params").getD (.obj [])

/-- `Dispatch` up to the commands. -/
def envelope (requestId : String) (request : Json) : Except Failure Envelope := do
  let version ← readInt request "protocolVersion"
  if version ≠ 1 then return .refused "INCOMPATIBLE_PROTOCOL" "Unsupported native agent protocol version"
  else
    let kind ← readStr request "kind"
    if kind ≠ "request" ∨ requestId = "" ∨ requestId.utf8ByteSize > 128 then
      return .refused "INVALID_REQUEST" "Invalid request envelope"
    else
      let method ← readStr request "method"
      if !(paramsOf request).isObject then return .refused "INVALID_PARAMS" "Request params must be an object"
      else return .command method (paramsOf request)

def carryOut : Envelope → Except Failure Body
  | .refused code message => .ok (refuse code message)
  | .command method params => call o method params

def dispatch (request : Json) : Except Failure Response := do
  let requestId ← readStr request "requestId"
  let found ← envelope requestId request
  return ⟨requestId, ← carryOut o found⟩

/-- `shutdownRequested_` is set. -/
def asksShutdown (request : Json) : Bool :=
  match readStr request "requestId" with
  | .error _ => false
  | .ok requestId =>
    match envelope requestId request with
    | .ok (.command method _) => method = "host.shutdownAgent"
    | _ => false

/-- What `HandleConnection` answers to a payload; `parse` gives the text of its error where it throws. -/
def answer (parse : Bytes → Except Bytes Json) (payload : Bytes) : Response :=
  match parse payload with
  | .error text => ⟨"", .error "INVALID_JSON" text false⟩
  | .ok request =>
    match dispatch o request with
    | .ok response => response
    | .error (.json text) => ⟨"", .error "INVALID_JSON" text false⟩
    | .error (.other text) => ⟨"", .error "INTERNAL_ERROR" text true⟩

/-! ## What can be read, and what can be encoded -/

def strOf (j : Json) (key : String) : String := ((j.field? key).bind Json.str?).getD ""

/-- The bytes are a text in UTF-8. -/
def Utf8 (b : Bytes) : Prop := (decode b).isSome

end AgentServer
end Host
end CloudGaming
