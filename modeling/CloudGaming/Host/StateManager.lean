import CloudGaming.Host.KeyMap
import Mathlib.Data.List.AList
/-!
# StateManager — the keys and buttons the host believes are held

The input state manager: it drops events that repeat the state it has, hands on the others, and releases everything on
an `input_reset`.  A map is walked in an order of its own, so a delivery carries the orders its walks take.  The
time-based recovery of stuck keys is off unless the operator turns it on, and is left out.
-/
namespace CloudGaming
namespace Host

/-- The order in which a map with these keys is walked. -/
structure Walk (α : Type) where
  order : List α → List α
  perm : ∀ l, (order l).Perm l

def Walk.asStored {α : Type} : Walk α := ⟨id, fun _ => .refl _⟩

/-- A message handed to the state manager, at an instant of the system clock. -/
structure Delivery where
  message : Payload
  now : Nat
  keys : Walk String
  buttons : Walk Int

namespace StateManager

inductive KeyState where
  | released | pressed | stuck
  deriving DecidableEq, Repr

inductive MouseButtonState where
  | released | pressed | doubleClick
  deriving DecidableEq, Repr

/-- What the callback is given. -/
structure Fired where
  eventType : String
  data : Json

structure Manager where
  keyStates : AList fun _ : String => KeyState := ∅
  mouseButtonStates : AList fun _ : Int => MouseButtonState := ∅
  currentMousePosition : Int × Int := (0, 0)

namespace Manager

def getKeyState (m : Manager) (jsCode : String) : KeyState := (m.keyStates.lookup jsCode).getD .released

def getMouseButtonState (m : Manager) (button : Int) : MouseButtonState :=
  (m.mouseButtonStates.lookup button).getD .released

def updateKeyState (m : Manager) (jsCode : String) (state : KeyState) : Manager :=
  { m with keyStates := m.keyStates.insert jsCode state }

def updateMouseButtonState (m : Manager) (button : Int) (state : MouseButtonState) : Manager :=
  { m with mouseButtonStates := m.mouseButtonStates.insert button state }

def heldKeys (m : Manager) : List String :=
  m.keyStates.keys.filter fun c => m.getKeyState c = .pressed ∨ m.getKeyState c = .stuck

def heldButtons (m : Manager) : List Int :=
  m.mouseButtonStates.keys.filter fun b => m.getMouseButtonState b = .pressed ∨ m.getMouseButtonState b = .doubleClick

def syntheticKeyup (now : Nat) (reason jsCode : String) : Json :=
  .obj [("code", .str jsCode), ("emergency", .bool true), ("key", .str jsCode), ("reason", .str reason),
    ("timestamp", .int now), ("type", .str "keyup")]

def syntheticMouseup (now : Nat) (reason : String) (position : Int × Int) (button : Int) : Json :=
  .obj [("button", .int button), ("client_send_time", .int now), ("emergency", .bool true), ("reason", .str reason),
    ("type", .str "mouseup"), ("x", .int position.1), ("y", .int position.2)]

def emergencyReleaseAllKeys (m : Manager) (d : Delivery) (reason : String) : Manager × List Fired :=
  let keys := d.keys.order m.heldKeys
  let buttons := d.buttons.order m.heldButtons
  let m' := keys.foldl (fun m c => m.updateKeyState c .released) m
  let m' := buttons.foldl (fun m b => m.updateMouseButtonState b .released) m'
  (m', keys.map (fun c => ⟨"emergency_keyup", syntheticKeyup d.now reason c⟩) ++
    buttons.map fun b => ⟨"mouseup", syntheticMouseup d.now reason m.currentMousePosition b⟩)

def processKeyboardEvent (m : Manager) (eventType : String) (eventData : Json) : Manager × List Fired :=
  match (eventData.field? "code").bind Json.str? with
  | none => (m, [])
  | some jsCode =>
    let state := if eventType = "keydown" then KeyState.pressed else .released
    if !KeyInput.isSupportedKeyCode jsCode then (m, [])
    -- repeated downs and ups are dropped
    else if m.getKeyState jsCode = state then (m, [])
    else (m.updateKeyState jsCode state, [⟨eventType, eventData⟩])

/-- `transformMouseCoordinates`: the position in the client's space, or the origin where a field has no number. -/
def clientPosition (eventData : Json) : Int × Int :=
  match eventData.valueInt "x" 0, eventData.valueInt "y" 0, eventData.valueInt "deltaX" 0,
    eventData.valueInt "deltaY" 0 with
  | some x, some y, some _, some _ => (x, y)
  | _, _, _, _ => (0, 0)

def processMouseEvent (m : Manager) (eventType : String) (eventData : Json) : Manager × List Fired :=
  if eventType = "mousemove" then
    ({ m with currentMousePosition := clientPosition eventData }, [⟨eventType, eventData⟩])
  else if eventType = "mousedown" || eventType = "mouseup" then
    match (eventData.field? "button").bind Json.int32? with
    | none => (m, [])
    | some button =>
      let state := if eventType = "mousedown" then MouseButtonState.pressed else .released
      if m.getMouseButtonState button = state then (m, [])
      else (m.updateMouseButtonState button state, [⟨eventType, eventData⟩])
  else if eventType = "wheel" || eventType = "hwheel" then (m, [⟨eventType, eventData⟩])
  else (m, [])

def processInputMessage (m : Manager) (d : Delivery) : Manager × List Fired :=
  match InputSchema.accepted d.message with
  | none => (m, [])
  | some event =>
    if event.eventType = "input_reset" then
      match event.value.valueStr "reason" "transport_reset" with
      | none => (m, [])
      | some reason => m.emergencyReleaseAllKeys d reason
    else if event.eventType = "keydown" || event.eventType = "keyup" then
      m.processKeyboardEvent event.eventType event.value
    else m.processMouseEvent event.eventType event.value

end Manager

/-- `inputMessageHandler`: what goes to the keyboard handler. -/
def keyboardMessages (fired : List Fired) : List Json :=
  (fired.filter fun f => f.eventType ∈ ["keydown", "keyup", "emergency_keyup", "stuck_key_recovery"]).map Fired.data

end StateManager
end Host
end CloudGaming
