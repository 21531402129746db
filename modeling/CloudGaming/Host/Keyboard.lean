import CloudGaming.Host.StateManager
import Mathlib.Data.Finset.Basic
/-!
# Keyboard — the keyboard handler, its state machine and its injections

One round of the polling loop handles one queued message: the sequence tracker, the block list, the filter of dangerous
combinations, the virtual keys reported down, the state machine over key codes, and the injection into Windows, which
the desktop may refuse.  `Keyboard.injected` is history: no function of the handler reads it.
-/
namespace CloudGaming
namespace Host

/-! ## Injection -/

/-- What an injection finds on the desktop. -/
structure Desktop where
  target : Option Nat
  foreground : Option Nat
  isWindow : Nat → Bool
  isWindowVisible : Nat → Bool
  isIconic : Nat → Bool
  isWindowEnabled : Nat → Bool

def Desktop.shouldInjectInput (d : Desktop) : Bool :=
  match d.target with
  | none => false
  | some target => d.isWindow target && d.isWindowVisible target && !d.isIconic target && d.isWindowEnabled target &&
      d.foreground = some target

/-- One attempt to inject: the desktop it finds, and whether `SendInput` takes the event. -/
structure Shot where
  desktop : Desktop
  sent : Bool

def Shot.lands (s : Shot) : Bool := s.desktop.shouldInjectInput && s.sent

namespace KeyInput

/-! ## The sequence tracker -/

structure SequenceState where
  lastReceivedSeq : Nat := 0
  expectedSeq : Nat := 0
  lastRecoveryTime : Nat := 0

/-- `detectGap` finds a gap. -/
def SequenceState.gap (s : SequenceState) (sequenceId : Nat) : Bool :=
  !(s.lastReceivedSeq = 0 && s.expectedSeq = 0) && s.expectedSeq < sequenceId

def SequenceState.throttled (s : SequenceState) (now : Nat) : Bool := now - s.lastRecoveryTime < 1000

def SequenceState.received (s : SequenceState) (sequenceId : Nat) : SequenceState :=
  { s with lastReceivedSeq := sequenceId, expectedSeq := (sequenceId + 1) % 2 ^ 64 }

/-! ## The handler -/

inductive KeyState where
  | up | down
  deriving DecidableEq, Repr

structure Keyboard where
  clientReportedKeysDown : Finset Nat := ∅
  keyStates : String → KeyState := fun _ => .up
  sequence : SequenceState := {}
  injected : String → Option KeyState := fun _ => none

/-- What one round of the loop finds: the steady clock, the desktop at the loop's own test, and the shots of its
injections. -/
structure Moment where
  now : Nat
  check : Desktop
  inject : Shot
  recover : String → Shot

namespace Keyboard

/-- `SimulateWindowsKeyEvent`. -/
def simulate (k : Keyboard) (jsCode : String) (state : KeyState) (shot : Shot) : Keyboard :=
  if mapJavaScriptCodeToVK jsCode ≠ 0 ∧ shot.lands then
    { k with injected := Function.update k.injected jsCode (some state) }
  else k

/-- `KeyStateFSM::releaseAllKeys`: a release of every key that is down, then all are up. -/
def releaseAllKeys (k : Keyboard) (shots : String → Shot) : Keyboard :=
  { k with
    keyStates := fun _ => .up
    injected := fun c =>
      if k.keyStates c = .down ∧ mapJavaScriptCodeToVK c ≠ 0 ∧ (shots c).lands then some .up else k.injected c }

def processSequence (k : Keyboard) (m : Moment) (sequenceId : Nat) : Keyboard :=
  let recovered :=
    if k.sequence.gap sequenceId && !k.sequence.throttled m.now then
      { k.releaseAllKeys m.recover with sequence := { k.sequence with lastRecoveryTime := m.now } }
    else k
  { recovered with sequence := recovered.sequence.received sequenceId }

def dangerousCombination (k : Keyboard) (vkCode : Nat) : Bool :=
  let altDown := VK_LMENU ∈ k.clientReportedKeysDown || VK_RMENU ∈ k.clientReportedKeysDown
  let controlDown := VK_LCONTROL ∈ k.clientReportedKeysDown || VK_RCONTROL ∈ k.clientReportedKeysDown
  let tabDown : Bool := VK_TAB ∈ k.clientReportedKeysDown
  let escapeDown : Bool := VK_ESCAPE ∈ k.clientReportedKeysDown
  let f4Down : Bool := VK_F4 ∈ k.clientReportedKeysDown
  let currentAlt := vkCode = VK_LMENU || vkCode = VK_RMENU
  let currentControl := vkCode = VK_LCONTROL || vkCode = VK_RCONTROL
  (vkCode = VK_TAB && altDown) || (currentAlt && tabDown) || (vkCode = VK_ESCAPE && controlDown) ||
    (currentControl && escapeDown) || (vkCode = VK_F4 && altDown) || (currentAlt && f4Down)

/-- `KeyStateFSM::processKeyEvent`, and the injection of an accepted transition. -/
def transition (k : Keyboard) (m : Moment) (jsCode : String) (state : KeyState) : Keyboard :=
  if k.keyStates jsCode = state then k
  else
    let k := { k with keyStates := Function.update k.keyStates jsCode state }
    if m.check.shouldInjectInput then k.simulate jsCode state m.inject else k

/-- What the loop does with an event that passed its filters. -/
def track (k : Keyboard) (m : Moment) (jsCode : String) (state : KeyState) : Keyboard :=
  let vkCode := mapJavaScriptCodeToVK jsCode
  match state with
  | .down => transition { k with clientReportedKeysDown := insert vkCode k.clientReportedKeysDown } m jsCode .down
  | .up =>
    if vkCode ∈ k.clientReportedKeysDown then
      transition { k with clientReportedKeysDown := k.clientReportedKeysDown.erase vkCode } m jsCode .up
    else k

/-- The block list and the filter let the event pass. -/
def passes (k : Keyboard) (jsCode : String) (state : KeyState) : Bool :=
  mapJavaScriptCodeToVK jsCode ≠ 0 && !shouldBlockKey jsCode &&
    !(state = .down && k.dangerousCombination (mapJavaScriptCodeToVK jsCode))

end Keyboard

/-- The key event in a message. -/
structure KeyEvent where
  code : String
  state : KeyState
  deriving DecidableEq

def keyEvent? (j : Json) : Option KeyEvent :=
  match (j.field? "code").bind Json.str?, (j.field? "type").bind Json.str? with
  | some jsCode, some jsType => some ⟨jsCode, if jsType = "keydown" then .down else .up⟩
  | _, _ => none

/-- The sequence number in a message, zero without one. -/
def sequenceId? (j : Json) : Option Nat :=
  match j.field? "sequenceId" with
  | none => some 0
  | some n => n.uint64?

namespace Keyboard

/-- One round of `messagePollingLoop`. -/
def handle (k : Keyboard) (m : Moment) (j : Json) : Keyboard :=
  if j.isObject && j.contains "code" && j.contains "type" then
    match sequenceId? j with
    | none => k
    | some sequenceId =>
      let k := k.processSequence m sequenceId
      match keyEvent? j with
      | none => k
      | some e => if k.passes e.code e.state then k.track m e.code e.state else k
  else k

/-- `enqueueMessage` found the queue full. -/
def overflow (k : Keyboard) (shots : String → Shot) : Keyboard :=
  { k.releaseAllKeys shots with clientReportedKeysDown := ∅ }

end Keyboard

end KeyInput
end Host
end CloudGaming
