import CloudGaming.Host.Keyboard
import Mathlib.Data.Int.Order.Basic
/-!
# Mouse — the mouse handler and its button injections

One round of the mouse loop handles one queued message.  A click is injected where the loop finds the game in the
foreground, the position transforms, the injection gate is open, and `SendInput` takes the move and the button.  The
wheel, the moves and the position itself inject no button event and are left out.
-/
namespace CloudGaming
namespace Host

/-- The screens: the virtual desktop, the primary one, and the size of a window's client area where it can be read. -/
structure Screens where
  virtual : Int × Int
  primary : Int × Int
  clientRect : Nat → Option (Int × Int)

/-- `transformClientToAbsolute` is valid: its conditions do not depend on the position. -/
def Screens.transforms (s : Screens) (target : Option Nat) (view : Int × Int) : Bool :=
  let size := if s.virtual.1 ≤ 0 ∨ s.virtual.2 ≤ 0 then s.primary else s.virtual
  0 < view.1 && 0 < view.2 &&
    (target.bind s.clientRect).any (fun rect => 0 < rect.1 && 0 < rect.2) && 0 < size.1 && 0 < size.2

/-- The loop's own test. -/
def Desktop.inForeground (d : Desktop) : Bool := d.target.isSome && d.foreground = d.target

/-- One attempt to click: the window the transform finds with the screens, and the injection. -/
structure Click where
  target : Option Nat
  screens : Screens
  shot : Shot

def Click.lands (c : Click) (view : Int × Int) : Bool := c.screens.transforms c.target view && c.shot.lands

namespace MouseInput

open KeyInput (KeyState)

/-- `injected` is history, as in `Keyboard`. -/
structure Mouse where
  clientReportedMouseButtonsDown : Finset Int := ∅
  clientView : Int × Int := (1920, 1080)
  injected : Int → Option KeyState := fun _ => none

namespace Mouse

/-- `simulateWindowsMouseEvent`, at a button event. -/
def simulate (s : Mouse) (button : Int) (state : KeyState) (c : Click) : Mouse :=
  if (0 ≤ button ∧ button ≤ 4) ∧ c.lands s.clientView then
    { s with injected := Function.update s.injected button (some state) }
  else s

/-- The release of every button that is down: of an overflow, and of an emergency. -/
def releaseAllButtons (s : Mouse) (clicks : Int → Click) : Mouse :=
  { s with
    clientReportedMouseButtonsDown := ∅
    injected := fun b =>
      if b ∈ s.clientReportedMouseButtonsDown ∧ (0 ≤ b ∧ b ≤ 4) ∧ (clicks b).lands s.clientView then some .up
      else s.injected b }

def resize (s : Mouse) (width height : Int) : Mouse :=
  if 320 ≤ width ∧ width ≤ 7680 ∧ 180 ≤ height ∧ height ≤ 4320 then { s with clientView := (width, height) } else s

/-- A button event that passed the checks. -/
def button (s : Mouse) (check : Desktop) (c : Click) (b : Int) (state : KeyState) : Mouse :=
  match state with
  | .down =>
    if b ∈ s.clientReportedMouseButtonsDown then s
    else
      let s := { s with clientReportedMouseButtonsDown := insert b s.clientReportedMouseButtonsDown }
      if check.inForeground then s.simulate b .down c else s
  | .up =>
    if b ∈ s.clientReportedMouseButtonsDown then
      let s := { s with clientReportedMouseButtonsDown := s.clientReportedMouseButtonsDown.erase b }
      if check.inForeground then s.simulate b .up c else s
    else s

end Mouse

/-- The button event in a message of a button's type, with its position. -/
def buttonEvent? (j : Json) (jsType : String) : Option (Int × KeyState) :=
  match (j.field? "x").bind Json.int32?, (j.field? "y").bind Json.int32?, (j.field? "button").bind Json.int32? with
  | some _, some _, some b => some (b, if jsType = "mousedown" then .down else .up)
  | _, _, _ => none

/-- The rest of one round of `mouseMessagePollingLoop`, after the sequence number. -/
def Mouse.handle (s : Mouse) (check : Desktop) (c : Click) (j : Json) : Mouse :=
  match (j.field? "type").bind Json.str?, j.valueInt "viewWidth" s.clientView.1,
    j.valueInt "viewHeight" s.clientView.2 with
  | some jsType, some width, some height =>
    let s := s.resize width height
    if jsType = "mousedown" ∨ jsType = "mouseup" then
      match buttonEvent? j jsType with
      | some (b, state) => if 0 ≤ b ∧ b ≤ 4 then s.button check c b state else s
      | none => s
    else s
  | _, _, _ => s

end MouseInput
end Host
end CloudGaming
