import CloudGaming.Async.Along
import CloudGaming.Client.Message
/-!
# Input — how the page turns the events of the user into messages

The page sends a key or mouse message at once where its channel is open and below the high-water mark; otherwise it
keeps the latest message of each key and button, the latest movement, and one wheel message that sums up the others, and
sends them when the channel lets it.  Positions are computed without rounding errors; they are clamped to the canvas.
-/
namespace CloudGaming
namespace Client

open Async
open Host (Payload InputSchema.accepted)

/-! ## The page -/

/-- A data channel; `isOpen` is `readyState === 'open'`. -/
structure DataChannel where
  isOpen : Bool := false
  bufferedAmount : Nat := 0

def KEY_CHANNEL_HIGH_WATER : Nat := 16384

def MOUSE_CHANNEL_HIGH_WATER : Nat := 16384

/-- A side of the canvas. -/
structure Side where
  val : Nat
  fits : val ≤ 16385

/-- Where the pointer is, and the box of the canvas on the page. -/
structure PointerEvent where
  clientX : ℚ
  clientY : ℚ
  left : ℚ
  top : ℚ
  width : ℚ
  height : ℚ

structure WheelEvent where
  pointer : PointerEvent
  deltaX : ℚ
  deltaY : ℚ
  fitsX : |deltaX| ≤ 10000
  fitsY : |deltaY| ≤ 10000

inductive MouseData where
  | move (m : MoveData)
  | button (m : ButtonData)
  | wheel (m : WheelData)

def MouseData.fields : MouseData → Option SessionId → List (String × Value)
  | move m => m.fields
  | button m => m.fields
  | wheel m => m.fields

def MouseData.isMove : MouseData → Bool
  | move _ => true
  | _ => false

/-- The state of the page.  `keyState` and `mouseButtonState` are sets, and the pending keys and buttons are maps, in
the order their entries were added in.  `sent` is history: the texts passed to `send`, the last one first. -/
structure Page where
  currentSessionId : Option SessionId := none
  width : Side := ⟨1, by decide⟩
  height : Side := ⟨1, by decide⟩
  keyState : List Code := []
  pendingKeyEvents : List KeyData := []
  keySequenceId : Nat := 0
  mouseButtonState : List Button := []
  mousePosition : Position := ⟨⟨0, by decide⟩, ⟨0, by decide⟩⟩
  pendingMouseButtons : List ButtonData := []
  pendingMouseWheel : Option WheelData := none
  pendingMouseMove : Option MoveData := none
  inThrottle : Bool := false
  lastTime : Nat := 0
  lastFn : Option PointerEvent := none
  dataChannel : Option DataChannel := none
  mouseChannel : Option DataChannel := none
  sent : List Payload := []

/-- `Map.set`: an entry keeps its place. -/
def mapSet {α κ : Type} [DecidableEq κ] (key : α → κ) (l : List α) (a : α) : List α :=
  if l.any (key · = key a) then l.map fun b => if key b = key a then a else b else l ++ [a]

/-- `Map.delete`. -/
def mapDelete {α κ : Type} [DecidableEq κ] (key : α → κ) (l : List α) (a : α) : List α := l.filter (key · ≠ key a)

def KeyData.id (m : KeyData) : String := m.code.text

namespace Page

section

/- The doubles of the browser, and which texts passed to `send` make it throw, by their number. -/
variable (d : Doubles) (fails : Nat → Bool) (s : Page)

def keyOpen : Bool := s.dataChannel.any (·.isOpen)

def keyFull : Bool := s.dataChannel.any (KEY_CHANNEL_HIGH_WATER ≤ ·.bufferedAmount)

def mouseOpen : Bool := s.mouseChannel.any (·.isOpen)

def mouseFull : Bool := s.mouseChannel.any (MOUSE_CHANNEL_HIGH_WATER ≤ ·.bufferedAmount)

/-- `send` on one of the channels; it tells whether it went well. -/
def send (mouse : Bool) (p : Payload) : Page × Bool :=
  let buffer := Option.map fun c : DataChannel => { c with bufferedAmount := c.bufferedAmount + p.size }
  if fails s.sent.length then ({ s with sent := p :: s.sent }, false)
  else if mouse then ({ s with sent := p :: s.sent, mouseChannel := buffer s.mouseChannel }, true)
  else ({ s with sent := p :: s.sent, dataChannel := buffer s.dataChannel }, true)

/-! ### Keys -/

def transmitKeyEvent (m : KeyData) : Page × Bool :=
  if s.keyOpen then
    let n := s.keySequenceId + 1
    let r := send fails { s with keySequenceId := n } false (stringify d (m.fields s.currentSessionId n))
    if r.2 then (r.1, true) else ({ r.1 with pendingKeyEvents := mapSet KeyData.id r.1.pendingKeyEvents m }, false)
  else (s, false)

/-- The loop of `flushPendingKeyEvents`. -/
def flushKeys : List KeyData → Page → Page
  | [], s => s
  | m :: rest, s =>
    if s.keyFull then s
    else
      let r := transmitKeyEvent d fails { s with pendingKeyEvents := mapDelete KeyData.id s.pendingKeyEvents m } m
      if r.2 then flushKeys rest r.1 else r.1

def flushPendingKeyEvents : Page := if s.keyOpen then flushKeys d fails s.pendingKeyEvents s else s

def sendKeyPress (m : KeyData) : Page :=
  if !s.keyOpen || s.keyFull || !s.pendingKeyEvents.isEmpty then
    flushPendingKeyEvents d fails { s with pendingKeyEvents := mapSet KeyData.id s.pendingKeyEvents m }
  else (transmitKeyEvent d fails s m).1

/-- The message about a key that is known by its code only. -/
def codeMessage (down : Bool) (now : Time) (reason : Option Reason) (code : Code) : KeyData :=
  ⟨⟨code.text, code.fits⟩, code, down, now, reason⟩

def releaseAllPressedKeys (reason : Reason) (now : Time) : Page :=
  let released := s.keyState.foldl (fun s c => sendKeyPress d fails s (codeMessage false now reason c)) s
  { released with keyState := [] }

/-! ### The mouse -/

/-- A message that could not be sent is kept, in place of an older one. -/
def keep : MouseData → Page
  | .move m => { s with pendingMouseMove := some m }
  | .button m => { s with pendingMouseButtons := mapSet ButtonData.button s.pendingMouseButtons m }
  | .wheel m => { s with pendingMouseWheel := some m }

def transmitMouseEvent (m : MouseData) : Page × Bool :=
  if (if m.isMove then s.mouseOpen else s.keyOpen) then
    let r := send fails s m.isMove (stringify d (m.fields s.currentSessionId))
    if r.2 then (r.1, true) else (r.1.keep m, false)
  else (s, false)

/-- The loop over the buttons; it tells whether it came to its end. -/
def flushButtons : List ButtonData → Page → Page × Bool
  | [], s => (s, true)
  | m :: rest, s =>
    if s.keyFull then (s, false)
    else
      let r := transmitMouseEvent d fails
        { s with pendingMouseButtons := mapDelete ButtonData.button s.pendingMouseButtons m } (.button m)
      if r.2 then flushButtons rest r.1 else (r.1, false)

def flushWheel : Page × Bool :=
  match s.pendingMouseWheel with
  | some wheel =>
    if s.keyFull then (s, true) else transmitMouseEvent d fails { s with pendingMouseWheel := none } (.wheel wheel)
  | none => (s, true)

def flushMove : Page :=
  match s.pendingMouseMove with
  | some move =>
    if s.mouseOpen && !s.mouseFull then
      (transmitMouseEvent d fails { s with pendingMouseMove := none } (.move move)).1
    else s
  | none => s

def flushPendingMouseEvents : Page :=
  if s.keyOpen then
    let r := flushButtons d fails s.pendingMouseButtons s
    if r.2 then
      let r := flushWheel d fails r.1
      if r.2 then flushMove d fails r.1 else r.1
    else r.1
  else flushMove d fails s

/-- A wheel message is added to the one that is kept. -/
def coalesce : MouseData → Page
  | .wheel m =>
    match s.pendingMouseWheel with
    | some w =>
      { s with
        pendingMouseWheel :=
          some ⟨w.position, d.add w.deltaX m.deltaX, d.add w.deltaY m.deltaY, m.clientSendTime⟩ }
    | none => { s with pendingMouseWheel := some m }
  | m => s.keep m

def sendMouseEvent (m : MouseData) : Page :=
  let isOpen := if m.isMove then s.mouseOpen else s.keyOpen
  let full := if m.isMove then s.mouseFull else s.keyFull
  let hasPending :=
    if m.isMove then s.pendingMouseMove.isSome else !s.pendingMouseButtons.isEmpty || s.pendingMouseWheel.isSome
  if !isOpen || full || hasPending then flushPendingMouseEvents d fails (s.coalesce d m)
  else (transmitMouseEvent d fails s m).1

def releaseAllPressedMouseButtons (reason : Reason) (now : Time) : Page :=
  let released := s.mouseButtonState.foldl
    (fun s b => sendMouseEvent d fails s (.button ⟨false, b, s.mousePosition, now, some reason⟩)) s
  { released with mouseButtonState := [] }

def releaseAllPressedInput (reason : Reason) (now : Time) : Page :=
  releaseAllPressedMouseButtons d fails (releaseAllPressedKeys d fails s reason now) reason now

/-! ### The pointer -/

/-- An offset in the box, scaled to the canvas, rounded and clamped. -/
def pixel (side : Side) (offset size : ℚ) : Pixel where
  val := (max 0 (min ((side.val : Int) - 1) (offset * side.val / size + 1 / 2).floor)).toNat
  fits := by
    have := side.fits
    omega

def getRemotePointerPosition (e : PointerEvent) : Position :=
  if e.width ≤ 0 ∨ e.height ≤ 0 then s.mousePosition
  else ⟨pixel s.width (e.clientX - e.left) e.width, pixel s.height (e.clientY - e.top) e.height⟩

/-- What `throttledSendMouseMove` calls, at once or in a timer. -/
def moveTo (e : PointerEvent) (now : Time) : Page :=
  let position := s.getRemotePointerPosition e
  { sendMouseEvent d fails s (.move ⟨position, now⟩) with mousePosition := position }

end

end Page

/-! ## Events -/

inductive Event where
  | connect (sessionId : SessionId)
  | createPeerConnection
  -- the states of the channels, and the handlers the browser calls on them
  | readyState (mouse isOpen : Bool)
  | bufferedAmount (mouse : Bool) (amount : Nat)
  | dataChannelOpen (now : Time)
  | mouseChannelOpen
  | bufferedAmountLow (mouse : Bool)
  | signalingClosed (now : Time)
  | resize (width height : Side)
  -- the user; `fullscreen` tells whether the page or the document is
  | keydown (key : KeyName) (code : Option Code) (isRepeat fullscreen : Bool) (now : Time)
  | keyup (key : KeyName) (code : Option Code) (now : Time)
  | mousemove (e : PointerEvent) (now : Time)
  | timeout (now : Time)
  | mousedown (e : PointerEvent) (button : Button) (now : Time)
  | mouseup (e : PointerEvent) (button : Button) (now : Time)
  | wheel (e : WheelEvent) (now : Time)
  | release (reason : Reason) (now : Time)

def Event.isKey : Event → Bool
  | keydown .. | keyup .. => true
  | _ => false

namespace Page

variable (d : Doubles) (fails : Nat → Bool)

/-- `dataChannel.onopen`: what is still held is pressed again. -/
def onopen (s : Page) (now : Time) : Page :=
  let s := { s with
    pendingKeyEvents :=
      s.keyState.foldl (fun l c => mapSet KeyData.id l (codeMessage true now none c)) s.pendingKeyEvents
    pendingMouseButtons :=
      s.mouseButtonState.foldl (fun l b => mapSet ButtonData.button l ⟨true, b, s.mousePosition, now, none⟩)
        s.pendingMouseButtons }
  flushPendingMouseEvents d fails (flushPendingKeyEvents d fails s)

def handleKeyDown (s : Page) (key : KeyName) (code : Option Code) (isRepeat fullscreen : Bool) (now : Time) : Page :=
  match code with
  | none => s
  | some code =>
    if isRepeat || (key.text = "Escape" && fullscreen) || key.text = "F12" then s
    else
      sendKeyPress d fails { s with keyState := mapSet Code.text s.keyState code } ⟨key, code, true, now, none⟩

def handleKeyUp (s : Page) (key : KeyName) (code : Option Code) (now : Time) : Page :=
  match code with
  | none => s
  | some code =>
    if s.keyState.any (·.text = code.text) then
      sendKeyPress d fails { s with keyState := mapDelete Code.text s.keyState code } ⟨key, code, false, now, none⟩
    else s

/-- `throttle`, with its wait of 8 ms. -/
def handleMouseMove (s : Page) (e : PointerEvent) (now : Time) : Page :=
  if s.inThrottle then { s with lastFn := some e }
  else { moveTo d fails s e now with lastTime := now.ms, inThrottle := true }

def onTimeout (s : Page) (now : Time) : Page :=
  match s.lastFn with
  | none => s
  | some e =>
    if 8 ≤ now.ms - s.lastTime then { moveTo d fails { s with lastFn := none } e now with lastTime := now.ms }
    else { s with lastFn := none }

def handleMouseButton (s : Page) (down : Bool) (e : PointerEvent) (button : Button) (now : Time) : Page :=
  let position := s.getRemotePointerPosition e
  sendMouseEvent d fails
    { s with
      mouseButtonState :=
        if down then mapSet (fun b => b) s.mouseButtonState button else mapDelete (fun b => b) s.mouseButtonState button
      mousePosition := position }
    (.button ⟨down, button, position, now, none⟩)

def handleMouseWheel (s : Page) (e : WheelEvent) (now : Time) : Page :=
  let position := s.getRemotePointerPosition e.pointer
  sendMouseEvent d fails { s with mousePosition := position } (.wheel ⟨position, e.deltaX, e.deltaY, now⟩)

def step (s : Page) : Event → Option Page
  | .connect sessionId => some { s with currentSessionId := some sessionId }
  | .createPeerConnection =>
    if s.currentSessionId.isSome && s.dataChannel.isNone then
      some { s with dataChannel := some {}, mouseChannel := some {} }
    else none
  | .readyState mouse isOpen =>
    if mouse then s.mouseChannel.map fun c => { s with mouseChannel := some { c with isOpen := isOpen } }
    else s.dataChannel.map fun c => { s with dataChannel := some { c with isOpen := isOpen } }
  | .bufferedAmount mouse amount =>
    if mouse then s.mouseChannel.map fun c => { s with mouseChannel := some { c with bufferedAmount := amount } }
    else s.dataChannel.map fun c => { s with dataChannel := some { c with bufferedAmount := amount } }
  | .dataChannelOpen now =>
    s.dataChannel.map fun c => onopen d fails { s with dataChannel := some { c with isOpen := true } } now
  | .mouseChannelOpen =>
    s.mouseChannel.map fun c =>
      flushPendingMouseEvents d fails { s with mouseChannel := some { c with isOpen := true } }
  | .bufferedAmountLow mouse =>
    some (flushPendingMouseEvents d fails (if mouse then s else flushPendingKeyEvents d fails s))
  | .signalingClosed now =>
    some { releaseAllPressedInput d fails s .signalingClosed now with dataChannel := none, mouseChannel := none }
  | .resize width height => some { s with width := width, height := height }
  | .keydown key code isRepeat fullscreen now => some (handleKeyDown d fails s key code isRepeat fullscreen now)
  | .keyup key code now => some (handleKeyUp d fails s key code now)
  | .mousemove e now => some (handleMouseMove d fails s e now)
  | .timeout now => some (onTimeout d fails s now)
  | .mousedown e button now => some (handleMouseButton d fails s true e button now)
  | .mouseup e button now =>
    some (if button ∈ s.mouseButtonState then handleMouseButton d fails s false e button now else s)
  | .wheel e now => some (handleMouseWheel d fails s e now)
  | .release reason now => some (releaseAllPressedInput d fails s reason now)

/-! ## What is sent -/

/-- The text is accepted by the schema of the host. -/
def Accepted (p : Payload) : Prop := (InputSchema.accepted p).isSome

end Page

def WheelData.Bounded (m : WheelData) : Prop := |m.deltaX| ≤ 10000 ∧ |m.deltaY| ≤ 10000

def MouseData.Bounded : MouseData → Prop
  | wheel m => m.Bounded
  | _ => True

namespace Page

variable {d : Doubles} (fails : Nat → Bool)

/-- **Every text sent is accepted, but for the key messages whose number has more than 32 bits**, all of which were
sent; a channel is there only with a session, and the wheel message that is kept is within bounds. -/
structure Sound (d : Doubles) (s : Page) : Prop where
  session : s.dataChannel.isSome ∨ s.mouseChannel.isSome → ∃ id, s.currentSessionId = some id
  wheel : ∀ w ∈ s.pendingMouseWheel, w.Bounded
  sent : ∀ p ∈ s.sent, Accepted p ∨ ∃ m id n, p = stringify d (KeyData.fields m (some id) n) ∧ n ≤ s.keySequenceId
  keys : ∀ n, 0 < n → n ≤ s.keySequenceId → ∃ m id, stringify d (KeyData.fields m (some id) n) ∈ s.sent

section steps
variable {s : Page}

theorem accepted_iff_of_sound (h : s.Sound d) : (∀ p ∈ s.sent, Accepted p) ↔ s.keySequenceId < 2 ^ 32 := by
  constructor
  · intro hall
    by_contra hn
    obtain ⟨m, id, hmem⟩ := h.keys (2 ^ 32) (by norm_num) (Nat.le_of_not_lt hn)
    exact absurd ((accepted_key_iff m (2 ^ 32)).1 (hall _ hmem)) (Nat.lt_irrefl _)
  · intro hlt p hp
    rcases h.sent p hp with hp | ⟨m, id, n, rfl, hn⟩
    · exact hp
    · exact (accepted_key_iff m n).2 (Nat.lt_of_le_of_lt hn hlt)

/-- A text may be sent that is accepted, or that is the key message of the next number. -/
theorem sound_send (h : s.Sound d) (mouse : Bool) {p : Payload} {k : Nat} (hk : s.keySequenceId ≤ k)
    (hp : Accepted p ∨ ∃ m id n, p = stringify d (KeyData.fields m (some id) n) ∧ n ≤ k)
    (hnew : ∀ n, s.keySequenceId < n → n ≤ k → ∃ m id, p = stringify d (KeyData.fields m (some id) n)) :
    (send fails { s with keySequenceId := k } mouse p).1.Sound d := by
  have hsent : ∀ q ∈ p :: s.sent, Accepted q ∨ ∃ m id n, q = stringify d (KeyData.fields m (some id) n) ∧ n ≤ k := by
    rintro q (_ | ⟨_, hq⟩)
    · exact hp
    · exact (h.sent q hq).imp_right fun ⟨m, id, n, hq, hn⟩ => ⟨m, id, n, hq, Nat.le_trans hn hk⟩
  have hkeys : ∀ n, 0 < n → n ≤ k → ∃ m id, stringify d (KeyData.fields m (some id) n) ∈ p :: s.sent := by
    intro n h0 hn
    by_cases hold : n ≤ s.keySequenceId
    · obtain ⟨m, id, hmem⟩ := h.keys n h0 hold
      exact ⟨m, id, List.mem_cons_of_mem p hmem⟩
    · obtain ⟨m, id, rfl⟩ := hnew n (Nat.lt_of_not_le hold) hn
      exact ⟨m, id, List.mem_cons_self⟩
  unfold send
  dsimp only
  split
  · exact ⟨h.session, h.wheel, hsent, hkeys⟩
  · split
    · exact ⟨fun hc => h.session (by simpa using hc), h.wheel, hsent, hkeys⟩
    · exact ⟨fun hc => h.session (by simpa using hc), h.wheel, hsent, hkeys⟩

theorem session_of_keyOpen (h : s.Sound d) (ho : s.keyOpen = true) : ∃ id, s.currentSessionId = some id := by
  refine h.session (.inl ?_)
  unfold keyOpen at ho
  cases hc : s.dataChannel with
  | none => simp [hc] at ho
  | some c => rfl

theorem session_of_mouseOpen (h : s.Sound d) (ho : s.mouseOpen = true) : ∃ id, s.currentSessionId = some id := by
  refine h.session (.inr ?_)
  unfold mouseOpen at ho
  cases hc : s.mouseChannel with
  | none => simp [hc] at ho
  | some c => rfl

/-! ### Keys -/

theorem sound_transmitKeyEvent (h : s.Sound d) (m : KeyData) : (transmitKeyEvent d fails s m).1.Sound d := by
  unfold transmitKeyEvent
  split
  · rename_i ho
    obtain ⟨id, hid⟩ := session_of_keyOpen h ho
    have hsend := sound_send fails h false (k := s.keySequenceId + 1)
      (p := stringify d (m.fields s.currentSessionId (s.keySequenceId + 1))) (Nat.le_succ _)
      (.inr ⟨m, id, _, by rw [hid], Nat.le_refl _⟩)
      (fun n h1 h2 => ⟨m, id, by rw [hid, Nat.le_antisymm h2 h1]⟩)
    dsimp only
    split
    · exact hsend
    · exact ⟨hsend.session, hsend.wheel, hsend.sent, hsend.keys⟩
  · exact h

theorem sound_flushKeys : ∀ (ms : List KeyData) {s : Page}, s.Sound d → (flushKeys d fails ms s).Sound d
  | [], _, h => h
  | m :: rest, s, h => by
    have hnext := sound_transmitKeyEvent fails (d := d)
      (s := { s with pendingKeyEvents := mapDelete KeyData.id s.pendingKeyEvents m })
      ⟨h.session, h.wheel, h.sent, h.keys⟩ m
    unfold flushKeys
    dsimp only
    split
    · exact h
    · split
      · exact sound_flushKeys rest hnext
      · exact hnext

theorem sound_flushPendingKeyEvents (h : s.Sound d) : (flushPendingKeyEvents d fails s).Sound d := by
  unfold flushPendingKeyEvents
  split
  · exact sound_flushKeys fails _ h
  · exact h

theorem sound_sendKeyPress (h : s.Sound d) (m : KeyData) : (sendKeyPress d fails s m).Sound d := by
  unfold sendKeyPress
  split
  · exact sound_flushPendingKeyEvents fails ⟨h.session, h.wheel, h.sent, h.keys⟩
  · exact sound_transmitKeyEvent fails h m

theorem sound_releaseAllPressedKeys (h : s.Sound d) (reason : Reason) (now : Time) :
    (releaseAllPressedKeys d fails s reason now).Sound d := by
  have hfold : ∀ (cs : List Code) {s : Page}, s.Sound d →
      (cs.foldl (fun s c => sendKeyPress d fails s (codeMessage false now reason c)) s).Sound d := by
    intro cs
    induction cs with
    | nil => exact id
    | cons c cs ih => exact fun h => ih (sound_sendKeyPress fails h _)
  have hreleased := hfold s.keyState h
  exact ⟨hreleased.session, hreleased.wheel, hreleased.sent, hreleased.keys⟩

/-! ### The mouse -/

theorem sound_keep (h : s.Sound d) {m : MouseData} (hm : m.Bounded) : (s.keep m).Sound d := by
  cases m with
  | move m | button m => exact ⟨h.session, h.wheel, h.sent, h.keys⟩
  | wheel m =>
    refine ⟨h.session, ?_, h.sent, h.keys⟩
    rintro w ⟨⟩
    exact hm

theorem accepted_mouse {m : MouseData} (hm : m.Bounded) (id : SessionId) :
    Accepted (stringify d (m.fields (some id))) := by
  cases m with
  | move m => exact accepted_move m
  | button m => exact accepted_button m
  | wheel m => exact (accepted_wheel_iff m).2 hm

theorem sound_transmitMouseEvent (h : s.Sound d) {m : MouseData} (hm : m.Bounded) :
    (transmitMouseEvent d fails s m).1.Sound d := by
  unfold transmitMouseEvent
  by_cases ho : (if m.isMove then s.mouseOpen else s.keyOpen) = true
  · obtain ⟨id, hid⟩ : ∃ id, s.currentSessionId = some id := by
      split at ho
      · exact session_of_mouseOpen h ho
      · exact session_of_keyOpen h ho
    have hsend := sound_send fails h m.isMove (p := stringify d (m.fields s.currentSessionId)) (Nat.le_refl _)
      (.inl (by rw [hid]; exact accepted_mouse hm id)) (fun n h1 h2 => absurd h1 (Nat.not_lt.2 h2))
    rw [if_pos ho]
    dsimp only
    split
    · exact hsend
    · exact sound_keep hsend hm
  · rw [if_neg ho]
    exact h

theorem sound_flushButtons : ∀ (ms : List ButtonData) {s : Page}, s.Sound d → (flushButtons d fails ms s).1.Sound d
  | [], _, h => h
  | m :: rest, s, h => by
    have hnext := sound_transmitMouseEvent fails (d := d) (m := .button m)
      (s := { s with pendingMouseButtons := mapDelete ButtonData.button s.pendingMouseButtons m })
      ⟨h.session, h.wheel, h.sent, h.keys⟩ trivial
    unfold flushButtons
    dsimp only
    split
    · exact h
    · split
      · exact sound_flushButtons rest hnext
      · exact hnext

theorem sound_flushWheel (h : s.Sound d) : (flushWheel d fails s).1.Sound d := by
  unfold flushWheel
  split
  · rename_i w hw
    split
    · exact h
    · exact sound_transmitMouseEvent fails (s := { s with pendingMouseWheel := none }) (m := .wheel w)
        ⟨h.session, (fun _ hn => by cases hn), h.sent, h.keys⟩ (h.wheel w hw)
  · exact h

theorem sound_flushMove (h : s.Sound d) : (flushMove d fails s).Sound d := by
  unfold flushMove
  split
  · rename_i move _
    split
    · exact sound_transmitMouseEvent fails (s := { s with pendingMouseMove := none }) (m := .move move)
        ⟨h.session, h.wheel, h.sent, h.keys⟩ trivial
    · exact h
  · exact h

theorem sound_flushPendingMouseEvents (h : s.Sound d) : (flushPendingMouseEvents d fails s).Sound d := by
  have hbuttons := sound_flushButtons fails s.pendingMouseButtons h
  have hwheel := sound_flushWheel fails hbuttons
  unfold flushPendingMouseEvents
  dsimp only
  split
  · split
    · split
      · exact sound_flushMove fails hwheel
      · exact hwheel
    · exact hbuttons
  · exact sound_flushMove fails h

/-- A message that may be sent, and may be added to the wheel message that is kept. -/
def Fits (d : Doubles) (s : Page) : MouseData → Prop
  | .wheel m => m.Bounded ∧ ∀ w ∈ s.pendingMouseWheel,
      |d.add w.deltaX m.deltaX| ≤ 10000 ∧ |d.add w.deltaY m.deltaY| ≤ 10000
  | _ => True

theorem bounded_of_fits {m : MouseData} (hm : s.Fits d m) : m.Bounded := by
  cases m with
  | wheel m => exact hm.1
  | _ => trivial

theorem sound_coalesce (h : s.Sound d) {m : MouseData} (hm : s.Fits d m) : (s.coalesce d m).Sound d := by
  cases m with
  | move m | button m => exact ⟨h.session, h.wheel, h.sent, h.keys⟩
  | wheel m =>
    cases hw : s.pendingMouseWheel with
    | none =>
      simp only [coalesce, hw]
      exact sound_keep h (m := .wheel m) hm.1
    | some w =>
      simp only [coalesce, hw]
      refine ⟨h.session, ?_, h.sent, h.keys⟩
      rintro _ ⟨⟩
      exact hm.2 w hw

theorem sound_sendMouseEvent (h : s.Sound d) {m : MouseData} (hm : s.Fits d m) :
    (sendMouseEvent d fails s m).Sound d := by
  unfold sendMouseEvent
  dsimp only
  -- the messages of the pointer have another channel; the two paths are the same for all of them
  generalize (!(if m.isMove then s.mouseOpen else s.keyOpen) || (if m.isMove then s.mouseFull else s.keyFull) ||
    if m.isMove then s.pendingMouseMove.isSome else !s.pendingMouseButtons.isEmpty || s.pendingMouseWheel.isSome) = kept
  cases kept with
  | true => exact sound_flushPendingMouseEvents fails (sound_coalesce h hm)
  | false => exact sound_transmitMouseEvent fails h (bounded_of_fits hm)

theorem sound_releaseAllPressedMouseButtons (h : s.Sound d) (reason : Reason) (now : Time) :
    (releaseAllPressedMouseButtons d fails s reason now).Sound d := by
  have hfold : ∀ (bs : List Button) {s : Page}, s.Sound d →
      (bs.foldl (fun s b => sendMouseEvent d fails s (.button ⟨false, b, s.mousePosition, now, some reason⟩)) s).Sound
        d := by
    intro bs
    induction bs with
    | nil => exact id
    | cons b bs ih => exact fun h => ih (sound_sendMouseEvent fails h (m := .button _) trivial)
  have hreleased := hfold s.mouseButtonState h
  exact ⟨hreleased.session, hreleased.wheel, hreleased.sent, hreleased.keys⟩

theorem sound_releaseAllPressedInput (h : s.Sound d) (reason : Reason) (now : Time) :
    (releaseAllPressedInput d fails s reason now).Sound d :=
  sound_releaseAllPressedMouseButtons fails (sound_releaseAllPressedKeys fails h reason now) reason now

/-! ### The handlers -/

theorem sound_moveTo (h : s.Sound d) (e : PointerEvent) (now : Time) : (moveTo d fails s e now).Sound d := by
  have hsent := sound_sendMouseEvent fails h (m := .move ⟨s.getRemotePointerPosition e, now⟩) trivial
  exact ⟨hsent.session, hsent.wheel, hsent.sent, hsent.keys⟩

theorem sound_onopen (h : s.Sound d) (now : Time) : (onopen d fails s now).Sound d :=
  sound_flushPendingMouseEvents fails (sound_flushPendingKeyEvents fails ⟨h.session, h.wheel, h.sent, h.keys⟩)

theorem sound_handleKeyDown (h : s.Sound d) (key : KeyName) (code : Option Code) (isRepeat fullscreen : Bool)
    (now : Time) : (handleKeyDown d fails s key code isRepeat fullscreen now).Sound d := by
  cases code with
  | none => exact h
  | some code =>
    unfold handleKeyDown
    dsimp only
    split
    · exact h
    · refine sound_sendKeyPress fails ?_ _
      exact ⟨h.session, h.wheel, h.sent, h.keys⟩

theorem sound_handleKeyUp (h : s.Sound d) (key : KeyName) (code : Option Code) (now : Time) :
    (handleKeyUp d fails s key code now).Sound d := by
  cases code with
  | none => exact h
  | some code =>
    unfold handleKeyUp
    dsimp only
    split
    · refine sound_sendKeyPress fails ?_ _
      exact ⟨h.session, h.wheel, h.sent, h.keys⟩
    · exact h

theorem sound_handleMouseMove (h : s.Sound d) (e : PointerEvent) (now : Time) :
    (handleMouseMove d fails s e now).Sound d := by
  unfold handleMouseMove
  split
  · exact ⟨h.session, h.wheel, h.sent, h.keys⟩
  · have hmoved := sound_moveTo fails h e now
    exact ⟨hmoved.session, hmoved.wheel, hmoved.sent, hmoved.keys⟩

theorem sound_onTimeout (h : s.Sound d) (now : Time) : (onTimeout d fails s now).Sound d := by
  unfold onTimeout
  split
  · exact h
  · rename_i e _
    split
    · have hmoved := sound_moveTo fails (s := { s with lastFn := none })
        ⟨h.session, h.wheel, h.sent, h.keys⟩ e now
      exact ⟨hmoved.session, hmoved.wheel, hmoved.sent, hmoved.keys⟩
    · exact ⟨h.session, h.wheel, h.sent, h.keys⟩

theorem sound_handleMouseButton (h : s.Sound d) (down : Bool) (e : PointerEvent) (button : Button) (now : Time) :
    (handleMouseButton d fails s down e button now).Sound d := by
  unfold handleMouseButton
  refine sound_sendMouseEvent fails ?_ trivial
  exact ⟨h.session, h.wheel, h.sent, h.keys⟩

theorem sound_handleMouseWheel (h : s.Sound d) {e : WheelEvent} (now : Time)
    (he : ∀ w ∈ s.pendingMouseWheel, |d.add w.deltaX e.deltaX| ≤ 10000 ∧ |d.add w.deltaY e.deltaY| ≤ 10000) :
    (handleMouseWheel d fails s e now).Sound d := by
  unfold handleMouseWheel
  refine sound_sendMouseEvent fails ?_ ⟨⟨e.fitsX, e.fitsY⟩, he⟩
  exact ⟨h.session, h.wheel, h.sent, h.keys⟩

end steps

/-- A wheel event whose deltas, added to those that are kept, are within bounds as the browser computes the sums. -/
def Merges (d : Doubles) (s : Page) : Event → Prop
  | .wheel e _ => ∀ w ∈ s.pendingMouseWheel,
      |d.add w.deltaX e.deltaX| ≤ 10000 ∧ |d.add w.deltaY e.deltaY| ≤ 10000
  | _ => True

theorem sound_step {s s' : Page} {e : Event} (h : s.Sound d) (he : Merges d s e) (hs : step d fails s e = some s') :
    s'.Sound d := by
  cases e with
  | connect sessionId =>
    obtain rfl := Option.some.inj hs
    exact ⟨fun _ => ⟨sessionId, rfl⟩, h.wheel, h.sent, h.keys⟩
  | createPeerConnection =>
    simp only [step, Option.ite_none_right_eq_some, Bool.and_eq_true] at hs
    obtain ⟨⟨hsession, -⟩, ⟨⟩⟩ := hs
    exact ⟨fun _ => Option.isSome_iff_exists.1 hsession, h.wheel, h.sent, h.keys⟩
  | readyState mouse isOpen | bufferedAmount mouse amount =>
    simp only [step] at hs
    split at hs
    · obtain ⟨c, hc, rfl⟩ := Option.map_eq_some_iff.1 hs
      exact ⟨fun _ => h.session (.inr (by rw [hc]; rfl)), h.wheel, h.sent, h.keys⟩
    · obtain ⟨c, hc, rfl⟩ := Option.map_eq_some_iff.1 hs
      exact ⟨fun _ => h.session (.inl (by rw [hc]; rfl)), h.wheel, h.sent, h.keys⟩
  | dataChannelOpen now =>
    obtain ⟨c, hc, rfl⟩ := Option.map_eq_some_iff.1 hs
    refine sound_onopen fails ?_ now
    exact ⟨fun _ => h.session (.inl (by rw [hc]; rfl)), h.wheel, h.sent, h.keys⟩
  | mouseChannelOpen =>
    obtain ⟨c, hc, rfl⟩ := Option.map_eq_some_iff.1 hs
    refine sound_flushPendingMouseEvents fails ?_
    exact ⟨fun _ => h.session (.inr (by rw [hc]; rfl)), h.wheel, h.sent, h.keys⟩
  | bufferedAmountLow mouse =>
    obtain rfl := Option.some.inj hs
    cases mouse with
    | true => exact sound_flushPendingMouseEvents fails h
    | false => exact sound_flushPendingMouseEvents fails (sound_flushPendingKeyEvents fails h)
  | signalingClosed now =>
    obtain rfl := Option.some.inj hs
    have hreleased := sound_releaseAllPressedInput fails h .signalingClosed now
    refine ⟨fun hc => ?_, hreleased.wheel, hreleased.sent, hreleased.keys⟩
    rcases hc with hc | hc <;> cases hc
  | resize width height =>
    obtain rfl := Option.some.inj hs
    exact ⟨h.session, h.wheel, h.sent, h.keys⟩
  | keydown key code isRepeat fullscreen now =>
    obtain rfl := Option.some.inj hs
    exact sound_handleKeyDown fails h key code isRepeat fullscreen now
  | keyup key code now =>
    obtain rfl := Option.some.inj hs
    exact sound_handleKeyUp fails h key code now
  | mousemove e now =>
    obtain rfl := Option.some.inj hs
    exact sound_handleMouseMove fails h e now
  | timeout now =>
    obtain rfl := Option.some.inj hs
    exact sound_onTimeout fails h now
  | mousedown e button now =>
    obtain rfl := Option.some.inj hs
    exact sound_handleMouseButton fails h true e button now
  | mouseup e button now =>
    obtain rfl := Option.some.inj hs
    split
    · exact sound_handleMouseButton fails h false e button now
    · exact h
  | wheel e now =>
    obtain rfl := Option.some.inj hs
    exact sound_handleMouseWheel fails h now he
  | release reason now =>
    obtain rfl := Option.some.inj hs
    exact sound_releaseAllPressedInput fails h reason now

theorem sound_empty : ({} : Page).Sound d where
  session h := by rcases h with h | h <;> cases h
  wheel _ h := by cases h
  sent _ h := by cases h
  keys n h0 hn := absurd h0 (Nat.not_lt.2 hn)

/-- **Where the wheel messages that are merged stay within bounds, the texts sent are all accepted exactly while fewer
than 2³² key messages were sent.** -/
theorem accepted_throughout (d : Doubles) (fails : Nat → Bool) (es : List Event)
    (h : Along (step d fails) (Merges d) {} es) :
    Throughout (step d fails) (fun s => (∀ p ∈ s.sent, Accepted p) ↔ s.keySequenceId < 2 ^ 32) {} es :=
  (Throughout.of_along (fun _ _ _ => sound_step fails) sound_empty h).mono fun _ => accepted_iff_of_sound

/-- Doubles without rounding errors. -/
def exactDoubles : Doubles := ⟨(· + ·), fun q => min 25 (decimalSize q.num.natAbs), fun _ => min_le_left ..⟩

/-- The wheel is turned twice before the channel opens. -/
def turnedTwice (deltaY : ℚ) (h : |deltaY| ≤ 10000) : List Event :=
  let turned := Event.wheel ⟨⟨0, 0, 0, 0, 0, 0⟩, 0, deltaY, by norm_num, h⟩ ⟨0, by decide⟩
  [.connect ⟨"s", by decide⟩, .createPeerConnection, turned, turned, .dataChannelOpen ⟨0, by decide⟩]

theorem abs_six_hundred_le : |(600 : ℚ)| ≤ 10000 := by
  rw [abs_le]
  refine ⟨?_, ?_⟩ <;> norm_num

theorem accepted_throughout_turnedTwice :
    Throughout (step exactDoubles fun _ => false) (fun s => (∀ p ∈ s.sent, Accepted p) ↔ s.keySequenceId < 2 ^ 32) {}
      (turnedTwice 600 abs_six_hundred_le) := by
  refine accepted_throughout _ _ _ fun _ hs => ⟨trivial, ?_⟩
  obtain rfl := Option.some.inj hs
  refine fun _ hs => ⟨trivial, ?_⟩
  obtain rfl := Option.some.inj hs
  refine fun _ hs => ⟨(fun _ hw => by cases hw), ?_⟩
  obtain rfl := Option.some.inj hs
  refine fun _ hs => ⟨?_, fun _ _ => ⟨trivial, trivial⟩⟩
  rintro _ ⟨⟩
  change |(0 + 0 : ℚ)| ≤ 10000 ∧ |(600 + 600 : ℚ)| ≤ 10000
  rw [abs_le, abs_le]
  refine ⟨⟨?_, ?_⟩, ?_, ?_⟩ <;> norm_num

/-- **The sum of two wheel messages is not accepted.** -/
theorem not_accepted_turnedTwice :
    ¬∀ (d : Doubles) (fails : Nat → Bool) (es : List Event), es.countP Event.isKey < 2 ^ 32 →
      Throughout (step d fails) (fun s => ∀ p ∈ s.sent, Accepted p) {} es := by
  intro h
  have hrun := h exactDoubles (fun _ => false) (turnedTwice 6000 (by norm_num)) (by decide)
  obtain ⟨s, hs, m, hm, hsent⟩ :
      ∃ s, after (step exactDoubles fun _ => false) {} (turnedTwice 6000 (by norm_num)) = some s ∧
        ∃ m : WheelData, m.deltaY = 12000 ∧ stringify exactDoubles (m.fields (some ⟨"s", by decide⟩)) ∈ s.sent := by
    refine ⟨_, rfl, ⟨⟨⟨0, by decide⟩, ⟨0, by decide⟩⟩, 0 + 0, 6000 + 6000, ⟨0, by decide⟩⟩, by norm_num, ?_⟩
    exact List.mem_cons_self
  have hbound := (accepted_wheel_iff m).1 (hrun.after hs _ hsent)
  rw [hm] at hbound
  norm_num [Host.InputSchema.kMaxWheelDelta] at hbound

end Page

end Client
end CloudGaming
