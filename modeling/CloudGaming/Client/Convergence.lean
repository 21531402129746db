import CloudGaming.Client.Input
/-!
# Convergence — the last message about a key or a button, from the page's stores to its channel

The page sends a key or button message at once or keeps it, the latest for each key and button, until the channel takes
it.  Codes, buttons and what the wheel and the pointer say may be of any type here; of a key or button message stands what
the stores read.  Beside each store stands what was submitted to it, and what was sent of it since the channel opened.
-/
namespace CloudGaming
namespace Client

open Async

/-- A key message with its `code`, or a button message with its `button`; `down` where its type is keydown or mousedown. -/
structure Control (κ : Type) where
  id : κ
  down : Bool
  deriving DecidableEq

/-- The type of the last message about a key; the list begins with the last one. -/
def lastOf {κ : Type} [DecidableEq κ] (k : κ) (l : List (Control κ)) : Option Bool := (l.find? (·.id = k)).map (·.down)

/-- `keyState` with `pendingKeyEvents`, or `mouseButtonState` with `pendingMouseButtons`.  The rest is history, the last
message first: all that was submitted, what was since the channel opened, what was pending when it opened, and what was
transmitted on it. -/
structure Line (κ : Type) where
  held : List κ := []
  pending : List (Control κ) := []
  submitted : List (Control κ) := []
  recent : List (Control κ) := []
  waiting : List (Control κ) := []
  transmitted : List (Control κ) := []

namespace Line

section
variable {κ : Type} [DecidableEq κ] (l : Line κ)

def submit (m : Control κ) : Line κ := { l with submitted := m :: l.submitted, recent := m :: l.recent }

def set (m : Control κ) : Line κ := { l with pending := mapSet Control.id l.pending m }

def delete (m : Control κ) : Line κ := { l with pending := mapDelete Control.id l.pending m }

def transmit (m : Control κ) : Line κ := { l with transmitted := m :: l.transmitted }

/-- What the callers keep of the messages they submit. -/
def hold (m : Control κ) : Line κ :=
  { l with held := if m.down then mapSet (fun k => k) l.held m.id else mapDelete (fun k => k) l.held m.id }

/-- The channel opens: what is held is pressed again. -/
def reopen : Line κ :=
  let pending := l.held.foldl (fun pending k => mapSet Control.id pending ⟨k, true⟩) l.pending
  { l with pending := pending, recent := [], waiting := pending, transmitted := [] }

/-- The last message about the key was submitted since the channel opened, or was pending when it opened. -/
def Due (k : κ) : Prop := (∃ m ∈ l.recent, m.id = k) ∨ ∃ m ∈ l.waiting, m.id = k

/-- What the host receives of the channel, which is reliable and ordered. -/
def received : List (Control κ) := l.transmitted

/-- What was last submitted about a due key is pending or was the last transmitted about it on the channel. -/
def Settled : Prop :=
  ∀ k d, l.Due k → lastOf k l.submitted = some d → lastOf k l.pending = some d ∨ lastOf k l.transmitted = some d

/-- The last the host receives about a due key is what was last submitted about it. -/
def Delivered : Prop := ∀ k d, l.Due k → lastOf k l.submitted = some d → lastOf k l.received = some d

end

end Line

inductive PointerData (Button Wheel Move : Type) where
  | move (m : Move)
  | button (m : Control Button)
  | wheel (m : Wheel)

def PointerData.isMove {Button Wheel Move : Type} : PointerData Button Wheel Move → Bool
  | move _ => true
  | _ => false

structure Sender (Code Button Wheel Move : Type) where
  keys : Line Code := {}
  buttons : Line Button := {}
  pendingMouseWheel : Option Wheel := none
  pendingMouseMove : Option Move := none
  dataChannel : Option DataChannel := none
  mouseChannel : Option DataChannel := none
  sends : Nat := 0

namespace Sender

section

/- What adding to a wheel message makes of it, and what the calls of `send` do, by their number: throw, or leave so much
in the buffer. -/
variable {Code Button Wheel Move : Type} [DecidableEq Code] [DecidableEq Button] (merge : Wheel → Wheel → Wheel)
  (answer : Nat → Option Nat) (s : Sender Code Button Wheel Move)

def keyOpen : Bool := s.dataChannel.any (·.isOpen)

def keyFull : Bool := s.dataChannel.any (KEY_CHANNEL_HIGH_WATER ≤ ·.bufferedAmount)

def mouseOpen : Bool := s.mouseChannel.any (·.isOpen)

def mouseFull : Bool := s.mouseChannel.any (MOUSE_CHANNEL_HIGH_WATER ≤ ·.bufferedAmount)

/-- `send` on one of the channels; it tells whether it went well. -/
def send (mouse : Bool) : Sender Code Button Wheel Move × Bool :=
  match answer s.sends with
  | none => ({ s with sends := s.sends + 1 }, false)
  | some amount =>
    let buffer := Option.map fun c : DataChannel => { c with bufferedAmount := amount }
    if mouse then ({ s with sends := s.sends + 1, mouseChannel := buffer s.mouseChannel }, true)
    else ({ s with sends := s.sends + 1, dataChannel := buffer s.dataChannel }, true)

/-! ### Keys -/

def transmitKeyEvent (m : Control Code) : Sender Code Button Wheel Move × Bool :=
  if s.keyOpen then
    let r := send answer s false
    if r.2 then ({ r.1 with keys := r.1.keys.transmit m }, true) else ({ r.1 with keys := r.1.keys.set m }, false)
  else (s, false)

/-- The loop of `flushPendingKeyEvents`. -/
def flushKeys : List (Control Code) → Sender Code Button Wheel Move → Sender Code Button Wheel Move
  | [], s => s
  | m :: rest, s =>
    if s.keyFull then s
    else
      let r := transmitKeyEvent answer { s with keys := s.keys.delete m } m
      if r.2 then flushKeys rest r.1 else r.1

def flushPendingKeyEvents : Sender Code Button Wheel Move := if s.keyOpen then flushKeys answer s.keys.pending s else s

def sendKeyPress (m : Control Code) : Sender Code Button Wheel Move :=
  let s := { s with keys := s.keys.submit m }
  if !s.keyOpen || s.keyFull || !s.keys.pending.isEmpty then flushPendingKeyEvents answer { s with keys := s.keys.set m }
  else (transmitKeyEvent answer s m).1

def releaseAllPressedKeys : Sender Code Button Wheel Move :=
  let released := s.keys.held.foldl (fun s k => sendKeyPress answer s ⟨k, false⟩) s
  { released with keys := { released.keys with held := [] } }

/-! ### The mouse -/

/-- A message that could not be sent is kept, in place of an older one. -/
def keep : PointerData Button Wheel Move → Sender Code Button Wheel Move
  | .move m => { s with pendingMouseMove := some m }
  | .button m => { s with buttons := s.buttons.set m }
  | .wheel m => { s with pendingMouseWheel := some m }

def transmitMouseEvent (m : PointerData Button Wheel Move) : Sender Code Button Wheel Move × Bool :=
  if (if m.isMove then s.mouseOpen else s.keyOpen) then
    let r := send answer s m.isMove
    if r.2 then
      match m with
      | .button b => ({ r.1 with buttons := r.1.buttons.transmit b }, true)
      | _ => (r.1, true)
    else (r.1.keep m, false)
  else (s, false)

/-- The loop over the buttons; it tells whether it came to its end. -/
def flushButtons : List (Control Button) → Sender Code Button Wheel Move → Sender Code Button Wheel Move × Bool
  | [], s => (s, true)
  | m :: rest, s =>
    if s.keyFull then (s, false)
    else
      let r := transmitMouseEvent answer { s with buttons := s.buttons.delete m } (.button m)
      if r.2 then flushButtons rest r.1 else (r.1, false)

def flushWheel : Sender Code Button Wheel Move × Bool :=
  match s.pendingMouseWheel with
  | some wheel =>
    if s.keyFull then (s, true) else transmitMouseEvent answer { s with pendingMouseWheel := none } (.wheel wheel)
  | none => (s, true)

def flushMove : Sender Code Button Wheel Move :=
  match s.pendingMouseMove with
  | some move =>
    if s.mouseOpen && !s.mouseFull then
      (transmitMouseEvent answer { s with pendingMouseMove := none } (.move move)).1
    else s
  | none => s

def flushPendingMouseEvents : Sender Code Button Wheel Move :=
  if s.keyOpen then
    let r := flushButtons answer s.buttons.pending s
    if r.2 then
      let r := flushWheel answer r.1
      if r.2 then flushMove answer r.1 else r.1
    else r.1
  else flushMove answer s

/-- A wheel message is added to the one that is kept. -/
def coalesce : PointerData Button Wheel Move → Sender Code Button Wheel Move
  | .wheel m =>
    match s.pendingMouseWheel with
    | some w => { s with pendingMouseWheel := some (merge w m) }
    | none => { s with pendingMouseWheel := some m }
  | m => s.keep m

/-- A button message is noted as submitted. -/
def submitted : PointerData Button Wheel Move → Sender Code Button Wheel Move
  | .button m => { s with buttons := s.buttons.submit m }
  | _ => s

def sendMouseEvent (m : PointerData Button Wheel Move) : Sender Code Button Wheel Move :=
  let s := s.submitted m
  let isOpen := if m.isMove then s.mouseOpen else s.keyOpen
  let full := if m.isMove then s.mouseFull else s.keyFull
  let hasPending :=
    if m.isMove then s.pendingMouseMove.isSome else !s.buttons.pending.isEmpty || s.pendingMouseWheel.isSome
  if !isOpen || full || hasPending then flushPendingMouseEvents answer (s.coalesce merge m)
  else (transmitMouseEvent answer s m).1

def releaseAllPressedMouseButtons : Sender Code Button Wheel Move :=
  let released := s.buttons.held.foldl (fun s b => sendMouseEvent merge answer s (.button ⟨b, false⟩)) s
  { released with buttons := { released.buttons with held := [] } }

def releaseAllPressedInput : Sender Code Button Wheel Move :=
  releaseAllPressedMouseButtons merge answer (releaseAllPressedKeys answer s)

/-- `dataChannel.onopen`. -/
def onopen : Sender Code Button Wheel Move :=
  flushPendingMouseEvents answer
    (flushPendingKeyEvents answer { s with keys := s.keys.reopen, buttons := s.buttons.reopen })

/-- What holds the button, where the message is about one. -/
def holdButton : PointerData Button Wheel Move → Sender Code Button Wheel Move
  | .button m => { s with buttons := s.buttons.hold m }
  | _ => s

end

end Sender

/-! ## Events -/

inductive SenderEvent (Code Button Wheel Move : Type) where
  -- the channels, and the handlers the browser calls on them
  | createPeerConnection
  | dataChannelOpen
  | mouseChannelOpen
  | channelClosed (mouse : Bool)
  | bufferedAmount (mouse : Bool) (amount : Nat)
  | flushPendingKeyEvents
  | flushPendingMouseEvents
  | signalingClosed
  -- the calls of the handlers of the user's events, with the keys and buttons they hold
  | sendKeyPress (m : Control Code)
  | sendMouseEvent (m : PointerData Button Wheel Move)
  | releaseAllPressedInput

namespace Sender

variable {Code Button Wheel Move : Type} [DecidableEq Code] [DecidableEq Button] (merge : Wheel → Wheel → Wheel)
  (answer : Nat → Option Nat)

def step (s : Sender Code Button Wheel Move) : SenderEvent Code Button Wheel Move → Option (Sender Code Button Wheel Move)
  | .createPeerConnection =>
    if s.dataChannel.isNone then some { s with dataChannel := some {}, mouseChannel := some {} } else none
  | .dataChannelOpen =>
    s.dataChannel.map fun c => onopen answer { s with dataChannel := some { c with isOpen := true } }
  | .mouseChannelOpen =>
    s.mouseChannel.map fun c =>
      flushPendingMouseEvents answer { s with mouseChannel := some { c with isOpen := true } }
  | .channelClosed mouse =>
    if mouse then s.mouseChannel.map fun c => { s with mouseChannel := some { c with isOpen := false } }
    else s.dataChannel.map fun c => { s with dataChannel := some { c with isOpen := false } }
  | .bufferedAmount mouse amount =>
    if mouse then s.mouseChannel.map fun c => { s with mouseChannel := some { c with bufferedAmount := amount } }
    else s.dataChannel.map fun c => { s with dataChannel := some { c with bufferedAmount := amount } }
  | .flushPendingKeyEvents => some (flushPendingKeyEvents answer s)
  | .flushPendingMouseEvents => some (flushPendingMouseEvents answer s)
  | .signalingClosed =>
    some { releaseAllPressedInput merge answer s with dataChannel := none, mouseChannel := none }
  | .sendKeyPress m => some (sendKeyPress answer { s with keys := s.keys.hold m } m)
  | .sendMouseEvent m => some (sendMouseEvent merge answer (s.holdButton m) m)
  | .releaseAllPressedInput => some (releaseAllPressedInput merge answer s)

end Sender

/-! ## The maps of the page -/

section
variable {α κ : Type} [DecidableEq κ] {key : α → κ} {a b : α} {l : List α}

theorem mem_mapSet (h : b ∈ mapSet key l a) : b = a ∨ b ∈ l ∧ key b ≠ key a := by
  unfold mapSet at h
  split at h
  · obtain ⟨c, hc, rfl⟩ := List.mem_map.1 h
    by_cases hid : key c = key a
    · exact .inl (if_pos hid)
    · rw [if_neg hid]
      exact .inr ⟨hc, hid⟩
  · rename_i hany
    rcases List.mem_append.1 h with hb | hb
    · exact .inr ⟨hb, fun hid => hany (List.any_eq_true.2 ⟨b, hb, decide_eq_true hid⟩)⟩
    · exact .inl (List.mem_singleton.1 hb)

theorem mem_mapDelete (h : b ∈ mapDelete key l a) : b ∈ l ∧ key b ≠ key a := by
  simpa [mapDelete] using h

end

/-! ## The stores -/

section
variable {κ : Type} [DecidableEq κ]

theorem lastOf_cons (k : κ) (m : Control κ) (l : List (Control κ)) :
    lastOf k (m :: l) = if m.id = k then some m.down else lastOf k l := by
  unfold lastOf
  rw [List.find?_cons]
  by_cases h : m.id = k
  · simp [h]
  · simp [h]

theorem mapSet_cons_of_ne {p m : Control κ} (h : p.id ≠ m.id) (l : List (Control κ)) :
    mapSet Control.id (p :: l) m = p :: mapSet Control.id l m := by
  unfold mapSet
  rw [List.any_cons, List.map_cons, if_neg h, decide_eq_false h, Bool.false_or]
  split
  · rfl
  · rfl

theorem mapSet_cons_of_eq {p m : Control κ} (h : p.id = m.id) (l : List (Control κ)) :
    mapSet Control.id (p :: l) m = m :: l.map fun b => if b.id = m.id then m else b := by
  unfold mapSet
  rw [List.any_cons, List.map_cons, if_pos h, decide_eq_true h, Bool.true_or, if_pos rfl]

theorem lastOf_replace {k : κ} {m : Control κ} (h : m.id ≠ k) (l : List (Control κ)) :
    lastOf k (l.map fun b => if b.id = m.id then m else b) = lastOf k l := by
  induction l with
  | nil => rfl
  | cons p l ih =>
    rw [List.map_cons, lastOf_cons, lastOf_cons, ih]
    by_cases hp : p.id = m.id
    · rw [if_pos hp, if_neg h, if_neg (hp ▸ h)]
    · rw [if_neg hp]

/-- What is set is the last about its key, and what is said about the others stays. -/
theorem lastOf_mapSet (k : κ) (m : Control κ) (l : List (Control κ)) :
    lastOf k (mapSet Control.id l m) = if m.id = k then some m.down else lastOf k l := by
  induction l with
  | nil => exact lastOf_cons k m []
  | cons p l ih =>
    by_cases hp : p.id = m.id
    · rw [mapSet_cons_of_eq hp, lastOf_cons]
      by_cases hm : m.id = k
      · rw [if_pos hm, if_pos hm]
      · rw [if_neg hm, if_neg hm, lastOf_replace hm, lastOf_cons, if_neg (hp ▸ hm)]
    · rw [mapSet_cons_of_ne hp, lastOf_cons, lastOf_cons, ih]
      by_cases hk : p.id = k
      · rw [if_pos hk, if_pos hk, if_neg fun hm => hp (hk.trans hm.symm)]
      · rw [if_neg hk, if_neg hk]

theorem lastOf_mapDelete {k : κ} {m : Control κ} (h : m.id ≠ k) (l : List (Control κ)) :
    lastOf k (mapDelete Control.id l m) = lastOf k l := by
  unfold mapDelete
  induction l with
  | nil => rfl
  | cons p l ih =>
    rw [List.filter_cons, lastOf_cons]
    by_cases hp : p.id = m.id
    · rw [if_neg (by simpa using hp), ih, if_neg (hp ▸ h)]
    · rw [if_pos (by simpa using hp), lastOf_cons, ih]

theorem exists_of_lastOf {k : κ} {d : Bool} {l : List (Control κ)} (h : lastOf k l = some d) :
    ∃ m ∈ l, m.id = k ∧ m.down = d := by
  obtain ⟨m, hm, hd⟩ := Option.map_eq_some_iff.1 h
  exact ⟨m, List.mem_of_find?_eq_some hm, by simpa using List.find?_some hm, hd⟩

theorem exists_lastOf {m : Control κ} {l : List (Control κ)} (h : m ∈ l) : ∃ d, lastOf m.id l = some d := by
  rw [← Option.isSome_iff_exists, lastOf, Option.isSome_map, List.find?_isSome]
  exact ⟨m, h, decide_eq_true rfl⟩

namespace Line

/-- **What is pending is the latest, and what is due is pending or was the last transmitted.** -/
structure Sound (l : Line κ) : Prop where
  latest : ∀ m ∈ l.pending, lastOf m.id l.submitted = some m.down
  settled : l.Settled

/-- The same but for the key of `m`, the last message about it, which is still to be kept or transmitted. -/
structure Owes (l : Line κ) (m : Control κ) : Prop where
  last : lastOf m.id l.submitted = some m.down
  latest : ∀ p ∈ l.pending, p.id ≠ m.id → lastOf p.id l.submitted = some p.down
  settled : ∀ k d, k ≠ m.id → l.Due k → lastOf k l.submitted = some d →
    lastOf k l.pending = some d ∨ lastOf k l.transmitted = some d

variable {l : Line κ} {m : Control κ}

theorem owes_submit (h : l.Sound) (m : Control κ) : (l.submit m).Owes m where
  last := by rw [submit, lastOf_cons, if_pos rfl]
  latest p hp hid := by
    rw [submit, lastOf_cons, if_neg (Ne.symm hid)]
    exact h.latest p hp
  settled k d hk hdue hlast := by
    rw [submit, lastOf_cons, if_neg (Ne.symm hk)] at hlast
    refine h.settled k d ?_ hlast
    rcases hdue with ⟨p, hp, hid⟩ | hdue
    · rcases List.mem_cons.1 hp with rfl | hp
      · exact absurd hid.symm hk
      · exact .inl ⟨p, hp, hid⟩
    · exact .inr hdue

theorem owes_delete (h : l.Sound) (hlast : lastOf m.id l.submitted = some m.down) : (l.delete m).Owes m where
  last := hlast
  latest p hp _ := h.latest p (mem_mapDelete hp).1
  settled k d hk hdue hlast := by
    rw [delete, lastOf_mapDelete (Ne.symm hk)]
    exact h.settled k d hdue hlast

theorem sound_set (h : l.Owes m) : (l.set m).Sound where
  latest p hp := by
    rcases mem_mapSet hp with rfl | ⟨hp, hid⟩
    · exact h.last
    · exact h.latest p hp hid
  settled k d hdue hlast := by
    rw [set, lastOf_mapSet]
    by_cases hk : m.id = k
    · subst hk
      rw [if_pos rfl]
      exact .inl (h.last.symm.trans hlast)
    · rw [if_neg hk]
      exact h.settled k d (Ne.symm hk) hdue hlast

theorem sound_transmit (h : l.Owes m) (hnone : ∀ p ∈ l.pending, p.id ≠ m.id) : (l.transmit m).Sound where
  latest p hp := h.latest p hp (hnone p hp)
  settled k d hdue hlast := by
    rw [transmit, lastOf_cons]
    by_cases hk : m.id = k
    · subst hk
      rw [if_pos rfl]
      exact .inr (h.last.symm.trans hlast)
    · rw [if_neg hk]
      exact h.settled k d (Ne.symm hk) hdue hlast

/-- What is held is pending as pressed once the channel opens. -/
theorem sound_reopen (h : l.Sound) (hheld : ∀ k ∈ l.held, lastOf k l.submitted = some true) : l.reopen.Sound := by
  have hlatest : ∀ (held : List κ) (pending : List (Control κ)), (∀ k ∈ held, lastOf k l.submitted = some true) →
      (∀ m ∈ pending, lastOf m.id l.submitted = some m.down) →
        ∀ m ∈ held.foldl (fun pending k => mapSet Control.id pending ⟨k, true⟩) pending,
          lastOf m.id l.submitted = some m.down := by
    intro held
    induction held with
    | nil => exact fun _ _ hpending => hpending
    | cons k held ih =>
      intro pending hheld hpending
      refine ih _ (fun k hk => hheld k (List.mem_cons_of_mem _ hk)) fun m hm => ?_
      rcases mem_mapSet hm with rfl | ⟨hm, -⟩
      · exact hheld k List.mem_cons_self
      · exact hpending m hm
  refine ⟨hlatest _ _ hheld h.latest, fun k d hdue hlast => ?_⟩
  rcases hdue with ⟨_, hm, -⟩ | ⟨m, hm, rfl⟩
  · cases hm
  · obtain ⟨d', hd'⟩ := exists_lastOf hm
    obtain ⟨p, hp, hid, rfl⟩ := exists_of_lastOf hd'
    have hp' := hlatest _ _ hheld h.latest p hp
    rw [hid] at hp'
    exact .inl (hd'.trans (hp'.symm.trans hlast))

end Line

end

/-! ## What the page does to its stores -/

namespace Sender

section
variable {Code Button Wheel Move : Type} {s t u : Sender Code Button Wheel Move}

/-- Nothing is submitted, and the key channel is open as before. -/
structure Keeps (s t : Sender Code Button Wheel Move) : Prop where
  keyOpen : t.keyOpen = s.keyOpen
  keysHeld : t.keys.held = s.keys.held
  keysSubmitted : t.keys.submitted = s.keys.submitted
  buttonsHeld : t.buttons.held = s.buttons.held
  buttonsSubmitted : t.buttons.submitted = s.buttons.submitted

theorem Keeps.refl (s : Sender Code Button Wheel Move) : Keeps s s := ⟨rfl, rfl, rfl, rfl, rfl⟩

theorem Keeps.trans (h : Keeps s t) (h' : Keeps t u) : Keeps s u :=
  ⟨h'.keyOpen.trans h.keyOpen, h'.keysHeld.trans h.keysHeld, h'.keysSubmitted.trans h.keysSubmitted,
    h'.buttonsHeld.trans h.buttonsHeld, h'.buttonsSubmitted.trans h.buttonsSubmitted⟩

/-- The sender with other channels. -/
def wire (s : Sender Code Button Wheel Move) (dataChannel mouseChannel : Option DataChannel) (sends : Nat) :
    Sender Code Button Wheel Move :=
  { s with dataChannel := dataChannel, mouseChannel := mouseChannel, sends := sends }

/-- `send` changes the channels only. -/
theorem send_eq (answer : Nat → Option Nat) (s : Sender Code Button Wheel Move) (mouse : Bool) :
    ∃ dataChannel mouseChannel sends ok, send answer s mouse = (s.wire dataChannel mouseChannel sends, ok) ∧
      dataChannel.any (·.isOpen) = s.keyOpen := by
  unfold send
  split
  · exact ⟨s.dataChannel, s.mouseChannel, _, false, rfl, rfl⟩
  · split
    · exact ⟨s.dataChannel, _, _, true, rfl, rfl⟩
    · refine ⟨_, s.mouseChannel, _, true, rfl, ?_⟩
      unfold keyOpen
      cases s.dataChannel <;> rfl

end

section
variable {Code Button Wheel Move : Type} [DecidableEq Code] [DecidableEq Button] (merge : Wheel → Wheel → Wheel)
  (answer : Nat → Option Nat) {s t u : Sender Code Button Wheel Move}

structure Sound (s : Sender Code Button Wheel Move) : Prop where
  keys : s.keys.Sound
  buttons : s.buttons.Sound

/-! ### Keys -/

theorem transmitKeyEvent_spec {m : Control Code} (ho : s.keyOpen = true) (hm : s.keys.Owes m)
    (hnone : ∀ p ∈ s.keys.pending, p.id ≠ m.id) (hb : s.buttons.Sound) :
    Keeps s (transmitKeyEvent answer s m).1 ∧ (transmitKeyEvent answer s m).1.Sound := by
  obtain ⟨_, _, _, ok, hsend, hopen⟩ := send_eq answer s false
  unfold transmitKeyEvent
  rw [if_pos ho, hsend]
  cases ok with
  | true => exact ⟨⟨hopen, rfl, rfl, rfl, rfl⟩, Line.sound_transmit hm hnone, hb⟩
  | false => exact ⟨⟨hopen, rfl, rfl, rfl, rfl⟩, Line.sound_set hm, hb⟩

theorem flushKeys_spec : ∀ (ms : List (Control Code)) {s : Sender Code Button Wheel Move}, s.keyOpen = true → s.Sound →
    (∀ m ∈ ms, lastOf m.id s.keys.submitted = some m.down) → Keeps s (flushKeys answer ms s) ∧ (flushKeys answer ms s).Sound
  | [], s, _, h, _ => ⟨.refl s, h⟩
  | m :: rest, s, ho, h, hlast => by
    have hdeleted : Keeps s { s with keys := s.keys.delete m } := ⟨rfl, rfl, rfl, rfl, rfl⟩
    obtain ⟨hsent, hsound⟩ := transmitKeyEvent_spec answer (s := { s with keys := s.keys.delete m }) ho
      (Line.owes_delete h.keys (hlast m List.mem_cons_self)) (fun _ hp => (mem_mapDelete hp).2) h.buttons
    have hkeeps := hdeleted.trans hsent
    unfold flushKeys
    dsimp only
    split
    · exact ⟨.refl s, h⟩
    · split
      · obtain ⟨hkeeps', hsound'⟩ := flushKeys_spec rest (hkeeps.keyOpen.trans ho) hsound fun p hp => by
          rw [hkeeps.keysSubmitted]
          exact hlast p (List.mem_cons_of_mem m hp)
        exact ⟨hkeeps.trans hkeeps', hsound'⟩
      · exact ⟨hkeeps, hsound⟩

theorem flushPendingKeyEvents_spec (h : s.Sound) :
    Keeps s (flushPendingKeyEvents answer s) ∧ (flushPendingKeyEvents answer s).Sound := by
  unfold flushPendingKeyEvents
  split
  · exact flushKeys_spec answer _ ‹_› h h.keys.latest
  · exact ⟨.refl s, h⟩

/-- A key message is submitted and kept, or transmitted; nothing else is submitted. -/
theorem sendKeyPress_spec (h : s.Sound) (m : Control Code) :
    Keeps { s with keys := s.keys.submit m } (sendKeyPress answer s m) ∧ (sendKeyPress answer s m).Sound := by
  have howes := Line.owes_submit h.keys m
  unfold sendKeyPress
  dsimp only
  split
  · have hset : Keeps { s with keys := s.keys.submit m } { s with keys := (s.keys.submit m).set m } :=
      ⟨rfl, rfl, rfl, rfl, rfl⟩
    obtain ⟨hkeeps, hsound⟩ := flushPendingKeyEvents_spec answer (s := { s with keys := (s.keys.submit m).set m })
      ⟨Line.sound_set howes, h.buttons⟩
    exact ⟨hset.trans hkeeps, hsound⟩
  · rename_i hdirect
    simp only [Bool.or_eq_true, Bool.not_eq_true', not_or, Bool.not_eq_false, List.isEmpty_iff] at hdirect
    obtain ⟨⟨ho, -⟩, hempty⟩ := hdirect
    refine transmitKeyEvent_spec answer (s := { s with keys := s.keys.submit m }) ho howes ?_ h.buttons
    dsimp only
    rw [hempty]
    exact fun _ hp => by cases hp

/-! ### The mouse -/

theorem transmitButton_spec {m : Control Button} (ho : s.keyOpen = true) (hm : s.buttons.Owes m)
    (hnone : ∀ p ∈ s.buttons.pending, p.id ≠ m.id) (hk : s.keys.Sound) :
    Keeps s (transmitMouseEvent answer s (.button m)).1 ∧ (transmitMouseEvent answer s (.button m)).1.Sound := by
  obtain ⟨_, _, _, ok, hsend, hopen⟩ := send_eq answer s false
  have ho' : (if (PointerData.button m : PointerData Button Wheel Move).isMove then s.mouseOpen else s.keyOpen) = true := ho
  unfold transmitMouseEvent
  rw [if_pos ho']
  dsimp only [PointerData.isMove]
  rw [hsend]
  cases ok with
  | true => exact ⟨⟨hopen, rfl, rfl, rfl, rfl⟩, hk, Line.sound_transmit hm hnone⟩
  | false => exact ⟨⟨hopen, rfl, rfl, rfl, rfl⟩, hk, Line.sound_set hm⟩

/-- The wheel and the pointer leave the stores as they are. -/
theorem transmitOther_spec {m : PointerData Button Wheel Move} (hm : ∀ b, m ≠ .button b) (h : s.Sound) :
    Keeps s (transmitMouseEvent answer s m).1 ∧ (transmitMouseEvent answer s m).1.Sound := by
  obtain ⟨_, _, _, ok, hsend, hopen⟩ := send_eq answer s m.isMove
  unfold transmitMouseEvent
  by_cases ho : (if m.isMove then s.mouseOpen else s.keyOpen) = true
  · rw [if_pos ho, hsend]
    cases m with
    | button b => exact absurd rfl (hm b)
    | move m | wheel m =>
      cases ok with
      | true => exact ⟨⟨hopen, rfl, rfl, rfl, rfl⟩, h.keys, h.buttons⟩
      | false => exact ⟨⟨hopen, rfl, rfl, rfl, rfl⟩, h.keys, h.buttons⟩
  · rw [if_neg ho]
    exact ⟨.refl s, h⟩

theorem flushButtons_spec : ∀ (ms : List (Control Button)) {s : Sender Code Button Wheel Move}, s.keyOpen = true →
    s.Sound → (∀ m ∈ ms, lastOf m.id s.buttons.submitted = some m.down) →
      Keeps s (flushButtons answer ms s).1 ∧ (flushButtons answer ms s).1.Sound
  | [], s, _, h, _ => ⟨.refl s, h⟩
  | m :: rest, s, ho, h, hlast => by
    have hdeleted : Keeps s { s with buttons := s.buttons.delete m } := ⟨rfl, rfl, rfl, rfl, rfl⟩
    obtain ⟨hsent, hsound⟩ := transmitButton_spec answer (s := { s with buttons := s.buttons.delete m }) ho
      (Line.owes_delete h.buttons (hlast m List.mem_cons_self)) (fun _ hp => (mem_mapDelete hp).2) h.keys
    have hkeeps := hdeleted.trans hsent
    unfold flushButtons
    dsimp only
    split
    · exact ⟨.refl s, h⟩
    · split
      · obtain ⟨hkeeps', hsound'⟩ := flushButtons_spec rest (hkeeps.keyOpen.trans ho) hsound fun p hp => by
          rw [hkeeps.buttonsSubmitted]
          exact hlast p (List.mem_cons_of_mem m hp)
        exact ⟨hkeeps.trans hkeeps', hsound'⟩
      · exact ⟨hkeeps, hsound⟩

theorem flushWheel_spec (h : s.Sound) : Keeps s (flushWheel answer s).1 ∧ (flushWheel answer s).1.Sound := by
  unfold flushWheel
  split
  · rename_i wheel _
    split
    · exact ⟨.refl s, h⟩
    · have htaken : Keeps s { s with pendingMouseWheel := none } := ⟨rfl, rfl, rfl, rfl, rfl⟩
      obtain ⟨hkeeps, hsound⟩ := transmitOther_spec answer (s := { s with pendingMouseWheel := none }) (m := .wheel wheel)
        (fun b hb => by cases hb) ⟨h.keys, h.buttons⟩
      exact ⟨htaken.trans hkeeps, hsound⟩
  · exact ⟨.refl s, h⟩

theorem flushMove_spec (h : s.Sound) : Keeps s (flushMove answer s) ∧ (flushMove answer s).Sound := by
  unfold flushMove
  split
  · rename_i move _
    split
    · have htaken : Keeps s { s with pendingMouseMove := none } := ⟨rfl, rfl, rfl, rfl, rfl⟩
      obtain ⟨hkeeps, hsound⟩ := transmitOther_spec answer (s := { s with pendingMouseMove := none }) (m := .move move)
        (fun b hb => by cases hb) ⟨h.keys, h.buttons⟩
      exact ⟨htaken.trans hkeeps, hsound⟩
    · exact ⟨.refl s, h⟩
  · exact ⟨.refl s, h⟩

theorem flushPendingMouseEvents_spec (h : s.Sound) :
    Keeps s (flushPendingMouseEvents answer s) ∧ (flushPendingMouseEvents answer s).Sound := by
  unfold flushPendingMouseEvents
  split
  · rename_i ho
    obtain ⟨hbuttons, hsound⟩ := flushButtons_spec answer s.buttons.pending ho h h.buttons.latest
    obtain ⟨hwheel, hsound'⟩ := flushWheel_spec answer hsound
    obtain ⟨hmove, hsound''⟩ := flushMove_spec answer hsound'
    dsimp only
    split
    · split
      · exact ⟨(hbuttons.trans hwheel).trans hmove, hsound''⟩
      · exact ⟨hbuttons.trans hwheel, hsound'⟩
    · exact ⟨hbuttons, hsound⟩
  · exact flushMove_spec answer h

/-- A button message is submitted, and kept or transmitted. -/
theorem sendButton_spec (h : s.Sound) (m : Control Button) :
    Keeps { s with buttons := s.buttons.submit m } (sendMouseEvent merge answer s (.button m)) ∧
      (sendMouseEvent merge answer s (.button m)).Sound := by
  have howes := Line.owes_submit h.buttons m
  have heq : sendMouseEvent merge answer s (.button m) =
      if !s.keyOpen || s.keyFull || (!s.buttons.pending.isEmpty || s.pendingMouseWheel.isSome) then
        flushPendingMouseEvents answer { s with buttons := (s.buttons.submit m).set m }
      else (transmitMouseEvent answer { s with buttons := s.buttons.submit m } (.button m)).1 := rfl
  rw [heq]
  split
  · have hset : Keeps { s with buttons := s.buttons.submit m } { s with buttons := (s.buttons.submit m).set m } :=
      ⟨rfl, rfl, rfl, rfl, rfl⟩
    obtain ⟨hkeeps, hsound⟩ := flushPendingMouseEvents_spec answer
      (s := { s with buttons := (s.buttons.submit m).set m }) ⟨h.keys, Line.sound_set howes⟩
    exact ⟨hset.trans hkeeps, hsound⟩
  · rename_i hdirect
    simp only [Bool.or_eq_true, Bool.not_eq_true', not_or, Bool.not_eq_false, List.isEmpty_iff] at hdirect
    obtain ⟨⟨ho, -⟩, hempty, -⟩ := hdirect
    refine transmitButton_spec answer (s := { s with buttons := s.buttons.submit m }) ho howes ?_ h.keys
    dsimp only [Line.submit]
    rw [hempty]
    exact fun _ hp => by cases hp

theorem sendOther_spec {m : PointerData Button Wheel Move} (hm : ∀ b, m ≠ .button b) (h : s.Sound) :
    Keeps s (sendMouseEvent merge answer s m) ∧ (sendMouseEvent merge answer s m).Sound := by
  have hcoalesce : Keeps s (s.coalesce merge m) ∧ (s.coalesce merge m).Sound := by
    unfold coalesce
    cases m with
    | button b => exact absurd rfl (hm b)
    | move m => exact ⟨⟨rfl, rfl, rfl, rfl, rfl⟩, h.keys, h.buttons⟩
    | wheel m =>
      dsimp only
      split
      · exact ⟨⟨rfl, rfl, rfl, rfl, rfl⟩, h.keys, h.buttons⟩
      · exact ⟨⟨rfl, rfl, rfl, rfl, rfl⟩, h.keys, h.buttons⟩
  have hsubmitted : s.submitted m = s := by
    cases m with
    | button b => exact absurd rfl (hm b)
    | move m | wheel m => rfl
  obtain ⟨hflush, hsound⟩ := flushPendingMouseEvents_spec answer hcoalesce.2
  unfold sendMouseEvent
  rw [hsubmitted]
  dsimp only
  generalize (!(if m.isMove then s.mouseOpen else s.keyOpen) || (if m.isMove then s.mouseFull else s.keyFull) ||
    if m.isMove then s.pendingMouseMove.isSome else !s.buttons.pending.isEmpty || s.pendingMouseWheel.isSome) = kept
  cases kept with
  | true => exact ⟨hcoalesce.1.trans hflush, hsound⟩
  | false => exact transmitOther_spec answer hm h

/-! ### The events -/

/-- What is held was last submitted as pressed. -/
structure Held (s : Sender Code Button Wheel Move) : Prop where
  keys : ∀ k ∈ s.keys.held, lastOf k s.keys.submitted = some true
  buttons : ∀ k ∈ s.buttons.held, lastOf k s.buttons.submitted = some true

theorem Keeps.held (hkeeps : Keeps s t) (h : s.Held) : t.Held where
  keys := by
    rw [hkeeps.keysHeld, hkeeps.keysSubmitted]
    exact h.keys
  buttons := by
    rw [hkeeps.buttonsHeld, hkeeps.buttonsSubmitted]
    exact h.buttons

end

end Sender

/-- The callers hold a key from the message that presses it to the one that releases it. -/
theorem Line.held_submit_hold {κ : Type} [DecidableEq κ] {l : Line κ} (h : ∀ k ∈ l.held, lastOf k l.submitted = some true)
    (m : Control κ) : ∀ k ∈ ((l.hold m).submit m).held, lastOf k ((l.hold m).submit m).submitted = some true := by
  intro k hk
  dsimp only [Line.submit, Line.hold] at hk ⊢
  rw [lastOf_cons]
  cases hd : m.down with
  | true =>
    rw [hd, if_pos rfl] at hk
    by_cases hid : m.id = k
    · rw [if_pos hid]
    · rw [if_neg hid]
      rcases mem_mapSet hk with rfl | ⟨hk, -⟩
      · exact absurd rfl hid
      · exact h k hk
  | false =>
    rw [hd, if_neg Bool.false_ne_true] at hk
    obtain ⟨hk, hid⟩ := mem_mapDelete hk
    rw [if_neg (Ne.symm hid)]
    exact h k hk

namespace Sender

section
variable {Code Button Wheel Move : Type} [DecidableEq Code] [DecidableEq Button] (merge : Wheel → Wheel → Wheel)
  (answer : Nat → Option Nat) {s t u : Sender Code Button Wheel Move}

/-- What holds between any two events. -/
structure Inv (s : Sender Code Button Wheel Move) : Prop where
  sound : s.Sound
  held : s.Held

theorem releaseAllPressedKeys_inv (h : s.Inv) : (releaseAllPressedKeys answer s).Inv := by
  have hfold : ∀ (ks : List Code) {s : Sender Code Button Wheel Move}, s.Sound →
      (∀ b ∈ s.buttons.held, lastOf b s.buttons.submitted = some true) →
        let released := ks.foldl (fun s k => sendKeyPress answer s ⟨k, false⟩) s
        released.Sound ∧ ∀ b ∈ released.buttons.held, lastOf b released.buttons.submitted = some true := by
    intro ks
    induction ks with
    | nil => exact fun hs hb => ⟨hs, hb⟩
    | cons k ks ih =>
      intro s hs hb
      obtain ⟨hkeeps, hsound⟩ := sendKeyPress_spec answer hs ⟨k, false⟩
      refine ih hsound ?_
      rw [hkeeps.buttonsHeld, hkeeps.buttonsSubmitted]
      exact hb
  obtain ⟨hsound, hbuttons⟩ := hfold s.keys.held h.sound h.held.buttons
  exact ⟨⟨⟨hsound.keys.latest, hsound.keys.settled⟩, hsound.buttons⟩, (fun _ hk => by cases hk), hbuttons⟩

theorem releaseAllPressedMouseButtons_inv (h : s.Inv) : (releaseAllPressedMouseButtons merge answer s).Inv := by
  have hfold : ∀ (bs : List Button) {s : Sender Code Button Wheel Move}, s.Sound →
      (∀ k ∈ s.keys.held, lastOf k s.keys.submitted = some true) →
        let released := bs.foldl (fun s b => sendMouseEvent merge answer s (.button ⟨b, false⟩)) s
        released.Sound ∧ ∀ k ∈ released.keys.held, lastOf k released.keys.submitted = some true := by
    intro bs
    induction bs with
    | nil => exact fun hs hk => ⟨hs, hk⟩
    | cons b bs ih =>
      intro s hs hk
      obtain ⟨hkeeps, hsound⟩ := sendButton_spec merge answer hs ⟨b, false⟩
      refine ih hsound ?_
      rw [hkeeps.keysHeld, hkeeps.keysSubmitted]
      exact hk
  obtain ⟨hsound, hkeys⟩ := hfold s.buttons.held h.sound h.held.keys
  exact ⟨⟨hsound.keys, ⟨hsound.buttons.latest, hsound.buttons.settled⟩⟩, hkeys, (fun _ hb => by cases hb)⟩

/-- An event that touches neither line. -/
theorem Inv.of_lines (h : s.Inv) (hkeys : t.keys = s.keys) (hbuttons : t.buttons = s.buttons) : t.Inv := by
  refine ⟨⟨?_, ?_⟩, ?_, ?_⟩
  · rw [hkeys]
    exact h.sound.keys
  · rw [hbuttons]
    exact h.sound.buttons
  · rw [hkeys]
    exact h.held.keys
  · rw [hbuttons]
    exact h.held.buttons

theorem inv_of_flush (h : s.Inv) (ht : Keeps s t ∧ t.Sound) : t.Inv := ⟨ht.2, ht.1.held h.held⟩

theorem onopen_inv (h : s.Inv) : (onopen answer s).Inv := by
  have hreopened : Inv { s with keys := s.keys.reopen, buttons := s.buttons.reopen } :=
    ⟨⟨Line.sound_reopen h.sound.keys h.held.keys, Line.sound_reopen h.sound.buttons h.held.buttons⟩,
      h.held.keys, h.held.buttons⟩
  have hkeys := inv_of_flush hreopened (flushPendingKeyEvents_spec answer hreopened.sound)
  exact inv_of_flush hkeys (flushPendingMouseEvents_spec answer hkeys.sound)

theorem inv_step {e : SenderEvent Code Button Wheel Move} (h : s.Inv) (hs : step merge answer s e = some t) : t.Inv := by
  cases e with
  | createPeerConnection =>
    simp only [step, Option.ite_none_right_eq_some] at hs
    obtain ⟨-, ⟨⟩⟩ := hs
    exact h.of_lines rfl rfl
  | dataChannelOpen =>
    obtain ⟨c, -, rfl⟩ := Option.map_eq_some_iff.1 hs
    exact onopen_inv answer (h.of_lines rfl rfl)
  | mouseChannelOpen =>
    obtain ⟨c, -, rfl⟩ := Option.map_eq_some_iff.1 hs
    have hopened : Inv { s with mouseChannel := some { c with isOpen := true } } := h.of_lines rfl rfl
    exact inv_of_flush hopened (flushPendingMouseEvents_spec answer hopened.sound)
  | channelClosed mouse | bufferedAmount mouse amount =>
    simp only [step] at hs
    split at hs
    · obtain ⟨c, -, rfl⟩ := Option.map_eq_some_iff.1 hs
      exact h.of_lines rfl rfl
    · obtain ⟨c, -, rfl⟩ := Option.map_eq_some_iff.1 hs
      exact h.of_lines rfl rfl
  | flushPendingKeyEvents =>
    obtain rfl := Option.some.inj hs
    exact inv_of_flush h (flushPendingKeyEvents_spec answer h.sound)
  | flushPendingMouseEvents =>
    obtain rfl := Option.some.inj hs
    exact inv_of_flush h (flushPendingMouseEvents_spec answer h.sound)
  | signalingClosed =>
    obtain rfl := Option.some.inj hs
    have hreleased := releaseAllPressedMouseButtons_inv merge answer (releaseAllPressedKeys_inv answer h)
    exact hreleased.of_lines rfl rfl
  | sendKeyPress m =>
    obtain rfl := Option.some.inj hs
    have hsound : Sound { s with keys := s.keys.hold m } :=
      ⟨⟨h.sound.keys.latest, h.sound.keys.settled⟩, h.sound.buttons⟩
    obtain ⟨hkeeps, hsound'⟩ := sendKeyPress_spec answer hsound m
    exact ⟨hsound', hkeeps.held ⟨Line.held_submit_hold h.held.keys m, h.held.buttons⟩⟩
  | sendMouseEvent m =>
    obtain rfl := Option.some.inj hs
    cases m with
    | button m =>
      have hsound : Sound { s with buttons := s.buttons.hold m } :=
        ⟨h.sound.keys, ⟨h.sound.buttons.latest, h.sound.buttons.settled⟩⟩
      obtain ⟨hkeeps, hsound'⟩ := sendButton_spec merge answer hsound m
      exact ⟨hsound', hkeeps.held ⟨h.held.keys, Line.held_submit_hold h.held.buttons m⟩⟩
    | move m | wheel m => exact inv_of_flush h (sendOther_spec merge answer (fun b hb => by cases hb) h.sound)
  | releaseAllPressedInput =>
    obtain rfl := Option.some.inj hs
    exact releaseAllPressedMouseButtons_inv merge answer (releaseAllPressedKeys_inv answer h)

end

end Sender

/-! ## Convergence -/

section
variable {Code Button Wheel Move : Type} [DecidableEq Code] [DecidableEq Button]

theorem Line.delivered_of_settled {κ : Type} [DecidableEq κ] {l : Line κ} (h : l.Settled) (hempty : l.pending = []) :
    l.Delivered := by
  intro k d hdue hlast
  rcases h k d hdue hlast with hp | ht
  · rw [hempty] at hp
    cases hp
  · exact ht

/-- Every key and button is settled, and delivered once nothing is pending. -/
structure Sender.Converges (s : Sender Code Button Wheel Move) : Prop where
  keys : s.keys.Settled
  buttons : s.buttons.Settled
  delivered : s.keys.pending = [] → s.buttons.pending = [] → s.keys.Delivered ∧ s.buttons.Delivered

/-- **The page converges in every run.** -/
theorem Sender.converges_throughout (merge : Wheel → Wheel → Wheel) (answer : Nat → Option Nat)
    (es : List (SenderEvent Code Button Wheel Move)) : Throughout (step merge answer) Converges {} es := by
  have hinit : ({} : Sender Code Button Wheel Move).Inv := by
    have hline : ∀ {κ : Type} [DecidableEq κ], ({} : Line κ).Sound := by
      intro κ _
      refine ⟨(fun m hm => by cases hm), fun k d hdue _ => ?_⟩
      rcases hdue with ⟨m, hm, -⟩ | ⟨m, hm, -⟩
      · cases hm
      · cases hm
    exact ⟨⟨hline, hline⟩, (fun _ hk => by cases hk), (fun _ hk => by cases hk)⟩
  have hinv : Throughout (step merge answer) Inv {} es :=
    Throughout.of_along (fun _ _ _ h _ hs => inv_step merge answer h hs) hinit along_true
  refine hinv.mono fun s h => ⟨h.sound.keys.settled, h.sound.buttons.settled, fun hk hb => ?_⟩
  exact ⟨Line.delivered_of_settled h.sound.keys.settled hk, Line.delivered_of_settled h.sound.buttons.settled hb⟩

end

end Client
end CloudGaming
