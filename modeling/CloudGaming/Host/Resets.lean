import CloudGaming.Async.Along
import CloudGaming.Host.HeldKeys
/-!
# Resets — the state manager, while other threads release everything

The input thread checks an event, records it and forwards it, in three steps; other threads release keys in one step and
forward the releases one by one.  Every section under the lock of the states and every call of the callback is one step.
-/
namespace CloudGaming
namespace Host
namespace StateManager

open Async

/-! ## What is forwarded -/

/-- A key or a button. -/
inductive Held where
  | key (jsCode : String)
  | button (button : Int)
  deriving DecidableEq

/-- What a forwarded event says of a key or a button: that it comes down, or up. -/
def Fired.edge? (f : Fired) : Option (Held × Bool) :=
  if f.eventType ∈ ["keydown", "keyup", "emergency_keyup", "stuck_key_recovery"] then
    ((f.data.field? "code").bind Json.str?).map fun c => (.key c, f.eventType = "keydown")
  else if f.eventType ∈ ["mousedown", "mouseup"] then
    ((f.data.field? "button").bind Json.int32?).map fun b => (.button b, f.eventType = "mousedown")
  else none

/-- The last event forwarded for a key or a button; the newest event comes first. -/
def lastEdge (forwarded : List Fired) (h : Held) : Option Bool :=
  ((forwarded.filterMap Fired.edge?).find? (·.1 = h)).map Prod.snd

/-- One of the events releases it. -/
def Releasing (events : List Fired) (h : Held) : Prop := ∃ f ∈ events, f.edge? = some (h, false)

namespace Manager

/-- It is recorded as `Pressed`. -/
def presses (m : Manager) : Held → Bool
  | .key c => m.getKeyState c = .pressed
  | .button b => m.getMouseButtonState b = .pressed

/-- `updateKeyState` and `updateMouseButtonState`. -/
def update (m : Manager) (h : Held) (down : Bool) : Manager :=
  match h with
  | .key c => m.updateKeyState c (if down then .pressed else .released)
  | .button b => m.updateMouseButtonState b (if down then .pressed else .released)

def recoveryEvent (now : Nat) (jsCode : String) : Json :=
  .obj [("action", .str "synthetic_keyup"), ("code", .str jsCode), ("timestamp", .int now), ("type", .str "keyup")]

/-- The section of `checkForStuckKeys`: the pressed keys that the clock finds held for too long. -/
def checkForStuckKeys (m : Manager) (timedOut : String → Bool) (now : Nat) (walk : Walk String) : Manager × List Fired :=
  let keys := walk.order (m.keyStates.keys.filter fun c => m.getKeyState c = .pressed && timedOut c)
  (keys.foldl (fun m c => m.updateKeyState c .released) m,
    keys.map fun c => ⟨"stuck_key_recovery", recoveryEvent now c⟩)

end Manager

/-! ## The threads -/

/-- Where the input thread stands: between two messages, before the update of an event that passed the check, or before a
call of the callback and others after it. -/
inductive InputCall where
  | idle
  | checked (h : Held) (down : Bool) (event : Fired)
  | forwarding (event : Fired) (rest : List Fired)

def InputCall.events : InputCall → List Fired
  | forwarding event rest => event :: rest
  | _ => []

def InputCall.forward : List Fired → InputCall
  | [] => .idle
  | event :: rest => .forwarding event rest

/-- The manager and its callers: the input thread, and the events that the other threads have yet to forward.  `forwarded`
is history. -/
structure Callers where
  manager : Manager := {}
  input : InputCall := .idle
  releases : Nat → List Fired := fun _ => []
  forwarded : List Fired := []

inductive CallerMove where
  -- `processInputMessage`, up to the end of its first section
  | receive (d : Delivery)
  -- `updateKeyState`, `updateMouseButtonState`
  | update
  -- the input thread calls the callback
  | forward
  -- the section of `emergencyReleaseAllKeys`, and of `checkForStuckKeys`, on the thread
  | release (thread : Nat) (d : Delivery) (reason : String)
  | recover (thread : Nat) (timedOut : String → Bool) (now : Nat) (walk : Walk String)
  -- the thread calls the callback
  | fire (thread : Nat)

namespace Manager

/-- The check of a keyboard event, with the read of the state. -/
def checkKeyboardEvent (m : Manager) (eventType : String) (eventData : Json) : InputCall :=
  match (eventData.field? "code").bind Json.str? with
  | none => .idle
  | some jsCode =>
    let state := if eventType = "keydown" then KeyState.pressed else .released
    if !KeyInput.isSupportedKeyCode jsCode then .idle
    else if m.getKeyState jsCode = state then .idle
    else .checked (.key jsCode) (eventType = "keydown") ⟨eventType, eventData⟩

/-- The same of a mouse event; one that moves the mouse records the position. -/
def checkMouseEvent (m : Manager) (eventType : String) (eventData : Json) : Manager × InputCall :=
  if eventType = "mousemove" then
    ({ m with currentMousePosition := clientPosition eventData }, .forwarding ⟨eventType, eventData⟩ [])
  else if eventType = "mousedown" || eventType = "mouseup" then
    match (eventData.field? "button").bind Json.int32? with
    | none => (m, .idle)
    | some button =>
      let state := if eventType = "mousedown" then MouseButtonState.pressed else .released
      if m.getMouseButtonState button = state then (m, .idle)
      else (m, .checked (.button button) (eventType = "mousedown") ⟨eventType, eventData⟩)
  else if eventType = "wheel" || eventType = "hwheel" then (m, .forwarding ⟨eventType, eventData⟩ [])
  else (m, .idle)

def checkInputMessage (m : Manager) (d : Delivery) : Manager × InputCall :=
  match InputSchema.accepted d.message with
  | none => (m, .idle)
  | some event =>
    if event.eventType = "input_reset" then
      match event.value.valueStr "reason" "transport_reset" with
      | none => (m, .idle)
      | some reason =>
        let (m', events) := m.emergencyReleaseAllKeys d reason
        (m', .forward events)
    else if event.eventType = "keydown" || event.eventType = "keyup" then
      (m, m.checkKeyboardEvent event.eventType event.value)
    else m.checkMouseEvent event.eventType event.value

end Manager

namespace Callers

/-- A step of one of the threads, where it can make it. -/
def step (s : Callers) : CallerMove → Option Callers
  | .receive d =>
    match s.input with
    | .idle =>
      let (manager, input) := s.manager.checkInputMessage d
      some { s with manager := manager, input := input }
    | _ => none
  | .update =>
    match s.input with
    | .checked h down event => some { s with manager := s.manager.update h down, input := .forwarding event [] }
    | _ => none
  | .forward =>
    match s.input with
    | .forwarding event rest => some { s with forwarded := event :: s.forwarded, input := .forward rest }
    | _ => none
  | .release thread d reason =>
    match s.releases thread with
    | [] =>
      let (manager, events) := s.manager.emergencyReleaseAllKeys d reason
      some { s with manager := manager, releases := Function.update s.releases thread events }
    | _ => none
  | .recover thread timedOut now walk =>
    match s.releases thread with
    | [] =>
      let (manager, events) := s.manager.checkForStuckKeys timedOut now walk
      some { s with manager := manager, releases := Function.update s.releases thread events }
    | _ => none
  | .fire thread =>
    match s.releases thread with
    | event :: rest =>
      some { s with
        forwarded := event :: s.forwarded
        releases := Function.update s.releases thread rest }
    | [] => none

/-- **With no call in progress, what is recorded as `Pressed` is what the last event forwarded for it left down.** -/
def Reflects (s : Callers) : Prop :=
  s.input = .idle → (∀ thread, s.releases thread = []) →
    ∀ h, s.manager.presses h = true ↔ lastEdge s.forwarded h = some true

/-- A release of it waits to be forwarded. -/
def Unfired (s : Callers) (h : Held) : Prop :=
  Releasing s.input.events h ∨ ∃ thread, Releasing (s.releases thread) h

/-- A press is forwarded while it is still recorded and no release of it waits, or while it is not and one does. -/
def InOrder (s : Callers) : CallerMove → Prop
  | .forward => ∀ event rest, s.input = .forwarding event rest → ∀ h, event.edge? = some (h, true) →
      (s.manager.presses h = true ↔ ¬s.Unfired h)
  | _ => True

end Callers

/-! ## The manager -/

variable {m m' : Manager}

theorem getMouseButtonState_updateMouseButtonState (m : Manager) (b : Int) (st : MouseButtonState) (d : Int) :
    (m.updateMouseButtonState b st).getMouseButtonState d = if d = b then st else m.getMouseButtonState d := by
  unfold Manager.updateMouseButtonState Manager.getMouseButtonState
  by_cases h : d = b
  · subst h
    rw [AList.lookup_insert, if_pos rfl]
    rfl
  · rw [AList.lookup_insert_ne h, if_neg h]

theorem presses_update (m : Manager) (h : Held) (down : Bool) (h' : Held) :
    (m.update h down).presses h' = if h' = h then down else m.presses h' := by
  cases h with
  | key c =>
    cases h' with
    | key c' =>
      simp only [Manager.presses, Manager.update, KeyInput.getKeyState_updateKeyState, Held.key.injEq]
      by_cases hc : c' = c
      · cases down <;> simp [hc]
      · simp [hc]
    | button b' =>
      rw [if_neg (by simp)]
      rfl
  | button b =>
    cases h' with
    | key c' =>
      rw [if_neg (by simp)]
      rfl
    | button b' =>
      simp only [Manager.presses, Manager.update, getMouseButtonState_updateMouseButtonState, Held.button.injEq]
      by_cases hb : b' = b
      · cases down <;> simp [hb]
      · simp [hb]

theorem getMouseButtonState_released : ∀ (l : List Int) (m : Manager) (b : Int),
    (l.foldl (fun m b => m.updateMouseButtonState b .released) m).getMouseButtonState b =
      if b ∈ l then .released else m.getMouseButtonState b
  | [], _, _ => rfl
  | d :: l, m, b => by
    rw [List.foldl_cons, getMouseButtonState_released l, getMouseButtonState_updateMouseButtonState]
    by_cases h : b = d <;> by_cases hl : b ∈ l <;> simp [h, hl]

theorem getMouseButtonState_keys : ∀ (l : List String) (m : Manager) (b : Int),
    (l.foldl (fun m c => m.updateKeyState c .released) m).getMouseButtonState b = m.getMouseButtonState b
  | [], _, _ => rfl
  | _ :: l, _, b => getMouseButtonState_keys l _ b

theorem mem_heldButtons (m : Manager) (b : Int) : b ∈ m.heldButtons ↔ m.getMouseButtonState b ≠ .released := by
  unfold Manager.heldButtons
  rw [List.mem_filter]
  refine ⟨fun ⟨_, h⟩ hr => by simp [hr] at h, fun h => ⟨?_, ?_⟩⟩
  · refine AList.mem_keys.1 (AList.lookup_isSome.1 ?_)
    unfold Manager.getMouseButtonState at h
    cases hl : m.mouseButtonStates.lookup b with
    | none => rw [hl] at h; exact absurd rfl h
    | some _ => rfl
  · cases hs : m.getMouseButtonState b with
    | released => exact absurd hs h
    | _ => simp

/-- The buttons that are held have numbers that read as themselves. -/
def Manager.Numbered (m : Manager) : Prop := ∀ b, m.getMouseButtonState b ≠ .released → (Json.int b).int32? = some b

/-- An `int` reads as itself. -/
theorem int32?_int32 {j : Json} {b : Int} (h : j.int32? = some b) : (Json.int b).int32? = some b := by
  have hrange : -2 ^ 31 ≤ b ∧ b < 2 ^ 31 := by
    unfold Json.int32? at h
    split at h
    · rename_i v
      cases v <;> simp at h <;> omega
    · obtain ⟨n, -, rfl⟩ := Option.map_eq_some_iff.1 h
      unfold Host.wrap
      omega
  change (Json.int b).int64?.map (Host.wrap 32) = some b
  change some (Host.wrap 32 (Host.wrap 64 b)) = some b
  congr 1
  unfold Host.wrap
  omega

/-! ## What a release does -/

/-- All the events are releases. -/
def Ups (events : List Fired) : Prop := ∀ f ∈ events, ∃ h, f.edge? = some (h, false)

/-- **What a release does**: it forwards releases only, of everything that is pressed and is not afterwards. -/
structure Releases (m m' : Manager) (events : List Fired) : Prop where
  ups : Ups events
  presses : ∀ h, m'.presses h = true ↔ m.presses h = true ∧ ¬Releasing events h
  numbered : m.Numbered → m'.Numbered

theorem edge_syntheticKeyup (now : Nat) (reason c : String) :
    Fired.edge? ⟨"emergency_keyup", Manager.syntheticKeyup now reason c⟩ = some (.key c, false) := rfl

theorem edge_recoveryEvent (now : Nat) (c : String) :
    Fired.edge? ⟨"stuck_key_recovery", Manager.recoveryEvent now c⟩ = some (.key c, false) := rfl

theorem edge_syntheticMouseup (now : Nat) (reason : String) (position : Int × Int) {b : Int}
    (hb : (Json.int b).int32? = some b) :
    Fired.edge? ⟨"mouseup", Manager.syntheticMouseup now reason position b⟩ = some (.button b, false) := by
  change ((Json.int b).int32?).map (fun b => (Held.button b, decide ("mouseup" = "mousedown"))) = _
  rw [hb]
  rfl

theorem releases_emergency (hm : m.Numbered) (d : Delivery) (reason : String) :
    Releases m (m.emergencyReleaseAllKeys d reason).1 (m.emergencyReleaseAllKeys d reason).2 := by
  have hkeys : ∀ c, (m.emergencyReleaseAllKeys d reason).1.getKeyState c = .released :=
    KeyInput.getKeyState_emergencyReleaseAllKeys m d reason
  have hbuttons : ∀ b, (m.emergencyReleaseAllKeys d reason).1.getMouseButtonState b = .released := by
    intro b
    unfold Manager.emergencyReleaseAllKeys
    dsimp only
    rw [getMouseButtonState_released, getMouseButtonState_keys]
    split
    · rfl
    · rename_i h
      rw [(d.buttons.perm _).mem_iff, mem_heldButtons, not_not] at h
      exact h
  constructor
  · intro f hf
    unfold Manager.emergencyReleaseAllKeys at hf
    rcases List.mem_append.1 hf with hf | hf
    · obtain ⟨c, -, rfl⟩ := List.mem_map.1 hf
      exact ⟨_, edge_syntheticKeyup ..⟩
    · obtain ⟨b, hb, rfl⟩ := List.mem_map.1 hf
      rw [(d.buttons.perm _).mem_iff, mem_heldButtons] at hb
      exact ⟨_, edge_syntheticMouseup _ _ _ (hm b hb)⟩
  · intro h
    constructor
    · intro hp
      cases h with
      | key c => simp [Manager.presses, hkeys] at hp
      | button b => simp [Manager.presses, hbuttons] at hp
    · rintro ⟨hp, hno⟩
      refine absurd ?_ hno
      unfold Manager.emergencyReleaseAllKeys
      cases h with
      | key c =>
        refine ⟨_, List.mem_append_left _ (List.mem_map.2 ⟨c, ?_, rfl⟩), edge_syntheticKeyup ..⟩
        rw [(d.keys.perm _).mem_iff, KeyInput.mem_heldKeys]
        intro hr
        simp [Manager.presses, hr] at hp
      | button b =>
        have hb : m.getMouseButtonState b ≠ .released := by
          intro hr
          simp [Manager.presses, hr] at hp
        refine ⟨_, List.mem_append_right _ (List.mem_map.2 ⟨b, ?_, rfl⟩), edge_syntheticMouseup _ _ _ (hm b hb)⟩
        rw [(d.buttons.perm _).mem_iff, mem_heldButtons]
        exact hb
  · intro _ b hb
    exact absurd (hbuttons b) hb

theorem releases_checkForStuckKeys (m : Manager) (timedOut : String → Bool) (now : Nat) (walk : Walk String) :
    Releases m (m.checkForStuckKeys timedOut now walk).1 (m.checkForStuckKeys timedOut now walk).2 := by
  unfold Manager.checkForStuckKeys
  generalize walk.order _ = keys
  dsimp only
  constructor
  · intro f hf
    obtain ⟨c, -, rfl⟩ := List.mem_map.1 hf
    exact ⟨_, edge_recoveryEvent now c⟩
  · intro h
    cases h with
    | key c =>
      have hfired : Releasing (keys.map fun c => ⟨"stuck_key_recovery", Manager.recoveryEvent now c⟩) (.key c) ↔
          c ∈ keys := by
        constructor
        · rintro ⟨f, hf, he⟩
          obtain ⟨d, hd, rfl⟩ := List.mem_map.1 hf
          rw [edge_recoveryEvent] at he
          cases he
          exact hd
        · intro hc
          exact ⟨_, List.mem_map.2 ⟨c, hc, rfl⟩, edge_recoveryEvent now c⟩
      rw [hfired]
      simp only [Manager.presses, KeyInput.getKeyState_released]
      by_cases hc : c ∈ keys <;> simp [hc]
    | button b =>
      have hnone : ¬Releasing (keys.map fun c => ⟨"stuck_key_recovery", Manager.recoveryEvent now c⟩) (.button b) := by
        rintro ⟨f, hf, he⟩
        obtain ⟨d, -, rfl⟩ := List.mem_map.1 hf
        rw [edge_recoveryEvent] at he
        cases he
      rw [and_iff_left hnone]
      simp only [Manager.presses, getMouseButtonState_keys]
  · intro hm b hb
    rw [getMouseButtonState_keys] at hb
    exact hm b hb

/-! ## What the input thread does with a message -/

/-- What the input thread makes of a message: nothing, an event that passed its check, an event of no key and no button,
or the releases of a reset. -/
inductive Received (m : Manager) : Manager × InputCall → Prop
  | nothing : Received m (m, .idle)
  | checked {h : Held} {down : Bool} {event : Fired} (hedge : event.edge? = some (h, down))
      (hnumber : ∀ b, h = .button b → (Json.int b).int32? = some b) : Received m (m, .checked h down event)
  | plain {m' : Manager} {event : Fired} (hedge : event.edge? = none) (hpresses : ∀ h, m'.presses h = m.presses h)
      (hnumbered : m.Numbered → m'.Numbered) : Received m (m', .forwarding event [])
  | reset {m' : Manager} {events : List Fired} (hreleases : Releases m m' events) : Received m (m', .forward events)

theorem edge_keyboard {eventType c : String} {data : Json} (htype : eventType = "keydown" ∨ eventType = "keyup")
    (hcode : (data.field? "code").bind Json.str? = some c) :
    Fired.edge? ⟨eventType, data⟩ = some (.key c, decide (eventType = "keydown")) := by
  unfold Fired.edge?
  rw [if_pos (by rcases htype with rfl | rfl <;> simp)]
  dsimp only
  rw [hcode]
  rfl

theorem edge_mouse {eventType : String} {data : Json} {b : Int} (htype : eventType = "mousedown" ∨ eventType = "mouseup")
    (hbutton : (data.field? "button").bind Json.int32? = some b) :
    Fired.edge? ⟨eventType, data⟩ = some (.button b, decide (eventType = "mousedown")) := by
  unfold Fired.edge?
  rw [if_neg (by rcases htype with rfl | rfl <;> simp), if_pos (by rcases htype with rfl | rfl <;> simp)]
  dsimp only
  rw [hbutton]
  rfl

theorem received_checkKeyboardEvent (m : Manager) {eventType : String} (data : Json)
    (htype : eventType = "keydown" ∨ eventType = "keyup") : Received m (m, m.checkKeyboardEvent eventType data) := by
  unfold Manager.checkKeyboardEvent
  cases hcode : (data.field? "code").bind Json.str? with
  | none => exact .nothing
  | some c =>
    dsimp only
    generalize (if eventType = "keydown" then KeyState.pressed else .released) = state
    by_cases hsupp : (!KeyInput.isSupportedKeyCode c) = true
    · rw [if_pos hsupp]
      exact .nothing
    rw [if_neg hsupp]
    by_cases hs : m.getKeyState c = state
    · rw [if_pos hs]
      exact .nothing
    · rw [if_neg hs]
      exact .checked (edge_keyboard htype hcode) fun b hb => by cases hb

theorem received_checkMouseEvent (m : Manager) (eventType : String) (data : Json) :
    Received m (m.checkMouseEvent eventType data) := by
  unfold Manager.checkMouseEvent
  by_cases hmove : eventType = "mousemove"
  · rw [if_pos hmove]
    subst hmove
    refine .plain rfl (fun h => ?_) id
    cases h <;> rfl
  rw [if_neg hmove]
  by_cases hbutton : (decide (eventType = "mousedown") || decide (eventType = "mouseup")) = true
  · rw [if_pos hbutton]
    cases hb : (data.field? "button").bind Json.int32? with
    | none => exact .nothing
    | some b =>
      dsimp only
      generalize (if eventType = "mousedown" then MouseButtonState.pressed else .released) = state
      by_cases hs : m.getMouseButtonState b = state
      · rw [if_pos hs]
        exact .nothing
      · rw [if_neg hs]
        apply Received.checked (edge_mouse (by simpa using hbutton) hb)
        rintro d hd
        cases hd
        obtain ⟨j, -, hj⟩ := Option.bind_eq_some_iff.1 hb
        exact int32?_int32 hj
  rw [if_neg hbutton]
  by_cases hwheel : (decide (eventType = "wheel") || decide (eventType = "hwheel")) = true
  · rw [if_pos hwheel]
    simp only [Bool.or_eq_true, decide_eq_true_eq] at hwheel
    apply Received.plain ?_ (fun _ => rfl) id
    rcases hwheel with rfl | rfl <;> rfl
  · rw [if_neg hwheel]
    exact .nothing

theorem received_checkInputMessage (hm : m.Numbered) (d : Delivery) : Received m (m.checkInputMessage d) := by
  unfold Manager.checkInputMessage
  cases InputSchema.accepted d.message with
  | none => exact .nothing
  | some event =>
    dsimp only
    by_cases hreset : event.eventType = "input_reset"
    · rw [if_pos hreset]
      cases event.value.valueStr "reason" "transport_reset" with
      | none => exact .nothing
      | some reason => exact .reset (releases_emergency hm d reason)
    rw [if_neg hreset]
    by_cases hkey : (decide (event.eventType = "keydown") || decide (event.eventType = "keyup")) = true
    · rw [if_pos hkey]
      exact received_checkKeyboardEvent m event.value (by simpa using hkey)
    · rw [if_neg hkey]
      exact received_checkMouseEvent m event.eventType event.value

/-! ## What the steps keep -/

theorem lastEdge_cons_of_edge {f : Fired} {h : Held} {down : Bool} (hf : f.edge? = some (h, down)) (l : List Fired)
    (h' : Held) : lastEdge (f :: l) h' = if h' = h then some down else lastEdge l h' := by
  unfold lastEdge
  rw [List.filterMap_cons_some hf]
  by_cases hh : h' = h
  · rw [if_pos hh, List.find?_cons_of_pos (by simp [hh])]
    rfl
  · rw [if_neg hh, List.find?_cons_of_neg (by simpa using Ne.symm hh)]

theorem lastEdge_cons_of_none {f : Fired} (hf : f.edge? = none) (l : List Fired) (h : Held) :
    lastEdge (f :: l) h = lastEdge l h := by
  unfold lastEdge
  rw [List.filterMap_cons_none hf]

/-- The input thread is about to forward a press of it. -/
def InputCall.Starting : InputCall → Held → Prop
  | forwarding event _, h => event.edge? = some (h, true)
  | _, _ => False

/-- The event that is checked is of its key or button, and what follows the event that is forwarded is releases. -/
def InputCall.Sound : InputCall → Prop
  | idle => True
  | checked h down event => event.edge? = some (h, down) ∧ ∀ b, h = .button b → (Json.int b).int32? = some b
  | forwarding _ rest => Ups rest

theorem events_forward (events : List Fired) : (InputCall.forward events).events = events := by
  cases events <;> rfl

theorem sound_forward {events : List Fired} (hups : Ups events) : (InputCall.forward events).Sound := by
  cases events with
  | nil => trivial
  | cons f rest => exact fun g hg => hups g (List.mem_cons_of_mem f hg)

/-- The first of the releases that are left to forward is no press. -/
theorem edge_forward {events : List Fired} (hups : Ups events) {event : Fired} {rest : List Fired}
    (hin : InputCall.forward events = .forwarding event rest) (h : Held) : event.edge? ≠ some (h, true) := by
  cases events with
  | nil => cases hin
  | cons f events =>
    cases hin
    obtain ⟨h', hf⟩ := hups event List.mem_cons_self
    rw [hf]
    intro he
    cases he

theorem releasing_cons {f : Fired} {h : Held} {down : Bool} (hf : f.edge? = some (h, down)) (l : List Fired)
    (h' : Held) : Releasing (f :: l) h' ↔ h' = h ∧ down = false ∨ Releasing l h' := by
  unfold Releasing
  rw [List.exists_mem_cons_iff, hf]
  simp [eq_comm]

theorem releasing_cons_of_none {f : Fired} (hf : f.edge? = none) (l : List Fired) (h : Held) :
    Releasing (f :: l) h ↔ Releasing l h := by
  unfold Releasing
  simp [hf]

theorem not_releasing_nil (h : Held) : ¬Releasing [] h := by
  rintro ⟨f, hf, -⟩
  cases hf

namespace Callers

/-- **The invariant**: what is recorded as `Pressed` was forwarded as a press and has no release waiting, unless its press
is about to be forwarded; and all that waits, that press aside, is releases. -/
structure Reflected (s : Callers) : Prop where
  ups : ∀ thread, Ups (s.releases thread)
  input : s.input.Sound
  numbered : s.manager.Numbered
  agrees : ∀ h, ¬s.input.Starting h → (s.manager.presses h = true ↔ lastEdge s.forwarded h = some true ∧ ¬s.Unfired h)

variable {s s' : Callers}

theorem Reflected.reflects (hs : s.Reflected) : s.Reflects := by
  intro hidle hquiet h
  have hstart : ¬s.input.Starting h := by
    rw [hidle]
    exact id
  have hunfired : ¬s.Unfired h := by
    rintro (hin | ⟨thread, hthread⟩)
    · rw [hidle] at hin
      exact not_releasing_nil h hin
    · rw [hquiet thread] at hthread
      exact not_releasing_nil h hthread
  rw [hs.agrees h hstart, and_iff_left hunfired]

/-- With the input thread forwarding nothing, only the other threads have releases waiting. -/
theorem Reflected.elsewhere (hs : s.Reflected) (hin : s.input.events = []) (h : Held) :
    s.manager.presses h = true ↔
      lastEdge s.forwarded h = some true ∧ ¬∃ thread, Releasing (s.releases thread) h := by
  have hstart : ¬s.input.Starting h := by
    cases hi : s.input with
    | forwarding f rest => simp [hi, InputCall.events] at hin
    | _ => exact id
  rw [hs.agrees h hstart]
  dsimp only [Unfired]
  rw [hin, or_iff_right (not_releasing_nil h)]

/-- **The input thread takes a message up**: nothing is recorded of it yet, unless it is a reset. -/
theorem Reflected.receive (hs : s.Reflected) (hidle : s.input = .idle) {m' : Manager} {input : InputCall}
    (hr : Received s.manager (m', input)) : Reflected { s with manager := m', input := input } := by
  have hagrees := hs.elsewhere (by rw [hidle]; rfl)
  cases hr with
  | nothing =>
    refine ⟨hs.ups, trivial, hs.numbered, fun h _ => ?_⟩
    dsimp only [Unfired, InputCall.events]
    rw [hagrees h, or_iff_right (not_releasing_nil h)]
  | checked hedge hnumber =>
    refine ⟨hs.ups, ⟨hedge, hnumber⟩, hs.numbered, fun h _ => ?_⟩
    dsimp only [Unfired, InputCall.events]
    rw [hagrees h, or_iff_right (not_releasing_nil h)]
  | plain hedge hpresses hnumbered =>
    refine ⟨hs.ups, fun f hf => (by cases hf), hnumbered hs.numbered, fun h _ => ?_⟩
    dsimp only [Unfired, InputCall.events]
    rw [hpresses, hagrees h, releasing_cons_of_none hedge, or_iff_right (not_releasing_nil h)]
  | reset hreleases =>
    refine ⟨hs.ups, sound_forward hreleases.ups, hreleases.numbered hs.numbered, fun h _ => ?_⟩
    dsimp only [Unfired]
    rw [hreleases.presses, hagrees h, events_forward]
    tauto

/-- **It records what it checked**: a press will be forwarded, and a release now waits. -/
theorem Reflected.update (hs : s.Reflected) {h : Held} {down : Bool} {event : Fired}
    (hchecked : s.input = .checked h down event) :
    Reflected { s with manager := s.manager.update h down, input := .forwarding event [] } := by
  have hsound := hs.input
  rw [hchecked] at hsound
  obtain ⟨hedge, hnumber⟩ := hsound
  have hagrees := hs.elsewhere (by rw [hchecked]; rfl)
  refine ⟨hs.ups, fun f hf => (by cases hf), fun b hb => ?_, fun h' hstart => ?_⟩
  · cases h with
    | key c => exact hs.numbered b hb
    | button d =>
      rw [Manager.update, getMouseButtonState_updateMouseButtonState] at hb
      by_cases hbd : b = d
      · subst hbd
        exact hnumber b rfl
      · rw [if_neg hbd] at hb
        exact hs.numbered b hb
  · dsimp only [Unfired, InputCall.events]
    rw [presses_update, releasing_cons hedge]
    by_cases hh : h' = h
    · subst hh
      have hup : down = false := by
        cases down with
        | false => rfl
        | true => exact absurd hedge hstart
      simp [hup]
    · have hnil := not_releasing_nil h'
      rw [if_neg hh, hagrees h']
      tauto

/-- **It forwards an event**, a press in order. -/
theorem Reflected.forward (hs : s.Reflected) {f : Fired} {rest : List Fired} (hin : s.input = .forwarding f rest)
    (hc : s.InOrder .forward) : Reflected { s with forwarded := f :: s.forwarded, input := .forward rest } := by
  have hrest : Ups rest := by
    have hsound := hs.input
    rw [hin] at hsound
    exact hsound
  have hunfired : ∀ h, s.Unfired h ↔ Releasing (f :: rest) h ∨ ∃ thread, Releasing (s.releases thread) h := by
    intro h
    unfold Unfired
    rw [hin]
    rfl
  have hstarting : ∀ h, s.input.Starting h ↔ f.edge? = some (h, true) := by
    intro h
    rw [hin]
    rfl
  refine ⟨hs.ups, sound_forward hrest, hs.numbered, fun h _ => ?_⟩
  have hagrees := hs.agrees h
  rw [hunfired, hstarting] at hagrees
  dsimp only [Unfired]
  rw [events_forward]
  cases hf : f.edge? with
  | none =>
    rw [lastEdge_cons_of_none hf, hagrees (by simp [hf]), releasing_cons_of_none hf]
  | some edge =>
    obtain ⟨h₀, down⟩ := edge
    rw [lastEdge_cons_of_edge hf]
    rw [releasing_cons hf, hf] at hagrees
    by_cases hh : h = h₀
    · subst hh
      rw [if_pos rfl]
      cases down with
      | true =>
        have horder := hc f rest hin h hf
        rw [hunfired, releasing_cons hf] at horder
        simpa using horder
      | false => simpa using hagrees
    · rw [if_neg hh, hagrees (by simp [Ne.symm hh])]
      simp [hh]

section threads
variable (releases : Nat → List Fired) (thread : Nat) (h : Held)

theorem exists_releasing : (∃ t, Releasing (releases t) h) ↔
    Releasing (releases thread) h ∨ ∃ t, t ≠ thread ∧ Releasing (releases t) h := by
  constructor
  · rintro ⟨t, ht⟩
    by_cases htt : t = thread
    · exact .inl (htt ▸ ht)
    · exact .inr ⟨t, htt, ht⟩
  · rintro (ht | ⟨t, -, ht⟩)
    · exact ⟨thread, ht⟩
    · exact ⟨t, ht⟩

theorem exists_releasing_update (events : List Fired) :
    (∃ t, Releasing (Function.update releases thread events t) h) ↔
      Releasing events h ∨ ∃ t, t ≠ thread ∧ Releasing (releases t) h := by
  rw [exists_releasing _ thread, Function.update_self]
  apply or_congr_right
  apply exists_congr
  intro t
  apply and_congr_right
  intro ht
  rw [Function.update_of_ne ht]

end threads

theorem ups_update {releases : Nat → List Fired} (hups : ∀ t, Ups (releases t)) (thread : Nat) {events : List Fired}
    (hevents : Ups events) (t : Nat) : Ups (Function.update releases thread events t) := by
  by_cases ht : t = thread
  · subst ht
    rw [Function.update_self]
    exact hevents
  · rw [Function.update_of_ne ht]
    exact hups t

/-- **Another thread releases keys and buttons**, and has the releases to forward. -/
theorem Reflected.release (hs : s.Reflected) {thread : Nat} (hnone : s.releases thread = []) {m' : Manager}
    {events : List Fired} (hr : Releases s.manager m' events) :
    Reflected { s with manager := m', releases := Function.update s.releases thread events } := by
  refine ⟨ups_update hs.ups thread hr.ups, hs.input, hr.numbered hs.numbered, fun h hstart => ?_⟩
  have hnil := not_releasing_nil h
  dsimp only [Unfired]
  rw [hr.presses, hs.agrees h hstart, Unfired, exists_releasing s.releases thread, exists_releasing_update, hnone]
  generalize (∃ t, t ≠ thread ∧ Releasing (s.releases t) h) = others
  tauto

/-- **It forwards one of them.** -/
theorem Reflected.fire (hs : s.Reflected) {thread : Nat} {f : Fired} {rest : List Fired}
    (hnext : s.releases thread = f :: rest) :
    Reflected { s with forwarded := f :: s.forwarded, releases := Function.update s.releases thread rest } := by
  have hups := hs.ups thread
  rw [hnext] at hups
  obtain ⟨h₀, hf⟩ := hups f List.mem_cons_self
  refine ⟨ups_update hs.ups thread fun g hg => hups g (List.mem_cons_of_mem f hg), hs.input, hs.numbered,
    fun h hstart => ?_⟩
  have hagrees := hs.agrees h hstart
  rw [Unfired, exists_releasing s.releases thread, hnext, releasing_cons hf] at hagrees
  dsimp only [Unfired]
  rw [lastEdge_cons_of_edge hf, exists_releasing_update]
  by_cases hh : h = h₀
  · rw [if_pos hh]
    simpa [hh] using hagrees
  · rw [if_neg hh, hagrees]
    simp [hh]

/-- **Every step keeps the invariant**, where the presses are forwarded in order. -/
theorem Reflected.step {move : CallerMove} (hs : s.Reflected) (hc : s.InOrder move) (hstep : s.step move = some s') :
    s'.Reflected := by
  cases move with
  | receive d =>
    simp only [Callers.step] at hstep
    split at hstep
    · rename_i hidle
      obtain rfl := Option.some.inj hstep
      exact hs.receive hidle (received_checkInputMessage hs.numbered d)
    · cases hstep
  | update =>
    simp only [Callers.step] at hstep
    split at hstep
    · rename_i hchecked
      obtain rfl := Option.some.inj hstep
      exact hs.update hchecked
    · cases hstep
  | forward =>
    simp only [Callers.step] at hstep
    split at hstep
    · rename_i hin
      obtain rfl := Option.some.inj hstep
      exact hs.forward hin hc
    · cases hstep
  | release thread d reason =>
    simp only [Callers.step] at hstep
    split at hstep
    · rename_i hnone
      obtain rfl := Option.some.inj hstep
      exact hs.release hnone (releases_emergency hs.numbered d reason)
    · cases hstep
  | recover thread timedOut now walk =>
    simp only [Callers.step] at hstep
    split at hstep
    · rename_i hnone
      obtain rfl := Option.some.inj hstep
      exact hs.release hnone (releases_checkForStuckKeys s.manager timedOut now walk)
    · cases hstep
  | fire thread =>
    simp only [Callers.step] at hstep
    split at hstep
    · rename_i hnext
      obtain rfl := Option.some.inj hstep
      exact hs.fire hnext
    · cases hstep

theorem reflected_init : Reflected {} := by
  refine ⟨fun _ f hf => (by cases hf), trivial, fun b hb => absurd rfl hb, fun h _ => ?_⟩
  apply iff_of_false
  · cases h <;> simp [Manager.presses, Manager.getKeyState, Manager.getMouseButtonState]
  · rintro ⟨hlast, -⟩
    cases hlast

/-- **What is recorded is what was forwarded last, whenever no call is in progress, in every run that forwards its presses
in order.** -/
theorem reflects_throughout (moves : List CallerMove) (h : Along step InOrder {} moves) :
    Throughout step Reflects {} moves :=
  (Throughout.of_along (I := Reflected) (fun _ _ _ hs hc hstep => hs.step hc hstep) reflected_init h).mono
    fun _ hs => hs.reflects

/-! ## The input thread by itself -/

/-- The thread that takes the step, where it is not the input thread. -/
def thread? : CallerMove → Option Nat
  | .release thread _ _ | .recover thread _ _ _ | .fire thread => some thread
  | _ => none

/-- A thread that takes no step has what it had to forward. -/
theorem releases_step {move : CallerMove} {thread : Nat} (hm : thread? move ≠ some thread)
    (hstep : s.step move = some s') : s'.releases thread = s.releases thread := by
  cases move with
  | release t d reason =>
    simp only [Callers.step] at hstep
    split at hstep
    · obtain rfl := Option.some.inj hstep
      exact Function.update_of_ne (fun ht => hm (congrArg some ht.symm)) ..
    · cases hstep
  | recover t timedOut now walk =>
    simp only [Callers.step] at hstep
    split at hstep
    · obtain rfl := Option.some.inj hstep
      exact Function.update_of_ne (fun ht => hm (congrArg some ht.symm)) ..
    · cases hstep
  | fire t =>
    simp only [Callers.step] at hstep
    split at hstep
    · obtain rfl := Option.some.inj hstep
      exact Function.update_of_ne (fun ht => hm (congrArg some ht.symm)) ..
    · cases hstep
  | _ =>
    simp only [Callers.step] at hstep
    split at hstep
    · obtain rfl := Option.some.inj hstep
      rfl
    · cases hstep

theorem releases_after {thread : Nat} : ∀ {moves : List CallerMove} {s : Callers},
    (∀ move ∈ moves, thread? move ≠ some thread) → after step s moves = some s' →
      s'.releases thread = s.releases thread
  | [], _, _, ha => by rw [Option.some.inj ha]
  | move :: moves, s, hm, ha => by
    obtain ⟨t, hstep, ha⟩ := Option.bind_eq_some_iff.1 ha
    rw [releases_after (fun m hm' => hm m (List.mem_cons_of_mem move hm')) ha,
      releases_step (hm move List.mem_cons_self) hstep]

/-- No other thread has anything to forward, and a press that is about to be forwarded is recorded. -/
structure Alone (s : Callers) : Prop where
  quiet : ∀ thread, s.releases thread = []
  pressed : ∀ event rest, s.input = .forwarding event rest → ∀ h, event.edge? = some (h, true) →
    s.manager.presses h = true ∧ rest = []

theorem Alone.inOrder (ha : s.Alone) (move : CallerMove) : s.InOrder move := by
  cases move with
  | forward =>
    intro event rest hin h he
    obtain ⟨hp, rfl⟩ := ha.pressed event rest hin h he
    apply iff_of_true hp
    rintro (hr | ⟨thread, hr⟩)
    · rw [hin, InputCall.events, releasing_cons he] at hr
      rcases hr with ⟨-, hr⟩ | hr
      · cases hr
      · exact not_releasing_nil h hr
    · rw [ha.quiet thread] at hr
      exact not_releasing_nil h hr
  | _ => trivial

theorem Alone.step {move : CallerMove} (ha : s.Alone) (hr : s.Reflected) (hm : thread? move = none)
    (hstep : s.step move = some s') : s'.Alone := by
  refine ⟨fun thread => ?_, ?_⟩
  · rw [releases_step (by rw [hm]; simp) hstep]
    exact ha.quiet thread
  cases move with
  | receive d =>
    simp only [Callers.step] at hstep
    split at hstep
    · obtain rfl := Option.some.inj hstep
      intro event rest hin h he
      dsimp only at hin ⊢
      have hreceived := received_checkInputMessage hr.numbered d
      generalize s.manager.checkInputMessage d = received at hin hreceived
      cases hreceived with
      | nothing | checked => cases hin
      | plain hedge =>
        cases hin
        rw [hedge] at he
        cases he
      | @reset _ events hreleases => exact absurd he (edge_forward hreleases.ups hin h)
    · cases hstep
  | update =>
    simp only [Callers.step] at hstep
    split at hstep
    · rename_i h down event hin
      obtain rfl := Option.some.inj hstep
      intro event' rest hin' h' he
      cases hin'
      have hsound := hr.input
      rw [hin] at hsound
      have hedge := hsound.1.symm.trans he
      cases hedge
      exact ⟨by rw [presses_update, if_pos rfl], rfl⟩
    · cases hstep
  | forward =>
    simp only [Callers.step] at hstep
    split at hstep
    · rename_i event rest hin
      obtain rfl := Option.some.inj hstep
      intro event' rest' hin' h' he
      have hsound := hr.input
      rw [hin] at hsound
      exact absurd he (edge_forward hsound hin' h')
    · cases hstep
  | _ => cases hm

/-- **By itself the input thread forwards its presses in order.** -/
theorem along_alone {moves : List CallerMove} (hm : Along step (fun _ move => thread? move = none) {} moves) :
    Along step InOrder {} moves :=
  hm.of_along (I := fun s => Alone s ∧ Reflected s)
    (fun _ move _ hs hc hstep => ⟨hs.1.step hs.2 hc hstep, hs.2.step (hs.1.inOrder move) hstep⟩)
    (fun _ move hs _ => hs.1.inOrder move) ⟨⟨fun _ => rfl, fun _ _ h => by cases h⟩, reflected_init⟩

/-- What is left of a call of the input thread. -/
def finish (m : Manager) : InputCall → Manager × List Fired
  | .idle => (m, [])
  | .checked h down event => (m.update h down, [event])
  | .forwarding event rest => (m, event :: rest)

theorem finish_forward (m : Manager) (events : List Fired) : finish m (.forward events) = (m, events) := by
  cases events <;> rfl

theorem finish_checkKeyboardEvent (m : Manager) (eventType : String) (data : Json) :
    finish m (m.checkKeyboardEvent eventType data) = m.processKeyboardEvent eventType data := by
  unfold Manager.checkKeyboardEvent Manager.processKeyboardEvent
  cases (data.field? "code").bind Json.str? with
  | none => rfl
  | some c =>
    dsimp only
    by_cases hsupp : (!KeyInput.isSupportedKeyCode c) = true
    · rw [if_pos hsupp, if_pos hsupp]
      rfl
    rw [if_neg hsupp, if_neg hsupp]
    by_cases hs : m.getKeyState c = if eventType = "keydown" then KeyState.pressed else .released
    · rw [if_pos hs, if_pos hs]
      rfl
    · rw [if_neg hs, if_neg hs]
      simp [finish, Manager.update]

theorem finish_checkMouseEvent (m : Manager) (eventType : String) (data : Json) :
    finish (m.checkMouseEvent eventType data).1 (m.checkMouseEvent eventType data).2 =
      m.processMouseEvent eventType data := by
  unfold Manager.checkMouseEvent Manager.processMouseEvent
  split
  · rfl
  split
  · cases (data.field? "button").bind Json.int32? with
    | none => rfl
    | some b =>
      dsimp only
      by_cases hs : m.getMouseButtonState b = if eventType = "mousedown" then MouseButtonState.pressed else .released
      · rw [if_pos hs, if_pos hs]
        rfl
      · rw [if_neg hs, if_neg hs]
        simp [finish, Manager.update]
  split <;> rfl

/-- **A call that no step of another thread comes between is `processInputMessage`.** -/
theorem finish_checkInputMessage (m : Manager) (d : Delivery) :
    finish (m.checkInputMessage d).1 (m.checkInputMessage d).2 = m.processInputMessage d := by
  unfold Manager.checkInputMessage Manager.processInputMessage
  cases InputSchema.accepted d.message with
  | none => rfl
  | some event =>
    dsimp only
    split
    · cases event.value.valueStr "reason" "transport_reset" with
      | none => rfl
      | some reason => exact finish_forward ..
    split
    · exact finish_checkKeyboardEvent ..
    · exact finish_checkMouseEvent ..

/-! ## A reset between the update and the callback -/

/-- A key is pressed, and reported. -/
def onePress : List CallerMove := [.receive (KeyInput.keyMessage "keydown" "KeyA"), .update, .forward]

theorem reflects_onePress : Throughout step Reflects {} onePress := by
  apply reflects_throughout onePress
  apply along_alone
  exact fun _ _ => ⟨rfl, fun _ _ => ⟨rfl, fun _ _ => ⟨rfl, trivial⟩⟩⟩

/-- The control thread releases everything, and forwards that, when the press is recorded and not yet forwarded. -/
def overtaken : List CallerMove :=
  [.receive (KeyInput.keyMessage "keydown" "KeyA"), .update,
    .release 0 (KeyInput.keyMessage "keyup" "KeyA") "control", .fire 0, .forward]

/-- **The last event forwarded for the key is its keydown, and it is recorded as released**: its keyup will be dropped. -/
theorem not_reflects : ¬∀ moves : List CallerMove, Throughout step Reflects {} moves := by
  intro h
  have hbroken : (after step {} overtaken).any (fun s => (match s.input with
      | .idle => true
      | _ => false) && (s.releases 0).isEmpty && !s.manager.presses (.key "KeyA") &&
      lastEdge s.forwarded (.key "KeyA") = some true) = true := by
    decide +kernel
  obtain ⟨s, hs, hbroken⟩ := (Option.any_eq_true _ _).1 hbroken
  simp only [Bool.and_eq_true, Bool.not_eq_true', decide_eq_true_eq, List.isEmpty_iff] at hbroken
  obtain ⟨⟨⟨hidle, hfired⟩, hreleased⟩, hdown⟩ := hbroken
  have hin : s.input = .idle := by
    cases hi : s.input with
    | idle => rfl
    | _ => simp [hi] at hidle
  have hquiet : ∀ thread, s.releases thread = [] := by
    intro thread
    by_cases ht : thread = 0
    · rw [ht, hfired]
    · refine releases_after ?_ hs
      simp [overtaken, thread?, Ne.symm ht]
  have hpressed := ((h overtaken).after hs hin hquiet (.key "KeyA")).2 hdown
  rw [hreleased] at hpressed
  cases hpressed

end Callers

end StateManager
end Host
end CloudGaming
