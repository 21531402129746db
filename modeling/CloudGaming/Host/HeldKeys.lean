import CloudGaming.Host.Keyboard
/-!
# HeldKeys — what the state machine records after a sequence of keyboard messages

The polling loop drains what the state manager hands on, and keeps the log of the events it accepts, newest first.
After it the state machine has down the codes whose last accepted event is a keydown, unless a keyup was swallowed:
the virtual key it shares with another code had been reported up already.
-/
namespace CloudGaming
namespace Host
namespace KeyInput

open StateManager

/-- The messages the state manager hands to the keyboard handler. -/
def feed : Manager → List Delivery → List Json
  | _, [] => []
  | m, d :: ds => keyboardMessages (m.processInputMessage d).2 ++ feed (m.processInputMessage d).1 ds

/-- The polling loop: the handler, the rounds made, and the log of the accepted events, newest first. -/
structure Loop where
  keyboard : Keyboard := {}
  rounds : Nat := 0
  accepted : List KeyEvent := []

/-- The event of a message, where the handler accepts it. -/
def Keyboard.accepts (k : Keyboard) (m : Moment) (j : Json) : Option KeyEvent :=
  if j.isObject && j.contains "code" && j.contains "type" then
    (sequenceId? j).bind fun sequenceId => (keyEvent? j).filter fun e =>
      (k.processSequence m sequenceId).passes e.code e.state
  else none

variable (moment : Nat → Moment)

def Loop.round (l : Loop) (j : Json) : Loop where
  keyboard := l.keyboard.handle (moment l.rounds) j
  rounds := l.rounds + 1
  accepted := (l.keyboard.accepts (moment l.rounds) j).toList ++ l.accepted

def Loop.drain (l : Loop) (js : List Json) : Loop := js.foldl (Loop.round moment) l

/-- The sequence tracker reports no gap. -/
def Gapless : Loop → List Json → Prop
  | _, [] => True
  | l, j :: js => (∀ s ∈ sequenceId? j, l.keyboard.sequence.gap s = false) ∧ Gapless (l.round moment j) js

instance decidableGapless : ∀ (l : Loop) (js : List Json), Decidable (Gapless moment l js)
  | _, [] => isTrue trivial
  | l, j :: js =>
    have := decidableGapless (l.round moment j) js
    inferInstanceAs (Decidable ((∀ s ∈ sequenceId? j, l.keyboard.sequence.gap s = false) ∧
      Gapless moment (l.round moment j) js))

/-! ## The log -/

/-- The last event of a code. -/
def lastOf (log : List KeyEvent) (c : String) : Option KeyEvent := log.find? (·.code = c)

/-- The state the last event of a code leaves it in. -/
def stateIn (log : List KeyEvent) (c : String) : KeyState := ((lastOf log c).map KeyEvent.state).getD .up

/-- The last event of a virtual key. -/
def lastOfKey (log : List KeyEvent) (vk : Nat) : Option KeyEvent := log.find? (mapJavaScriptCodeToVK ·.code = vk)

/-- **A swallowed keyup**: the last event of the code is a keyup, and the event of its virtual key before it is a keyup
of another code. -/
def Swallowed (c : String) : List KeyEvent → Prop
  | [] => False
  | e :: log =>
    if e.code = c then
      e.state = .up ∧ ∃ d, lastOfKey log (mapJavaScriptCodeToVK c) = some d ∧ d.state = .up ∧ d.code ≠ c
    else Swallowed c log

/-- What the handler makes of a log: the virtual keys reported down, and the states of the codes. -/
structure Keys where
  reported : Nat → Bool := fun _ => false
  states : String → KeyState := fun _ => .up

def Keys.press (s : Keys) (c : String) : Keys :=
  ⟨Function.update s.reported (mapJavaScriptCodeToVK c) true, Function.update s.states c .down⟩

def Keys.release (s : Keys) (c : String) : Keys :=
  if s.reported (mapJavaScriptCodeToVK c) then
    ⟨Function.update s.reported (mapJavaScriptCodeToVK c) false, Function.update s.states c .up⟩
  else s

def replay : List KeyEvent → Keys
  | [] => {}
  | ⟨c, .down⟩ :: log => (replay log).press c
  | ⟨c, .up⟩ :: log => (replay log).release c

section keys
variable (s : Keys) (c : String)

theorem reported_press (vk : Nat) :
    (s.press c).reported vk = if vk = mapJavaScriptCodeToVK c then true else s.reported vk :=
  Function.update_apply ..

theorem states_press (d : String) : (s.press c).states d = if d = c then .down else s.states d :=
  Function.update_apply ..

/-- A release leaves its virtual key reported up, whatever it was. -/
theorem reported_release (vk : Nat) :
    (s.release c).reported vk = if vk = mapJavaScriptCodeToVK c then false else s.reported vk := by
  unfold Keys.release
  split
  · exact Function.update_apply ..
  · rename_i h
    split
    · rename_i hv; rw [hv]; simpa using h
    · rfl

theorem states_release (d : String) :
    (s.release c).states d = if d = c ∧ s.reported (mapJavaScriptCodeToVK c) = true then .up else s.states d := by
  unfold Keys.release
  by_cases h : s.reported (mapJavaScriptCodeToVK c) = true
  · simp only [h, if_true, and_true]
    exact Function.update_apply ..
  · rw [if_neg h, if_neg fun hc => h hc.2]

end keys

theorem lastOfKey_cons (e : KeyEvent) (log : List KeyEvent) (vk : Nat) :
    lastOfKey (e :: log) vk = if vk = mapJavaScriptCodeToVK e.code then some e else lastOfKey log vk := by
  unfold lastOfKey
  by_cases h : vk = mapJavaScriptCodeToVK e.code
  · rw [if_pos h, List.find?_cons_of_pos (by simp [h])]
  · rw [if_neg h, List.find?_cons_of_neg (by simpa using Ne.symm h)]

/-- A virtual key is reported down where its last event is a keydown. -/
theorem reported_replay : ∀ (log : List KeyEvent) (vk : Nat),
    (replay log).reported vk = (lastOfKey log vk).any (·.state = .down)
  | [], _ => rfl
  | ⟨c, .down⟩ :: log, vk => by
    rw [replay, reported_press, lastOfKey_cons, reported_replay log vk]
    split <;> rfl
  | ⟨c, .up⟩ :: log, vk => by
    rw [replay, reported_release, lastOfKey_cons, reported_replay log vk]
    split <;> rfl

theorem stateIn_cons_self (c : String) (st : KeyState) (log : List KeyEvent) : stateIn (⟨c, st⟩ :: log) c = st := by
  simp [stateIn, lastOf]

theorem stateIn_cons_of_ne {c d : String} (h : c ≠ d) (st : KeyState) (log : List KeyEvent) :
    stateIn (⟨c, st⟩ :: log) d = stateIn log d := by
  simp [stateIn, lastOf, h]

/-! ## Codes that share no virtual key -/

/-- The last event of the virtual key of an unshared code is the last event of the code. -/
theorem lastOfKey_unshared {log : List KeyEvent} {c : String} (hc : mapJavaScriptCodeToVK c ≠ 0)
    (hr : mapJavaScriptCodeToVK c ≠ VK_RETURN) : lastOfKey log (mapJavaScriptCodeToVK c) = lastOf log c := by
  unfold lastOfKey lastOf
  congr 1
  funext e
  rw [decide_eq_decide]
  exact ⟨fun h => (code_unique h.symm hc hr).symm, fun h => by rw [h]⟩

theorem states_unshared {c : String} (hc : mapJavaScriptCodeToVK c ≠ 0) (hr : mapJavaScriptCodeToVK c ≠ VK_RETURN) :
    ∀ log : List KeyEvent, (replay log).states c = stateIn log c
  | [] => rfl
  | ⟨d, .down⟩ :: log => by
    rw [replay, states_press]
    split
    · rename_i h; rw [h, stateIn_cons_self]
    · rename_i h; rw [stateIn_cons_of_ne (Ne.symm h)]; exact states_unshared hc hr log
  | ⟨d, .up⟩ :: log => by
    rw [replay, states_release, states_unshared hc hr log]
    by_cases h : c = d
    · subst h
      rw [stateIn_cons_self, reported_replay, lastOfKey_unshared hc hr]
      split
      · rfl
      · rename_i hn
        unfold stateIn
        cases hl : lastOf log c with
        | none => rfl
        | some e =>
          rw [hl] at hn
          cases hs : e.state with
          | up => simp [hs]
          | down => simp [hs] at hn
    · rw [stateIn_cons_of_ne (Ne.symm h), if_neg fun hd => h hd.1]

theorem not_swallowed_unshared {c : String} (hc : mapJavaScriptCodeToVK c ≠ 0) (hr : mapJavaScriptCodeToVK c ≠ VK_RETURN) :
    ∀ log : List KeyEvent, ¬Swallowed c log
  | [] => id
  | e :: log => by
    unfold Swallowed
    split
    · rintro ⟨-, d, hd, -, hne⟩
      have hk : mapJavaScriptCodeToVK d.code = mapJavaScriptCodeToVK c := by simpa using List.find?_some hd
      exact hne (code_unique hk.symm hc hr).symm
    · exact not_swallowed_unshared hc hr log

/-! ## Codes that share one -/

/-- Every event of the code flips the state its last event left it in. -/
def Alternates (c : String) : List KeyEvent → Prop
  | [] => True
  | e :: log => (e.code = c → stateIn log c ≠ e.state) ∧ Alternates c log

/-- A code that is down has a last event, and so has its virtual key; where the two are of one code, they are one. -/
theorem lastOfKey_of_down {c : String} {log : List KeyEvent} (h : stateIn log c = .down) :
    ∃ e, lastOfKey log (mapJavaScriptCodeToVK c) = some e ∧ (e.code = c → e.state = .down) := by
  cases hk : lastOfKey log (mapJavaScriptCodeToVK c) with
  | none =>
    have hn : lastOf log c = none := by
      refine List.find?_eq_none.2 fun e he hc => List.find?_eq_none.1 hk e he ?_
      simp only [decide_eq_true_eq] at hc ⊢
      rw [hc]
    rw [stateIn, hn] at h
    cases h
  | some e =>
    refine ⟨e, rfl, fun he => ?_⟩
    have hl : lastOf log c = some e := by
      obtain ⟨-, l₁, l₂, hl, hbefore⟩ := List.find?_eq_some_iff_append.1 hk
      refine List.find?_eq_some_iff_append.2 ⟨by simpa using he, l₁, l₂, hl, fun a ha => ?_⟩
      have := hbefore a ha
      simp only [Bool.not_eq_true', decide_eq_false_iff_not] at this ⊢
      exact fun hc => this (by rw [hc])
    rw [stateIn, hl] at h
    exact h

/-- **Along an alternating log a code is down while its last event is a keydown, and stays down where its keyup is
swallowed.** -/
theorem states_alternating {c : String} : ∀ {log : List KeyEvent}, Alternates c log →
    ((replay log).states c = .down ↔ stateIn log c = .down ∨ Swallowed c log) ∧
      (Swallowed c log → stateIn log c = .up)
  | [], _ => ⟨⟨fun h => (by cases h), fun h => (by rcases h with h | h <;> cases h)⟩, False.elim⟩
  | ⟨d, .down⟩ :: log, ha => by
    obtain ⟨ih, ih'⟩ := states_alternating ha.2
    rw [replay, states_press, Swallowed]
    by_cases h : c = d
    · subst h
      rw [if_pos rfl, if_pos rfl, stateIn_cons_self]
      exact ⟨⟨fun _ => .inl rfl, fun _ => rfl⟩, fun hs => by cases hs.1⟩
    · rw [if_neg h, if_neg (Ne.symm h), stateIn_cons_of_ne (Ne.symm h)]
      exact ⟨ih, ih'⟩
  | ⟨d, .up⟩ :: log, ha => by
    obtain ⟨ih, ih'⟩ := states_alternating ha.2
    rw [replay, states_release, Swallowed]
    by_cases h : c = d
    · subst h
      have hdown : stateIn log c = .down := by
        have := ha.1 rfl
        cases hs : stateIn log c with
        | up => exact absurd hs this
        | down => rfl
      rw [stateIn_cons_self, if_pos rfl, reported_replay]
      obtain ⟨e, hk, hcode⟩ := lastOfKey_of_down hdown
      rw [hk]
      refine ⟨?_, fun _ => rfl⟩
      cases hs : e.state with
      | down =>
        simp only [Option.any_some, hs, decide_true, and_true, if_true, Option.some.injEq, reduceCtorEq, false_or, true_and]
        refine ⟨fun h => (by cases h), ?_⟩
        rintro ⟨e', rfl, hup, -⟩
        rw [hs] at hup; cases hup
      | up =>
        have hne : e.code ≠ c := fun he => by have := hcode he; rw [hs] at this; cases this
        simp only [Option.any_some, hs, and_false, decide_false, Bool.false_eq_true, if_false, reduceCtorEq]
        exact ⟨fun _ => .inr ⟨trivial, e, rfl, hs, hne⟩, fun _ => ih.2 (.inl hdown)⟩
    · rw [if_neg fun hd => h hd.1, if_neg (Ne.symm h), stateIn_cons_of_ne (Ne.symm h)]
      exact ⟨ih, ih'⟩

/-! ## One round of the loop -/

def Keyboard.keys (k : Keyboard) : Keys := ⟨fun vk => vk ∈ k.clientReportedKeysDown, k.keyStates⟩

/-- What an event that passed the filters does to the keys. -/
def Keys.apply (s : Keys) (e : KeyEvent) : Keys :=
  match e.state with
  | .down => s.press e.code
  | .up => s.release e.code

theorem replay_cons (e : KeyEvent) (log : List KeyEvent) : replay (e :: log) = (replay log).apply e := by
  obtain ⟨c, st⟩ := e
  cases st <;> rfl

theorem keys_transition (k : Keyboard) (m : Moment) (c : String) (st : KeyState) :
    (k.transition m c st).keys = ⟨k.keys.reported, Function.update k.keyStates c st⟩ := by
  unfold Keyboard.transition
  split
  · rename_i h
    rw [← h, Function.update_eq_self]
    rfl
  · dsimp only
    split
    · unfold Keyboard.simulate
      split <;> rfl
    · rfl

theorem keys_track (k : Keyboard) (m : Moment) (c : String) (st : KeyState) :
    (k.track m c st).keys = k.keys.apply ⟨c, st⟩ := by
  unfold Keyboard.track Keys.apply
  cases st with
  | down =>
    dsimp only
    rw [keys_transition]
    unfold Keys.press Keyboard.keys
    congr 1
    funext vk
    by_cases h : vk = mapJavaScriptCodeToVK c <;> simp [h]
  | up =>
    dsimp only
    unfold Keys.release
    by_cases h : mapJavaScriptCodeToVK c ∈ k.clientReportedKeysDown
    · rw [if_pos h, keys_transition, if_pos (by simpa [Keyboard.keys] using h)]
      unfold Keyboard.keys
      congr 1
      funext vk
      by_cases hv : vk = mapJavaScriptCodeToVK c <;> simp [hv]
    · rw [if_neg h, if_neg (by simpa [Keyboard.keys] using h)]

/-- Without a gap the tracker only counts. -/
theorem keys_processSequence {k : Keyboard} {s : Nat} (h : k.sequence.gap s = false) (m : Moment) :
    (k.processSequence m s).keys = k.keys := by
  unfold Keyboard.processSequence
  rw [h]
  rfl

/-- A message the loop reads as an event. -/
structure Reads (j : Json) (e : KeyEvent) : Prop where
  shape : (j.isObject && j.contains "code" && j.contains "type") = true
  sequence : (sequenceId? j).isSome
  event : keyEvent? j = some e

/-- The filters see the keys only. -/
theorem passes_congr {k k' : Keyboard} (h : k.clientReportedKeysDown = k'.clientReportedKeysDown) (c : String)
    (st : KeyState) : k.passes c st = k'.passes c st := by
  unfold Keyboard.passes Keyboard.dangerousCombination
  rw [h]

variable {moment}

/-- **A round accepts the event it reads where the filters let it pass**, and leaves the keys alone where they do not. -/
theorem round_reads (moment : Nat → Moment) {l : Loop} {j : Json} {e : KeyEvent} (hr : Reads j e)
    (hg : ∀ s ∈ sequenceId? j, l.keyboard.sequence.gap s = false) :
    (l.round moment j).accepted = (if l.keyboard.passes e.code e.state then [e] else []) ++ l.accepted ∧
      (l.round moment j).keyboard.keys =
        if l.keyboard.passes e.code e.state then l.keyboard.keys.apply e else l.keyboard.keys := by
  obtain ⟨s, hs⟩ := Option.isSome_iff_exists.1 hr.sequence
  have hgap := hg s hs
  have hrep : (l.keyboard.processSequence (moment l.rounds) s).clientReportedKeysDown =
      l.keyboard.clientReportedKeysDown := by unfold Keyboard.processSequence; rw [hgap]; rfl
  have hp := passes_congr hrep e.code e.state
  unfold Loop.round Keyboard.accepts Keyboard.handle
  rw [if_pos hr.shape, if_pos hr.shape, hs, hr.event]
  dsimp only [Option.bind_some]
  rw [hp]
  by_cases h : l.keyboard.passes e.code e.state = true
  · rw [if_pos h, if_pos h, if_pos h, Option.filter_some_pos (by rw [hp]; exact h), keys_track,
      keys_processSequence hgap]
    exact ⟨rfl, rfl⟩
  · rw [if_neg h, if_neg h, if_neg h, Option.filter_some_neg (by rw [hp]; simpa using h), keys_processSequence hgap]
    exact ⟨rfl, rfl⟩

/-! ## What the state manager forwards -/

/-- The state manager's word for a state. -/
def held : KeyState → StateManager.KeyState
  | .up => .released
  | .down => .pressed

/-- **What one delivery forwards**: nothing, an event that changes its key, or the keyups of every held key. -/
inductive Forwards (m m' : Manager) : List KeyEvent → Prop
  | quiet (h : ∀ c, m'.getKeyState c = m.getKeyState c) : Forwards m m' []
  | key (c : String) (st : KeyState) (hs : isSupportedKeyCode c = true) (hne : m.getKeyState c ≠ held st)
      (h : ∀ d, m'.getKeyState d = if d = c then held st else m.getKeyState d) : Forwards m m' [⟨c, st⟩]
  | reset (l : List String) (hn : l.Nodup) (hl : ∀ c, c ∈ l ↔ m.getKeyState c ≠ .released)
      (h : ∀ c, m'.getKeyState c = .released) : Forwards m m' (l.map fun c => ⟨c, .up⟩)

theorem getKeyState_updateKeyState (m : Manager) (c : String) (st : StateManager.KeyState) (d : String) :
    (m.updateKeyState c st).getKeyState d = if d = c then st else m.getKeyState d := by
  unfold Manager.updateKeyState Manager.getKeyState
  by_cases h : d = c
  · subst h; rw [AList.lookup_insert, if_pos rfl]; rfl
  · rw [AList.lookup_insert_ne h, if_neg h]

theorem getKeyState_released : ∀ (l : List String) (m : Manager) (c : String),
    (l.foldl (fun m c => m.updateKeyState c .released) m).getKeyState c =
      if c ∈ l then .released else m.getKeyState c
  | [], _, _ => rfl
  | d :: l, m, c => by
    rw [List.foldl_cons, getKeyState_released l, getKeyState_updateKeyState]
    by_cases h : c = d <;> by_cases hl : c ∈ l <;> simp [h, hl]

theorem getKeyState_buttons : ∀ (l : List Int) (m : Manager) (c : String),
    (l.foldl (fun m b => m.updateMouseButtonState b .released) m).getKeyState c = m.getKeyState c
  | [], _, _ => rfl
  | _ :: l, _, c => getKeyState_buttons l _ c

theorem mem_heldKeys (m : Manager) (c : String) : c ∈ m.heldKeys ↔ m.getKeyState c ≠ .released := by
  unfold Manager.heldKeys
  rw [List.mem_filter]
  refine ⟨fun ⟨_, h⟩ hr => by simp [hr] at h, fun h => ⟨?_, ?_⟩⟩
  · refine AList.mem_keys.1 (AList.lookup_isSome.1 ?_)
    unfold Manager.getKeyState at h
    cases hl : m.keyStates.lookup c with
    | none => rw [hl] at h; exact absurd rfl h
    | some _ => rfl
  · cases hs : m.getKeyState c with
    | released => exact absurd hs h
    | _ => simp

/-- The synthetic keyups of a reset read as keyups. -/
theorem reads_syntheticKeyup (now : Nat) (reason c : String) : Reads (Manager.syntheticKeyup now reason c) ⟨c, .up⟩ :=
  ⟨rfl, rfl, rfl⟩

theorem sequenceId_of_common {j : Json} (h : InputSchema.validateCommon j = .ok ()) : (sequenceId? j).isSome := by
  unfold InputSchema.validateCommon at h
  unfold sequenceId?
  cases hf : j.field? "sequenceId" with
  | none => rfl
  | some n =>
    rw [hf] at h
    cases n with
    | int n => rfl
    | _ => cases h

/-- An event of another type never reaches the keyboard handler. -/
theorem keyboardMessages_other {eventType : String} (h : eventType ≠ "keydown" ∧ eventType ≠ "keyup" ∧
    eventType ≠ "emergency_keyup" ∧ eventType ≠ "stuck_key_recovery") (data : Json) :
    keyboardMessages [⟨eventType, data⟩] = [] := by
  unfold keyboardMessages
  rw [List.filter_cons_of_neg (by simp [h])]
  rfl

theorem keyboardMessages_mouse (m : Manager) (eventType : String) (data : Json) :
    keyboardMessages (m.processMouseEvent eventType data).2 = [] ∧
      ∀ c, (m.processMouseEvent eventType data).1.getKeyState c = m.getKeyState c := by
  unfold Manager.processMouseEvent
  by_cases hmove : eventType = "mousemove"
  · rw [if_pos hmove]
    exact ⟨keyboardMessages_other (by subst hmove; decide) data, fun _ => rfl⟩
  rw [if_neg hmove]
  by_cases hbutton : (decide (eventType = "mousedown") || decide (eventType = "mouseup")) = true
  · rw [if_pos hbutton]
    cases (data.field? "button").bind Json.int32? with
    | none => exact ⟨rfl, fun _ => rfl⟩
    | some button =>
      dsimp only
      generalize (if eventType = "mousedown" then MouseButtonState.pressed else .released) = state
      by_cases hs : m.getMouseButtonState button = state
      · rw [if_pos hs]
        exact ⟨rfl, fun _ => rfl⟩
      · rw [if_neg hs]
        refine ⟨keyboardMessages_other ?_ data, fun _ => rfl⟩
        simp only [Bool.or_eq_true, decide_eq_true_eq] at hbutton
        rcases hbutton with rfl | rfl <;> decide
  rw [if_neg hbutton]
  by_cases hwheel : (decide (eventType = "wheel") || decide (eventType = "hwheel")) = true
  · rw [if_pos hwheel]
    refine ⟨keyboardMessages_other ?_ data, fun _ => rfl⟩
    simp only [Bool.or_eq_true, decide_eq_true_eq] at hwheel
    rcases hwheel with rfl | rfl <;> decide
  · rw [if_neg hwheel]
    exact ⟨rfl, fun _ => rfl⟩

/-- The handler's state for an event type. -/
def stateOf (eventType : String) : KeyState := if eventType = "keydown" then .down else .up

theorem held_stateOf (eventType : String) :
    held (stateOf eventType) = if eventType = "keydown" then .pressed else .released := by
  unfold stateOf
  split <;> rfl

theorem forwards_processKeyboardEvent (m : Manager) {event : InputSchema.Event} {p : Payload}
    (ha : InputSchema.accepted p = some event) (hkey : event.eventType = "keydown" ∨ event.eventType = "keyup") :
    ∃ es, List.Forall₂ Reads (keyboardMessages (m.processKeyboardEvent event.eventType event.value).2) es ∧
      Forwards m (m.processKeyboardEvent event.eventType event.value).1 es := by
  obtain ⟨-, hobj, htype, hcommon⟩ := InputSchema.accepted_spec ha
  unfold Manager.processKeyboardEvent
  cases hcode : (event.value.field? "code").bind Json.str? with
  | none => exact ⟨[], .nil, .quiet fun _ => rfl⟩
  | some c =>
    dsimp only
    rw [← held_stateOf]
    by_cases hsupp : isSupportedKeyCode c = true
    · rw [if_neg (by simp [hsupp])]
      by_cases hs : m.getKeyState c = held (stateOf event.eventType)
      · rw [if_pos hs]
        exact ⟨[], .nil, .quiet fun _ => rfl⟩
      · rw [if_neg hs]
        refine ⟨[⟨c, stateOf event.eventType⟩], ?_, .key c _ hsupp hs fun d => getKeyState_updateKeyState ..⟩
        have hcontains : event.value.contains "code" = true := by
          unfold Json.contains
          cases hf : event.value.field? "code" with
          | none => rw [hf] at hcode; cases hcode
          | some _ => rfl
        have hread : Reads event.value ⟨c, stateOf event.eventType⟩ := by
          refine ⟨?_, sequenceId_of_common hcommon, ?_⟩
          · rw [hobj, hcontains, Json.contains, htype]
            rfl
          · unfold keyEvent?
            rw [hcode, htype]
            rfl
        unfold keyboardMessages
        rw [List.filter_cons_of_pos (by rcases hkey with h | h <;> simp [h])]
        exact .cons hread .nil
    · rw [if_pos (by simpa using hsupp)]
      exact ⟨[], .nil, .quiet fun _ => rfl⟩

theorem getKeyState_emergencyReleaseAllKeys (m : Manager) (d : Delivery) (reason c : String) :
    (m.emergencyReleaseAllKeys d reason).1.getKeyState c = .released := by
  unfold Manager.emergencyReleaseAllKeys
  dsimp only
  rw [getKeyState_buttons, getKeyState_released]
  split
  · rfl
  · rename_i h
    rw [(d.keys.perm _).mem_iff, mem_heldKeys, not_not] at h
    exact h

theorem forwards_emergencyReleaseAllKeys (m : Manager) (d : Delivery) (reason : String) :
    ∃ es, List.Forall₂ Reads (keyboardMessages (m.emergencyReleaseAllKeys d reason).2) es ∧
      Forwards m (m.emergencyReleaseAllKeys d reason).1 es := by
  refine ⟨(d.keys.order m.heldKeys).map fun c => ⟨c, .up⟩, ?_,
    .reset _ ?_ ?_ (getKeyState_emergencyReleaseAllKeys m d reason)⟩
  · unfold Manager.emergencyReleaseAllKeys keyboardMessages
    dsimp only
    rw [List.filter_append, List.filter_eq_self.2 (by simp), List.filter_eq_nil_iff.2 (by simp), List.append_nil,
      List.map_map, List.forall₂_map_left_iff, List.forall₂_map_right_iff]
    exact List.forall₂_same.2 fun c _ => reads_syntheticKeyup d.now reason c
  · exact (d.keys.perm _).nodup_iff.2 ((AList.keys_nodup _).filter _)
  · exact fun c => (d.keys.perm _).mem_iff.trans (mem_heldKeys m c)

theorem forwards_processInputMessage (m : Manager) (d : Delivery) :
    ∃ es, List.Forall₂ Reads (keyboardMessages (m.processInputMessage d).2) es ∧
      Forwards m (m.processInputMessage d).1 es := by
  unfold Manager.processInputMessage
  cases ha : InputSchema.accepted d.message with
  | none => exact ⟨[], .nil, .quiet fun _ => rfl⟩
  | some event =>
    dsimp only
    by_cases hreset : event.eventType = "input_reset"
    · rw [if_pos hreset]
      cases event.value.valueStr "reason" "transport_reset" with
      | none => exact ⟨[], .nil, .quiet fun _ => rfl⟩
      | some reason => exact forwards_emergencyReleaseAllKeys m d reason
    rw [if_neg hreset]
    by_cases hkey : (decide (event.eventType = "keydown") || decide (event.eventType = "keyup")) = true
    · rw [if_pos hkey]
      exact forwards_processKeyboardEvent m ha (by simpa using hkey)
    · rw [if_neg hkey]
      obtain ⟨h₁, h₂⟩ := keyboardMessages_mouse m event.eventType event.value
      exact ⟨[], by rw [h₁]; exact .nil, .quiet h₂⟩

/-! ## The whole sequence -/

theorem Loop.drain_append (l : Loop) (js js' : List Json) :
    l.drain moment (js ++ js') = (l.drain moment js).drain moment js' := List.foldl_append

theorem gapless_append : ∀ {l : Loop} {js js' : List Json},
    Gapless moment l (js ++ js') ↔ Gapless moment l js ∧ Gapless moment (l.drain moment js) js'
  | _, [], _ => ⟨fun h => ⟨trivial, h⟩, And.right⟩
  | l, j :: js, js' => by
    rw [List.cons_append, Gapless, Gapless, gapless_append, and_assoc]
    rfl

/-- The Enter keys pass every filter. -/
theorem passes_return (k : Keyboard) {c : String} (hv : mapJavaScriptCodeToVK c = VK_RETURN) (st : KeyState) :
    k.passes c st = true := by
  have hall : ∀ p ∈ vkMap, p.2 = VK_RETURN → shouldBlockKey p.1 = false := by decide +kernel
  have hne : mapJavaScriptCodeToVK c ≠ 0 := by rw [hv]; decide
  have hdanger : k.dangerousCombination VK_RETURN = false := by
    unfold Keyboard.dangerousCombination
    simp [VK_RETURN, VK_TAB, VK_ESCAPE, VK_F4, VK_LMENU, VK_RMENU, VK_LCONTROL, VK_RCONTROL]
  unfold Keyboard.passes
  rw [hall _ (mem_vkMap hne) hv, hv, hdanger]
  simp [VK_RETURN]

/-- **What the loop keeps**, the keys `s` being the ones the state manager holds: the keys are those of the log, and
the Enter keys, which share a virtual key, are down in the log where they are held. -/
structure Tracked (s : String → Prop) (l : Loop) : Prop where
  keys : l.keyboard.keys = replay l.accepted
  mapped : ∀ e ∈ l.accepted, mapJavaScriptCodeToVK e.code ≠ 0
  alternates : ∀ c, mapJavaScriptCodeToVK c = VK_RETURN → Alternates c l.accepted
  held : ∀ c, mapJavaScriptCodeToVK c = VK_RETURN → (s c ↔ stateIn l.accepted c = .down)

theorem Tracked.congr {s s' : String → Prop} {l : Loop} (h : Tracked s l) (hs : ∀ c, s' c ↔ s c) : Tracked s' l :=
  ⟨h.keys, h.mapped, h.alternates, fun c hc => (hs c).trans (h.held c hc)⟩

/-- A round keeps it, where an Enter key that comes down was up, and one that comes up was down. -/
theorem Tracked.round {s : String → Prop} {l : Loop} {j : Json} {e : KeyEvent} (h : Tracked s l) (hr : Reads j e)
    (hg : ∀ n ∈ sequenceId? j, l.keyboard.sequence.gap n = false)
    (he : mapJavaScriptCodeToVK e.code = VK_RETURN → (s e.code ↔ e.state = .up)) :
    Tracked (fun c => if c = e.code then e.state = .down else s c) (l.round moment j) := by
  obtain ⟨hacc, hkeys⟩ := round_reads moment hr hg
  by_cases hp : l.keyboard.passes e.code e.state = true
  · rw [if_pos hp] at hacc hkeys
    rw [List.singleton_append] at hacc
    have hflip : mapJavaScriptCodeToVK e.code = VK_RETURN → stateIn l.accepted e.code ≠ e.state := by
      intro hv heq
      have := (h.held _ hv).symm.trans (he hv)
      rw [heq] at this
      cases hst : e.state <;> simp [hst] at this
    refine ⟨?_, ?_, fun c hc => ?_, fun c hc => ?_⟩
    · rw [hkeys, hacc, replay_cons, h.keys]
    · rw [hacc]
      rintro d (_ | ⟨_, hd⟩)
      · unfold Keyboard.passes at hp
        simp only [Bool.and_eq_true, decide_eq_true_eq] at hp
        exact hp.1.1
      · exact h.mapped d hd
    · rw [hacc]
      exact ⟨fun hc' => by subst hc'; exact hflip hc, h.alternates c hc⟩
    · obtain ⟨d, st⟩ := e
      rw [hacc]
      dsimp only
      by_cases hcd : c = d
      · rw [if_pos hcd, hcd, stateIn_cons_self]
      · rw [if_neg hcd, stateIn_cons_of_ne (Ne.symm hcd)]
        exact h.held c hc
  · rw [if_neg hp] at hacc hkeys
    rw [List.nil_append] at hacc
    have hret : mapJavaScriptCodeToVK e.code ≠ VK_RETURN := fun hv => hp (passes_return _ hv _)
    refine ⟨by rw [hkeys, hacc, h.keys], by rw [hacc]; exact h.mapped, by rw [hacc]; exact h.alternates,
      fun c hc => ?_⟩
    rw [hacc, if_neg fun hcd => hret (by rw [← hcd]; exact hc)]
    exact h.held c hc

/-- The keyups of a reset, each of a held key. -/
theorem Tracked.releases : ∀ {cs : List String} {js : List Json} {s : String → Prop} {l : Loop}, Tracked s l →
    List.Forall₂ Reads js (cs.map fun c => ⟨c, .up⟩) → cs.Nodup → (∀ c ∈ cs, s c) → Gapless moment l js →
    Tracked (fun c => s c ∧ c ∉ cs) (l.drain moment js)
  | [], js, s, l, h, hr, _, _, _ => by
    cases hr
    exact h.congr fun c => by simp
  | c :: cs, j :: js, s, l, h, .cons hr hrs, hnd, hs, hg => by
    obtain ⟨hc, hnd⟩ := List.nodup_cons.1 hnd
    have hround : Tracked _ (l.round moment j) := h.round hr hg.1 fun _ => iff_of_true (hs c List.mem_cons_self) rfl
    have hne : ∀ d ∈ cs, d ≠ c := fun d hd hdc => hc (hdc ▸ hd)
    have hrest := hround.releases hrs hnd
      (fun d hd => by rw [if_neg (hne d hd)]; exact hs d (List.mem_cons_of_mem c hd)) hg.2
    refine hrest.congr fun d => ?_
    by_cases hdc : d = c
    · simp [hdc]
    · simp [hdc]

/-- A key is never stuck: the recovery is off. -/
def Unstuck (m : Manager) : Prop := ∀ c, m.getKeyState c ≠ .stuck

theorem Unstuck.forwards {m m' : Manager} {es : List KeyEvent} (hm : Unstuck m) (hf : Forwards m m' es) :
    Unstuck m' := by
  intro c
  cases hf with
  | quiet h => rw [h]; exact hm c
  | key d st _ _ h =>
    rw [h]
    split
    · cases st <;> exact fun hs => by cases hs
    · exact hm c
  | reset l _ _ h => rw [h]; exact fun hs => by cases hs

/-- One delivery keeps it. -/
theorem Tracked.deliver {m m' : Manager} {l : Loop} {js : List Json} {es : List KeyEvent} (hm : Unstuck m)
    (h : Tracked (fun c => m.getKeyState c ≠ .released) l) (hr : List.Forall₂ Reads js es) (hf : Forwards m m' es)
    (hg : Gapless moment l js) : Tracked (fun c => m'.getKeyState c ≠ .released) (l.drain moment js) := by
  cases hf with
  | quiet hq =>
    cases hr
    exact h.congr fun c => by rw [hq]
  | key c st _ hne hk =>
    cases hr with
    | @cons j _ js' _ hr hnil =>
      cases hnil
      have hround : Tracked _ (l.round moment j) := h.round hr hg.1 fun _ => by
        have := hm c
        cases st with
        | up => exact iff_of_true hne rfl
        | down =>
          refine iff_of_false (fun hs => ?_) (fun hs => by cases hs)
          cases hc : m.getKeyState c with
          | released => exact hs hc
          | pressed => exact hne hc
          | stuck => exact this hc
      refine hround.congr fun d => ?_
      rw [hk]
      by_cases hd : d = c
      · rw [if_pos hd, if_pos hd]
        cases st <;> simp [KeyInput.held]
      · rw [if_neg hd, if_neg hd]
  | reset cs hnd hcs hup =>
    refine (h.releases hr hnd (fun c hc => (hcs c).1 hc) hg).congr fun c => ?_
    rw [hup, hcs]
    simp

/-- Every sequence keeps it. -/
theorem tracked_drain : ∀ (ds : List Delivery) {m : Manager} {l : Loop}, Unstuck m →
    Tracked (fun c => m.getKeyState c ≠ .released) l → Gapless moment l (feed m ds) →
    ∃ s, Tracked s (l.drain moment (feed m ds))
  | [], _, _, _, h, _ => ⟨_, h⟩
  | d :: ds, m, l, hm, h, hg => by
    obtain ⟨es, hr, hf⟩ := forwards_processInputMessage m d
    obtain ⟨hg, hgs⟩ := gapless_append.1 hg
    rw [feed, Loop.drain_append]
    exact tracked_drain ds (hm.forwards hf) (h.deliver hm hr hf hg) hgs

/-- A code without a virtual key is never heard of. -/
theorem unmapped {c : String} (hc : mapJavaScriptCodeToVK c = 0) : ∀ {log : List KeyEvent},
    (∀ e ∈ log, mapJavaScriptCodeToVK e.code ≠ 0) →
      (replay log).states c = .up ∧ stateIn log c = .up ∧ ¬Swallowed c log
  | [], _ => ⟨rfl, rfl, id⟩
  | ⟨d, st⟩ :: log, h => by
    obtain ⟨hstates, hlast, hno⟩ := unmapped hc fun e he => h e (List.mem_cons_of_mem _ he)
    have hd : d ≠ c := fun hdc => h ⟨d, st⟩ List.mem_cons_self (by rw [← hc, ← hdc])
    refine ⟨?_, by rw [stateIn_cons_of_ne hd, hlast], by rw [Swallowed, if_neg hd]; exact hno⟩
    cases st with
    | down => rw [replay, states_press, if_neg (Ne.symm hd), hstates]
    | up => rw [replay, states_release, if_neg fun h => hd h.1.symm, hstates]

/-- A code is down where its last accepted event is a keydown, and where its keyup was swallowed, the two excluding
each other. -/
theorem Tracked.down_iff {s : String → Prop} {l : Loop} (h : Tracked s l) (c : String) :
    (l.keyboard.keyStates c = .down ↔ stateIn l.accepted c = .down ∨ Swallowed c l.accepted) ∧
      (Swallowed c l.accepted → stateIn l.accepted c = .up) := by
  have hk : l.keyboard.keyStates = (replay l.accepted).states := congrArg Keys.states h.keys
  rw [hk]
  by_cases hc : mapJavaScriptCodeToVK c = 0
  · obtain ⟨hstates, hlast, hno⟩ := unmapped hc h.mapped
    rw [hstates, hlast]
    exact ⟨⟨fun h => (by cases h), fun h => h.elim (fun h => by cases h) fun h => absurd h hno⟩, fun _ => rfl⟩
  by_cases hr : mapJavaScriptCodeToVK c = VK_RETURN
  · exact states_alternating (h.alternates c hr)
  · have hno := not_swallowed_unshared hc hr l.accepted
    rw [states_unshared hc hr]
    exact ⟨⟨.inl, fun h => h.resolve_right hno⟩, fun h => absurd h hno⟩

/-- **After the loop has drained the messages the codes recorded as down are the ones whose last accepted event is a
keydown, exactly when no keyup was swallowed**. -/
theorem tracked_iff (moment : Nat → Moment) (ds : List Delivery) (hg : Gapless moment {} (feed {} ds)) :
    (∀ c, (Loop.drain moment {} (feed {} ds)).keyboard.keyStates c = .down ↔
        stateIn (Loop.drain moment {} (feed {} ds)).accepted c = .down) ↔
      ∀ c, ¬Swallowed c (Loop.drain moment {} (feed {} ds)).accepted := by
  have hm : Unstuck {} := fun c h => by cases h
  have h₀ : Tracked (fun c => Manager.getKeyState {} c ≠ .released) {} :=
    ⟨rfl, fun e he => (by cases he), fun _ _ => trivial,
      fun _ _ => iff_of_false (fun h => h rfl) fun h => (by cases h)⟩
  obtain ⟨s, h⟩ := tracked_drain ds hm h₀ hg
  refine forall_congr' fun c => ?_
  obtain ⟨hdown, hup⟩ := h.down_iff c
  rw [hdown]
  refine ⟨fun hi hs => ?_, fun hno => ⟨fun hi => hi.resolve_right hno, .inl⟩⟩
  have := (hup hs).symm.trans (hi.1 (.inr hs))
  cases this

section enters

/-- The game's window is in the foreground. -/
def focused : Desktop where
  target := some 1
  foreground := some 1
  isWindow _ := true
  isWindowVisible _ := true
  isIconic _ := false
  isWindowEnabled _ := true

def atEase : Moment := ⟨0, focused, ⟨focused, true⟩, fun _ => ⟨focused, true⟩⟩

/-- A key event of a client, as it arrives. -/
def keyMessage (eventType jsCode : String) : Delivery :=
  ⟨⟨64, some (.obj [("code", .str jsCode), ("type", .str eventType)])⟩, 0, .asStored, .asStored⟩

/-- One Enter key is pressed and let go. -/
def oneEnter : List Delivery := [keyMessage "keydown" "Enter", keyMessage "keyup" "Enter"]

/-- Both Enter keys are pressed, then both are let go. -/
def bothEnters : List Delivery :=
  [keyMessage "keydown" "Enter", keyMessage "keydown" "NumpadEnter", keyMessage "keyup" "Enter",
    keyMessage "keyup" "NumpadEnter"]

theorem tracked_oneEnter :
    (∀ c, (Loop.drain (fun _ => atEase) {} (feed {} oneEnter)).keyboard.keyStates c = .down ↔
        stateIn (Loop.drain (fun _ => atEase) {} (feed {} oneEnter)).accepted c = .down) ↔
      ∀ c, ¬Swallowed c (Loop.drain (fun _ => atEase) {} (feed {} oneEnter)).accepted :=
  tracked_iff _ _ (by decide +kernel)

theorem gapless_bothEnters : Gapless (fun _ => atEase) {} (feed {} bothEnters) := by decide +kernel

theorem left_bothEnters :
    (Loop.drain (fun _ => atEase) {} (feed {} bothEnters)).keyboard.keyStates "NumpadEnter" = .down ∧
      stateIn (Loop.drain (fun _ => atEase) {} (feed {} bothEnters)).accepted "NumpadEnter" = .up := by
  decide +kernel

/-- **The second keyup of two Enter keys is swallowed**: its code is recorded down, and its last accepted event is a
keyup. -/
theorem not_tracked_bothEnters :
    Gapless (fun _ => atEase) {} (feed {} bothEnters) ∧
      ¬∀ c, (Loop.drain (fun _ => atEase) {} (feed {} bothEnters)).keyboard.keyStates c = .down ↔
        stateIn (Loop.drain (fun _ => atEase) {} (feed {} bothEnters)).accepted c = .down := by
  refine ⟨gapless_bothEnters, fun h => ?_⟩
  obtain ⟨hdown, hup⟩ := left_bothEnters
  have := hup.symm.trans ((h "NumpadEnter").1 hdown)
  cases this

end enters

end KeyInput
end Host
end CloudGaming
