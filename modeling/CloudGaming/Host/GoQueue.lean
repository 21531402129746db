import CloudGaming.Host.HeldKeys
import CloudGaming.Host.Transport
/-!
# GoQueue — the keyboard queue of the Go layer, in front of the transport layer and the state manager

The Go layer holds the messages of the keyboard channel until the host polls them.  Where it discards messages, or the
channel closes, it enqueues an `input_reset` of its own; the host polls it, tests its session, and drops it: it names
none.  A key the client held is released by the client's own messages, or by an overflow of the transport queue.
-/
namespace CloudGaming
namespace Host
namespace GoInput

open InputSchema StateManager Transport KeyInput

/-- The Go layer's own reset. -/
def goReset (reason : String) : Payload :=
  ⟨34 + reason.utf8ByteSize, some (.obj [("reason", .str reason), ("type", .str "input_reset")])⟩

/-- The reasons it gives. -/
def goReasons : List String :=
  ["keyboard_queue_overflow", "keyboard_channel_closed", "keyboard_channel_error", "peer_connection_unavailable"]

def maxKeyboardMessages : Nat := 128

/-- What an input turn finds: the clock, and the orders the state manager walks its maps in. -/
structure Turn where
  now : Nat
  keys : Walk String
  buttons : Walk Int

def Turn.deliver (t : Turn) (p : Payload) : Delivery := ⟨p, t.now, t.keys, t.buttons⟩

/-- The Go queue, the transport queue, and the state manager. -/
structure Chain where
  messageQueue : List Payload := []
  transportQueue : List InputMessage := []
  manager : Manager := {}

/-- What happens.  A message of the mouse channel is taken as the host polls it. -/
inductive Move where
  | message (p : Payload)
  | channelClosed
  | channelError
  | connectionUnavailable
  | createPeerConnection
  | poll (t : Turn)
  | pollMouse (p : Payload) (t : Turn)
  | process (t : Turn)

section chain

/- `goType` is the type Go's own decoder reads in a message; the session is authorised throughout. -/
variable (goType : Payload → String) (maxPendingMessages : Int) (sessionId : String)

/-- `enqueueMessage` of the Go layer. -/
def goEnqueue (queue : List Payload) (p : Payload) : List Payload :=
  if maxKeyboardMessages ≤ queue.length then
    goReset "keyboard_queue_overflow" :: (if goType p ∈ ["keyup", "mouseup", "input_reset"] then [p] else [])
  else queue ++ [p]

namespace Chain

/-- `enqueueMessage` of the transport layer, with its reset handler. -/
def enqueue (s : Chain) (p : Payload) (t : Turn) : Chain :=
  match admitted sessionId p 0 with
  | none => s
  | some m =>
    let pushed := push maxPendingMessages s.transportQueue m
    { s with
      transportQueue := pushed.1
      manager :=
        if pushed.2 then (s.manager.emergencyReleaseAllKeys (t.deliver p) "transport_queue_overflow").1 else s.manager }

def step (s : Chain) : Move → Chain
  | .message p => { s with messageQueue := goEnqueue goType s.messageQueue p }
  | .channelClosed => { s with messageQueue := goEnqueue goType s.messageQueue (goReset "keyboard_channel_closed") }
  | .channelError => { s with messageQueue := goEnqueue goType s.messageQueue (goReset "keyboard_channel_error") }
  | .connectionUnavailable =>
    { s with messageQueue := goEnqueue goType s.messageQueue (goReset "peer_connection_unavailable") }
  | .createPeerConnection => { s with messageQueue := [] }
  | .poll t =>
    match s.messageQueue with
    | [] => s
    | p :: queue => enqueue maxPendingMessages sessionId { s with messageQueue := queue } p t
  | .pollMouse p t => s.enqueue maxPendingMessages sessionId p t
  | .process t =>
    match s.transportQueue with
    | [] => s
    | m :: queue =>
      { s with transportQueue := queue, manager := (s.manager.processInputMessage (t.deliver m.data)).1 }

def run (s : Chain) (moves : List Move) : Chain := moves.foldl (step goType maxPendingMessages sessionId) s

/-- The state manager holds the key. -/
def Holds (s : Chain) (c : String) : Prop := s.manager.getKeyState c ≠ .released

instance decidableHolds (s : Chain) (c : String) : Decidable (s.Holds c) :=
  inferInstanceAs (Decidable (_ ≠ StateManager.KeyState.released))

/-- Everything has been polled and processed. -/
def Drained (s : Chain) : Prop := s.messageQueue = [] ∧ s.transportQueue = []

end Chain

/-- The keyup of a key, whoever reads it. -/
def isKeyup (p : Payload) (c : String) : Prop :=
  ∃ j, p.value = some j ∧ j.field? "type" = some (.str "keyup") ∧ j.field? "code" = some (.str c)

/-- **A move loses the release of a key**: the Go layer discards a keyup of it, or the key channel closes. -/
def Chain.Loses (s : Chain) (c : String) : Move → Prop
  | .message _ | .channelError | .connectionUnavailable =>
    maxKeyboardMessages ≤ s.messageQueue.length ∧ ∃ p ∈ s.messageQueue, isKeyup p c
  | .channelClosed => True
  | .createPeerConnection => ∃ p ∈ s.messageQueue, isKeyup p c
  | _ => False

/-- **No key stays stuck, along a run**: every reset of the Go layer that is polled passes the session test, and a held
key whose release is lost is released by the time everything has been polled and processed. -/
structure Recovers (moves : List Move) : Prop where
  resets : ∀ before t after, moves = before ++ .poll t :: after →
    ∀ p ∈ (Chain.run goType maxPendingMessages sessionId {} before).messageQueue.head?,
      (∃ reason ∈ goReasons, p = goReset reason) → admitted sessionId p 0 ≠ none
  keys : ∀ before move after c, moves = before ++ move :: after →
    (Chain.run goType maxPendingMessages sessionId {} before).Holds c →
    (Chain.run goType maxPendingMessages sessionId {} before).Loses c move →
    (Chain.run goType maxPendingMessages sessionId {} moves).Drained →
      ∃ next, next <+: after ∧ ¬(Chain.run goType maxPendingMessages sessionId {} (before ++ move :: next)).Holds c

/-! ## What releases a key -/

/-- A message that the state manager takes as a release of the key. -/
def releases (p : Payload) (c : String) : Prop :=
  ∃ e, accepted p = some e ∧
    (e.eventType = "input_reset" ∨ e.eventType = "keyup" ∧ (e.value.field? "code").bind Json.str? = some c)

/-- A release of the key waits in the transport queue. -/
def Chain.Pending (s : Chain) (c : String) : Prop := ∃ m ∈ s.transportQueue, releases m.data c

/-- The payload a move hands to the transport layer. -/
def Chain.polled (s : Chain) : Move → Option Payload
  | .poll _ => s.messageQueue.head?
  | .pollMouse p _ => some p
  | _ => none

/-- The client releases the key by a move: the transport layer admits a release of it, or overflows. -/
def Chain.Brings (s : Chain) (c : String) (move : Move) : Prop :=
  ∃ p m, s.polled move = some p ∧ admitted sessionId p 0 = some m ∧
    (releases p c ∨ (push maxPendingMessages s.transportQueue m).2 = true)

/-- The client releases the key along a run. -/
def BringsAlong (c : String) : Chain → List Move → Prop
  | _, [] => False
  | s, move :: moves => s.Brings maxPendingMessages sessionId c move ∨
      BringsAlong c (s.step goType maxPendingMessages sessionId move) moves

/-- **The client makes up for what the Go layer loses**: no reset of the Go layer is polled, and for every held key
whose release is lost, a release waits in the transport queue or the client brings one. -/
structure ClientReleases (moves : List Move) : Prop where
  unpolled : ∀ before t after, moves = before ++ .poll t :: after →
    ∀ p ∈ (Chain.run goType maxPendingMessages sessionId {} before).messageQueue.head?,
      ¬∃ reason ∈ goReasons, p = goReset reason
  keys : ∀ before move after c, moves = before ++ move :: after →
    (Chain.run goType maxPendingMessages sessionId {} before).Holds c →
    (Chain.run goType maxPendingMessages sessionId {} before).Loses c move →
    (Chain.run goType maxPendingMessages sessionId {} moves).Drained →
      (Chain.run goType maxPendingMessages sessionId {} before).Pending c ∨
        BringsAlong goType maxPendingMessages sessionId c
          (Chain.run goType maxPendingMessages sessionId {} (before ++ [move])) after

end chain

/-! ## The messages -/

/-- **No reset of the Go layer passes the session test**: it names no session. -/
theorem admitted_goReset (sessionId reason : String) (call : Nat) : admitted sessionId (goReset reason) call = none := by
  unfold admitted
  cases he : accepted (goReset reason) with
  | none => rfl
  | some e =>
    have hvalue : e.value = .obj [("reason", .str reason), ("type", .str "input_reset")] :=
      (Option.some.inj (accepted_spec he).1).symm
    dsimp only [Option.bind_some]
    rw [if_pos]
    by_cases hs : sessionId = ""
    · exact .inl hs
    · rw [hvalue]
      exact .inr (Ne.symm hs)

theorem accepted_of_admitted {sessionId : String} {p : Payload} {call : Nat} {m : InputMessage}
    (h : admitted sessionId p call = some m) : m.data = p ∧ ∃ e, accepted p = some e ∧ e.eventType = m.eventType := by
  unfold admitted at h
  cases he : accepted p with
  | none => rw [he] at h; cases h
  | some e =>
    rw [he] at h
    dsimp only [Option.bind_some] at h
    split at h
    · cases h
    · obtain rfl := Option.some.inj h
      exact ⟨rfl, e, rfl, rfl⟩

/-- The messages of the transport queue have been validated. -/
def Typed (m : InputMessage) : Prop := ∃ e, accepted m.data = some e ∧ e.eventType = m.eventType

theorem typed_overflowReset (call : Nat) : Typed (overflowReset call) := ⟨_, rfl, rfl⟩

theorem not_releases_mouseMove {m : InputMessage} (h : Typed m) (hm : isMouseMove m.eventType = true) (c : String) :
    ¬releases m.data c := by
  obtain ⟨e, he, ht⟩ := h
  rintro ⟨e', he', hr⟩
  obtain rfl := Option.some.inj (he.symm.trans he')
  unfold isMouseMove at hm
  rw [← ht, decide_eq_true_eq] at hm
  rw [hm] at hr
  rcases hr with hr | ⟨hr, -⟩ <;> exact absurd hr (by decide)

/-- A message that does not overflow the queue adds itself, and takes at most a mouse move away. -/
theorem pending_push {maxPendingMessages : Int} {queue : List InputMessage} {m : InputMessage}
    (hq : ∀ n ∈ queue, Typed n) (hm : Typed m) (ho : (push maxPendingMessages queue m).2 = false) (c : String) :
    (∃ n ∈ (push maxPendingMessages queue m).1, releases n.data c) ↔
      (∃ n ∈ queue, releases n.data c) ∨ releases m.data c := by
  unfold push at ho ⊢
  by_cases hmove : (isMouseMove m.eventType && queue.getLast?.any (isMouseMove ·.eventType)) = true
  · rw [if_pos hmove]
    obtain ⟨hmm, hback⟩ := Bool.and_eq_true_iff.1 hmove
    obtain ⟨back, hlast, hbm⟩ := (Option.any_eq_true _ _).1 hback
    obtain ⟨init, rfl⟩ := List.getLast?_eq_some_iff.1 hlast
    have hb := not_releases_mouseMove (hq back (by simp)) hbm c
    have hn := not_releases_mouseMove hm hmm c
    simp [hb, hn]
  rw [if_neg hmove] at ho ⊢
  by_cases hfull : (max 1 maxPendingMessages).toNat ≤ queue.length
  · rw [if_pos hfull] at ho
    cases ho
  · rw [if_neg hfull]
    simp [or_and_right, exists_or]

/-! ## The state manager -/

theorem getKeyState_processKeyboardEvent (m : Manager) (eventType : String) (data : Json) (c : String)
    (h : (data.field? "code").bind Json.str? ≠ some c) :
    (m.processKeyboardEvent eventType data).1.getKeyState c = m.getKeyState c := by
  unfold Manager.processKeyboardEvent
  cases hcode : (data.field? "code").bind Json.str? with
  | none => rfl
  | some d =>
    have hd : c ≠ d := fun hcd => h (by rw [hcode, hcd])
    dsimp only
    generalize (if eventType = "keydown" then StateManager.KeyState.pressed else .released) = st
    by_cases hs : (!isSupportedKeyCode d) = true
    · rw [if_pos hs]
    rw [if_neg hs]
    by_cases hst : m.getKeyState d = st
    · rw [if_pos hst]
    · rw [if_neg hst, getKeyState_updateKeyState, if_neg hd]

theorem getKeyState_processKeyboardEvent_self (m : Manager) (eventType : String) (data : Json) {c : String}
    (h : (data.field? "code").bind Json.str? = some c) (hs : isSupportedKeyCode c = true) :
    (m.processKeyboardEvent eventType data).1.getKeyState c =
      if eventType = "keydown" then StateManager.KeyState.pressed else .released := by
  unfold Manager.processKeyboardEvent
  rw [h]
  dsimp only
  generalize (if eventType = "keydown" then StateManager.KeyState.pressed else .released) = st
  rw [hs, if_neg (by decide)]
  by_cases hst : m.getKeyState c = st
  · rw [if_pos hst]
    exact hst
  · rw [if_neg hst, getKeyState_updateKeyState, if_pos rfl]

/-- A message that is no release of a held key leaves it held. -/
theorem holds_processInputMessage {m : Manager} {d : Delivery} {c : String} (hs : isSupportedKeyCode c = true)
    (hr : ¬releases d.message c) (h : m.getKeyState c ≠ .released) :
    (m.processInputMessage d).1.getKeyState c ≠ .released := by
  unfold Manager.processInputMessage
  cases ha : accepted d.message with
  | none => exact h
  | some e =>
    dsimp only
    by_cases hreset : e.eventType = "input_reset"
    · exact absurd ⟨e, ha, .inl hreset⟩ hr
    rw [if_neg hreset]
    by_cases hkey : (decide (e.eventType = "keydown") || decide (e.eventType = "keyup")) = true
    · rw [if_pos hkey]
      by_cases hcode : (e.value.field? "code").bind Json.str? = some c
      · have hdown : e.eventType = "keydown" := by
          simp only [Bool.or_eq_true, decide_eq_true_eq] at hkey
          exact hkey.resolve_right fun hup => hr ⟨e, ha, .inr ⟨hup, hcode⟩⟩
        rw [getKeyState_processKeyboardEvent_self m _ _ hcode hs, if_pos hdown]
        exact fun h => by cases h
      · rw [getKeyState_processKeyboardEvent m _ _ c hcode]
        exact h
    · rw [if_neg hkey, (keyboardMessages_mouse m e.eventType e.value).2]
      exact h

/-- **A release of a key releases it.** -/
theorem released_processInputMessage {m : Manager} {d : Delivery} {c : String} (hs : isSupportedKeyCode c = true)
    (hr : releases d.message c) : (m.processInputMessage d).1.getKeyState c = .released := by
  obtain ⟨e, ha, hr⟩ := hr
  unfold Manager.processInputMessage
  rw [ha]
  dsimp only
  by_cases hreset : e.eventType = "input_reset"
  · obtain ⟨reason, hreason⟩ := reason_of_accepted ha hreset
    rw [if_pos hreset, hreason]
    exact getKeyState_emergencyReleaseAllKeys m d reason c
  · obtain ⟨hup, hcode⟩ := hr.resolve_left hreset
    rw [if_neg hreset, if_pos (by simp [hup]), getKeyState_processKeyboardEvent_self m _ _ hcode hs, hup]
    rfl

/-! ## One move -/

namespace Chain

/-- What every move keeps: the messages of the transport queue were validated, and only supported keys are held. -/
structure Sound (s : Chain) : Prop where
  typed : ∀ m ∈ s.transportQueue, Typed m
  supported : ∀ c, s.Holds c → isSupportedKeyCode c = true

theorem sound_start : Sound {} := ⟨fun _ hm => (by cases hm), fun _ h => absurd rfl h⟩

variable {goType : Payload → String} {maxPendingMessages : Int} {sessionId : String} {s : Chain}

theorem typed_push {m : InputMessage} (hq : ∀ n ∈ s.transportQueue, Typed n) (hm : Typed m) :
    ∀ n ∈ (push maxPendingMessages s.transportQueue m).1, Typed n := by
  intro n hn
  rcases mem_push hn with hn | rfl | rfl
  · exact hq n hn
  · exact hm
  · exact typed_overflowReset _

theorem sound_enqueue (h : s.Sound) (p : Payload) (t : Turn) : (s.enqueue maxPendingMessages sessionId p t).Sound := by
  unfold enqueue
  cases ha : admitted sessionId p 0 with
  | none => exact h
  | some m =>
    obtain ⟨rfl, htyped⟩ := accepted_of_admitted ha
    refine ⟨typed_push h.typed htyped, fun c hc => ?_⟩
    unfold Holds at hc
    dsimp only at hc
    split at hc
    · exact absurd (getKeyState_emergencyReleaseAllKeys ..) hc
    · exact h.supported c hc

theorem sound_process (h : s.Sound) (t : Turn) :
    (s.step goType maxPendingMessages sessionId (.process t)).Sound := by
  unfold step
  dsimp only
  split
  · exact h
  · rename_i m queue hq
    refine ⟨fun n hn => h.typed n (by rw [hq]; exact List.mem_cons_of_mem m hn), fun c hc => ?_⟩
    obtain ⟨es, -, hf⟩ := forwards_processInputMessage s.manager (t.deliver m.data)
    unfold Holds at hc
    dsimp only at hc
    cases hf with
    | quiet hquiet => rw [hquiet] at hc; exact h.supported c hc
    | key d st hs _ hkey =>
      rw [hkey] at hc
      split at hc
      · rename_i hcd; rw [hcd]; exact hs
      · exact h.supported c hc
    | reset _ _ _ hreset => exact absurd (hreset c) hc

theorem sound_step (h : s.Sound) (move : Move) : (s.step goType maxPendingMessages sessionId move).Sound := by
  cases move with
  | poll t =>
    unfold step
    dsimp only
    split
    · exact h
    · rename_i p queue _
      exact sound_enqueue (s := { s with messageQueue := queue }) ⟨h.typed, h.supported⟩ p t
  | pollMouse p t => exact sound_enqueue h p t
  | process t => exact sound_process h t
  | message _ => exact ⟨h.typed, h.supported⟩
  | channelClosed => exact ⟨h.typed, h.supported⟩
  | channelError => exact ⟨h.typed, h.supported⟩
  | connectionUnavailable => exact ⟨h.typed, h.supported⟩
  | createPeerConnection => exact ⟨h.typed, h.supported⟩

variable {c : String}

/-- Without a release, the key stays held and no release waits. -/
theorem holds_enqueue (h : s.Sound) (hc : s.Holds c) (hp : ¬s.Pending c) {p : Payload} (t : Turn)
    (hb : ∀ m, admitted sessionId p 0 = some m →
      ¬(releases p c ∨ (push maxPendingMessages s.transportQueue m).2 = true)) :
    (s.enqueue maxPendingMessages sessionId p t).Holds c ∧ ¬(s.enqueue maxPendingMessages sessionId p t).Pending c := by
  unfold enqueue
  cases ha : admitted sessionId p 0 with
  | none => exact ⟨hc, hp⟩
  | some m =>
    obtain ⟨rfl, htyped⟩ := accepted_of_admitted ha
    obtain ⟨hr, ho⟩ := not_or.1 (hb m ha)
    have ho : (push maxPendingMessages s.transportQueue m).2 = false := by simpa using ho
    unfold Holds Pending
    dsimp only
    rw [ho, pending_push h.typed htyped ho]
    exact ⟨hc, fun hw => hw.elim hp hr⟩

/-- A release that waits still waits, and one that is brought waits, where the key is held afterwards. -/
theorem pending_enqueue (h : s.Sound) {p : Payload} (t : Turn)
    (hc : (s.enqueue maxPendingMessages sessionId p t).Holds c)
    (hb : s.Pending c ∨ ∃ m, admitted sessionId p 0 = some m ∧
      (releases p c ∨ (push maxPendingMessages s.transportQueue m).2 = true)) :
    (s.enqueue maxPendingMessages sessionId p t).Pending c := by
  unfold enqueue at hc ⊢
  cases ha : admitted sessionId p 0 with
  | none =>
    refine hb.resolve_right fun ⟨m, hm, _⟩ => ?_
    rw [ha] at hm
    cases hm
  | some m =>
    rw [ha] at hc
    obtain ⟨rfl, htyped⟩ := accepted_of_admitted ha
    unfold Holds at hc
    unfold Pending
    dsimp only at hc ⊢
    cases ho : (push maxPendingMessages s.transportQueue m).2 with
    | true =>
      rw [ho, if_pos rfl] at hc
      exact absurd (getKeyState_emergencyReleaseAllKeys ..) hc
    | false =>
      rw [pending_push h.typed htyped ho]
      refine hb.imp id ?_
      rintro ⟨n, hn, hr⟩
      rw [ha] at hn
      obtain rfl := Option.some.inj hn
      rw [ho] at hr
      exact hr.resolve_right fun h => by cases h

theorem holds_step (h : s.Sound) (hc : s.Holds c) (hp : ¬s.Pending c) {move : Move}
    (hb : ¬s.Brings maxPendingMessages sessionId c move) :
    (s.step goType maxPendingMessages sessionId move).Holds c ∧
      ¬(s.step goType maxPendingMessages sessionId move).Pending c := by
  cases move with
  | poll t =>
    unfold step
    dsimp only
    split
    · exact ⟨hc, hp⟩
    · rename_i p queue hq
      exact holds_enqueue (s := { s with messageQueue := queue }) ⟨h.typed, h.supported⟩ hc hp t fun m hm hr =>
        hb ⟨p, m, by unfold polled; rw [hq]; rfl, hm, hr⟩
  | pollMouse p t => exact holds_enqueue h hc hp t fun m hm hr => hb ⟨p, m, rfl, hm, hr⟩
  | process t =>
    unfold step
    dsimp only
    split
    · exact ⟨hc, hp⟩
    · rename_i m queue hq
      refine ⟨holds_processInputMessage (h.supported c hc) (fun hr => hp ⟨m, ?_, hr⟩) hc, fun ⟨n, hn, hr⟩ => hp ⟨n, ?_, hr⟩⟩
      · rw [hq]; exact List.mem_cons_self
      · rw [hq]; exact List.mem_cons_of_mem m hn
  | message _ => exact ⟨hc, hp⟩
  | channelClosed => exact ⟨hc, hp⟩
  | channelError => exact ⟨hc, hp⟩
  | connectionUnavailable => exact ⟨hc, hp⟩
  | createPeerConnection => exact ⟨hc, hp⟩

theorem pending_step (h : s.Sound) (hs : s.Holds c) {move : Move}
    (hc : (s.step goType maxPendingMessages sessionId move).Holds c)
    (hb : s.Pending c ∨ s.Brings maxPendingMessages sessionId c move) :
    (s.step goType maxPendingMessages sessionId move).Pending c := by
  have hquiet : s.polled move = none → s.Pending c := fun hn => hb.resolve_right fun ⟨p, _, hp, _⟩ => by
    rw [hn] at hp
    cases hp
  cases move with
  | poll t =>
    unfold step at hc ⊢
    dsimp only at hc ⊢
    cases hq : s.messageQueue with
    | nil => exact hquiet (by unfold polled; rw [hq]; rfl)
    | cons p queue =>
      rw [hq] at hc
      refine pending_enqueue (s := { s with messageQueue := queue }) ⟨h.typed, h.supported⟩ t hc (hb.imp id ?_)
      rintro ⟨p', m, hp, hm, hr⟩
      unfold polled at hp
      rw [hq] at hp
      obtain rfl := Option.some.inj hp
      exact ⟨m, hm, hr⟩
  | pollMouse p t =>
    refine pending_enqueue h t hc (hb.imp id ?_)
    rintro ⟨p', m, hp, hm, hr⟩
    obtain rfl := Option.some.inj hp
    exact ⟨m, hm, hr⟩
  | process t =>
    obtain ⟨n, hn, hr⟩ := hquiet rfl
    unfold step at hc ⊢
    dsimp only at hc ⊢
    cases hq : s.transportQueue with
    | nil => rw [hq] at hn; cases hn
    | cons m queue =>
      rw [hq] at hc hn
      rcases List.mem_cons.1 hn with rfl | hn
      · exact absurd (released_processInputMessage (h.supported c hs) hr) hc
      · exact ⟨n, hn, hr⟩
  | message _ => exact hquiet rfl
  | channelClosed => exact hquiet rfl
  | channelError => exact hquiet rfl
  | connectionUnavailable => exact hquiet rfl
  | createPeerConnection => exact hquiet rfl

end Chain

/-! ## Runs -/

section runs

variable {goType : Payload → String} {maxPendingMessages : Int} {sessionId : String} {c : String}

theorem sound_run : ∀ {moves : List Move} {s : Chain}, s.Sound → (s.run goType maxPendingMessages sessionId moves).Sound
  | [], _, h => h
  | move :: _, s, h =>
    sound_run (s := s.step goType maxPendingMessages sessionId move) (Chain.sound_step h move)

/-- Where nothing brings a release the key stays held. -/
theorem holds_run : ∀ {moves : List Move} {s : Chain}, s.Sound → s.Holds c → ¬s.Pending c →
    ¬BringsAlong goType maxPendingMessages sessionId c s moves → ∀ next, next <+: moves →
      (s.run goType maxPendingMessages sessionId next).Holds c
  | [], s, _, hc, _, _, next, hn => by
    obtain rfl := List.prefix_nil.1 hn
    exact hc
  | move :: moves, s, h, hc, hp, hb, next, hn => by
    obtain ⟨hb, hbs⟩ := not_or.1 hb
    rcases List.prefix_cons_iff.1 hn with rfl | ⟨rest, rfl, hrest⟩
    · exact hc
    · have hstep : (s.step goType maxPendingMessages sessionId move).Holds c ∧ _ := Chain.holds_step h hc hp hb
      exact holds_run (Chain.sound_step h move) hstep.1 hstep.2 hbs rest hrest

/-- Where the key is held throughout, a release that is brought still waits at the end. -/
theorem pending_run : ∀ {moves : List Move} {s : Chain}, s.Sound →
    (∀ next, next <+: moves → (s.run goType maxPendingMessages sessionId next).Holds c) →
    s.Pending c ∨ BringsAlong goType maxPendingMessages sessionId c s moves →
      (s.run goType maxPendingMessages sessionId moves).Pending c
  | [], _, _, _, hb => hb.resolve_right id
  | move :: moves, s, h, hc, hb => by
    have hnow : s.Holds c := hc [] List.nil_prefix
    have hnext : (s.step goType maxPendingMessages sessionId move).Holds c :=
      hc [move] (List.prefix_cons_iff.2 (.inr ⟨[], rfl, List.nil_prefix⟩))
    refine pending_run (s := s.step goType maxPendingMessages sessionId move) (Chain.sound_step h move)
      (fun next hn => hc (move :: next) (List.prefix_cons_iff.2 (.inr ⟨next, rfl, hn⟩))) ?_
    rcases hb with hb | hb | hb
    · exact .inl (Chain.pending_step h hnow hnext (.inl hb))
    · exact .inl (Chain.pending_step h hnow hnext (.inr hb))
    · exact .inr hb

/-- **A held key is released by the time everything is processed, exactly when a release of it waits or the client
brings one.** -/
theorem released_iff {s : Chain} (h : s.Sound) (hc : s.Holds c) {moves : List Move}
    (hd : (s.run goType maxPendingMessages sessionId moves).Drained) :
    (∃ next, next <+: moves ∧ ¬(s.run goType maxPendingMessages sessionId next).Holds c) ↔
      s.Pending c ∨ BringsAlong goType maxPendingMessages sessionId c s moves := by
  refine ⟨fun ⟨next, hn, hup⟩ => ?_, fun hb => ?_⟩
  · by_contra hno
    obtain ⟨hp, hb⟩ := not_or.1 hno
    exact hup (holds_run h hc hp hb next hn)
  · by_contra hno
    have hall : ∀ next, next <+: moves → (s.run goType maxPendingMessages sessionId next).Holds c :=
      fun next hn => by_contra fun hup => hno ⟨next, hn, hup⟩
    obtain ⟨m, hm, -⟩ := pending_run h hall hb
    rw [hd.2] at hm
    cases hm

theorem run_append (s : Chain) (before after : List Move) :
    s.run goType maxPendingMessages sessionId (before ++ after) =
      (s.run goType maxPendingMessages sessionId before).run goType maxPendingMessages sessionId after :=
  List.foldl_append

/-- What the Go layer does leaves the host as it is. -/
theorem host_of_loses (goType : Payload → String) (maxPendingMessages : Int) (sessionId : String) {s : Chain} {move : Move} (h : s.Loses c move) :
    (s.step goType maxPendingMessages sessionId move).transportQueue = s.transportQueue ∧
      (s.step goType maxPendingMessages sessionId move).manager = s.manager := by
  cases move with
  | poll _ => exact absurd h id
  | pollMouse _ _ => exact absurd h id
  | process _ => exact absurd h id
  | _ => exact ⟨rfl, rfl⟩

end runs

/-- **A run recovers every key exactly when the client makes up for what the Go layer loses**: the resets of the Go
layer never count. -/
theorem recovers_iff (goType : Payload → String) (maxPendingMessages : Int) (sessionId : String) (moves : List Move) :
    Recovers goType maxPendingMessages sessionId moves ↔
      ClientReleases goType maxPendingMessages sessionId moves := by
  have hresets : ∀ p : Payload, ((∃ reason ∈ goReasons, p = goReset reason) → admitted sessionId p 0 ≠ none) ↔
      ¬∃ reason ∈ goReasons, p = goReset reason := fun p =>
    ⟨fun h hr => h hr (by obtain ⟨reason, -, rfl⟩ := hr; exact admitted_goReset sessionId reason 0),
      fun h hr => absurd hr h⟩
  have hkeys : ∀ before move after c, moves = before ++ move :: after →
      (Chain.run goType maxPendingMessages sessionId {} before).Holds c →
      (Chain.run goType maxPendingMessages sessionId {} before).Loses c move →
      (Chain.run goType maxPendingMessages sessionId {} moves).Drained →
        ((∃ next, next <+: after ∧
            ¬(Chain.run goType maxPendingMessages sessionId {} (before ++ move :: next)).Holds c) ↔
          (Chain.run goType maxPendingMessages sessionId {} before).Pending c ∨
            BringsAlong goType maxPendingMessages sessionId c
              (Chain.run goType maxPendingMessages sessionId {} (before ++ [move])) after) := by
    intro before move after c hm hc hl hd
    have hsound : (Chain.run goType maxPendingMessages sessionId {} before).Sound := sound_run Chain.sound_start
    obtain ⟨hqueue, hmanager⟩ := host_of_loses goType maxPendingMessages sessionId hl
    rw [hm, run_append] at hd
    have hiff := released_iff (Chain.sound_step hsound move) (by unfold Chain.Holds; rw [hmanager]; exact hc) hd
    unfold Chain.Pending at hiff ⊢
    rw [hqueue] at hiff
    rw [run_append]
    refine Iff.trans (exists_congr fun next => ?_) hiff
    rw [run_append]
    rfl
  refine ⟨fun h => ⟨fun before t after hm p hp => (hresets p).1 (h.resets before t after hm p hp),
    fun before move after c hm hc hl hd => (hkeys before move after c hm hc hl hd).1 (h.keys before move after c hm hc hl hd)⟩,
    fun h => ⟨fun before t after hm p hp => (hresets p).2 (h.unpolled before t after hm p hp),
    fun before move after c hm hc hl hd => (hkeys before move after c hm hc hl hd).2 (h.keys before move after c hm hc hl hd)⟩⟩

section closed

/-- The `type` in a message. -/
def typeOf (p : Payload) : String := ((p.value.bind (·.field? "type")).bind Json.str?).getD ""

def turn : Turn := ⟨0, .asStored, .asStored⟩

def keydown : Payload := ⟨64, some (.obj [("code", .str "KeyW"), ("sessionId", .str "a"), ("type", .str "keydown")])⟩

/-- **The channel closes while a key is held**: the reset is polled and dropped, and the key stays held. -/
theorem not_recovers_closed : ¬∀ moves, Recovers typeOf 100 "a" moves := by
  intro h
  obtain ⟨next, hn, hup⟩ := (h [.message keydown, .poll turn, .process turn, .channelClosed, .poll turn]).keys
    [.message keydown, .poll turn, .process turn] .channelClosed [.poll turn] "KeyW" rfl (by decide +kernel) trivial
    ⟨rfl, rfl⟩
  rcases List.prefix_cons_iff.1 hn with rfl | ⟨rest, rfl, hrest⟩
  · exact hup (by decide +kernel)
  · obtain rfl := List.prefix_nil.1 hrest
    exact hup (by decide +kernel)

end closed

end GoInput
end Host
end CloudGaming
