import CloudGaming.Async.Along
import CloudGaming.Client.Message
import CloudGaming.Host.HeldKeys
/-!
# Numbered — the numbers of the key messages, from the page that counts them to the host that looks for gaps

The page numbers the key messages it sends.  The state manager of the host looks at each of them, and hands some on to the
keyboard handler, whose tracker takes a number that is missing there for a lost message.
-/
namespace CloudGaming
namespace Client

open Async
open Host (Json Walk InputSchema.accepted)
open Host.KeyInput (Keyboard Loop Moment SequenceState sequenceId? isSupportedKeyCode)
open Host.StateManager (Manager keyboardMessages)

/-- A message that is no key message: a mouse event, or a reset. -/
structure Unnumbered where
  delivery : Host.Delivery
  unnumbered : ∀ e, InputSchema.accepted delivery.message = some e → e.eventType ≠ "keydown" ∧ e.eventType ≠ "keyup"

/-- The state that a key message leaves its key in. -/
def KeyData.state (m : KeyData) : Host.StateManager.KeyState := if m.down then .pressed else .released

inductive KeyMove where
  -- `transmitKeyEvent`; where `send` throws, the number is taken and nothing arrives
  | transmit (m : KeyData) (sessionId : SessionId) (thrown : Bool) (now : Nat)
  | receive (other : Unnumbered)

/-- The counter of the page, and the two layers of the host. -/
structure KeyLine where
  keySequenceId : Nat := 0
  manager : Manager := {}
  loop : Loop := {}

namespace KeyLine

variable (d : Doubles) (moment : Nat → Moment)

/-- What the state manager hands on to the keyboard handler. -/
def handed (s : KeyLine) (delivery : Host.Delivery) : List Json :=
  keyboardMessages (s.manager.processInputMessage delivery).2

def deliver (s : KeyLine) (delivery : Host.Delivery) : KeyLine :=
  { s with
    manager := (s.manager.processInputMessage delivery).1
    loop := s.loop.drain moment (s.handed delivery) }

def keyDelivery (s : KeyLine) (m : KeyData) (sessionId : SessionId) (now : Nat) : Host.Delivery :=
  ⟨stringify d (m.fields (some sessionId) (s.keySequenceId + 1)), now, Walk.asStored, Walk.asStored⟩

def step (s : KeyLine) : KeyMove → Option KeyLine
  | .transmit m sessionId thrown now =>
    let t := if thrown then s else s.deliver moment (s.keyDelivery d m sessionId now)
    some { t with keySequenceId := s.keySequenceId + 1 }
  | .receive other => some (s.deliver moment other.delivery)

end KeyLine

/-- The tracker starts a recovery at the message. -/
def recovers (k : Keyboard) (m : Moment) (j : Json) : Bool :=
  (j.isObject && j.contains "code" && j.contains "type") &&
    (sequenceId? j).any fun n => k.sequence.gap n && !k.sequence.throttled m.now

/-- No recovery is started while the loop drains the messages. -/
def Calm (moment : Nat → Moment) : Loop → List Json → Prop
  | _, [] => True
  | l, j :: js => recovers l.keyboard (moment l.rounds) j = false ∧ Calm moment (l.round moment j) js

instance decidableCalm (moment : Nat → Moment) : ∀ (l : Loop) (js : List Json), Decidable (Calm moment l js)
  | _, [] => isTrue trivial
  | l, j :: js =>
    have := decidableCalm moment (l.round moment j) js
    inferInstanceAs (Decidable (recovers l.keyboard (moment l.rounds) j = false ∧ Calm moment (l.round moment j) js))

namespace KeyLine

variable (d : Doubles) (moment : Nat → Moment)

/-- The move starts no recovery. -/
def Undisturbed (s : KeyLine) : KeyMove → Prop
  | .transmit m sessionId thrown now => thrown = false → Calm moment s.loop (s.handed (s.keyDelivery d m sessionId now))
  | .receive other => Calm moment s.loop (s.handed other.delivery)

/-- A key message that the state manager hands on finds a tracker that has seen nothing yet, or has seen the number
before, or started a recovery (or the host) less than a second ago. -/
def InStep (s : KeyLine) : KeyMove → Prop
  | .transmit m _ thrown _ =>
    thrown = false → s.keySequenceId + 1 < 2 ^ 32 → isSupportedKeyCode m.code.text = true →
      s.manager.getKeyState m.code.text ≠ m.state →
      (s.loop.keyboard.sequence.lastReceivedSeq = 0 ∧ s.loop.keyboard.sequence.expectedSeq = 0) ∨
        s.loop.keyboard.sequence.lastReceivedSeq = s.keySequenceId ∨
        s.loop.keyboard.sequence.throttled (moment s.loop.rounds).now = true
  | .receive _ => True

end KeyLine

/-! ## The tracker -/

/-- A message that the loop reads, with its number. -/
structure Numbers (j : Json) (n : Nat) : Prop where
  shape : (j.isObject && j.contains "code" && j.contains "type") = true
  number : sequenceId? j = some n

variable {moment : Nat → Moment} {j : Json} {n : Nat}

theorem recovers_of_numbers (h : Numbers j n) (k : Keyboard) (m : Moment) :
    recovers k m j = (k.sequence.gap n && !k.sequence.throttled m.now) := by
  rw [recovers, h.shape, h.number, Bool.true_and, Option.any_some]

theorem sequence_simulate (k : Keyboard) (c : String) (st : Host.KeyInput.KeyState) (shot : Host.Shot) :
    (k.simulate c st shot).sequence = k.sequence := by
  unfold Keyboard.simulate
  split <;> rfl

theorem sequence_transition (k : Keyboard) (m : Moment) (c : String) (st : Host.KeyInput.KeyState) :
    (k.transition m c st).sequence = k.sequence := by
  unfold Keyboard.transition
  split
  · rfl
  · dsimp only
    split
    · rw [sequence_simulate]
    · rfl

theorem sequence_track (k : Keyboard) (m : Moment) (c : String) (st : Host.KeyInput.KeyState) :
    (k.track m c st).sequence = k.sequence := by
  unfold Keyboard.track
  cases st with
  | down => exact sequence_transition _ m c .down
  | up =>
    dsimp only
    split
    · exact sequence_transition _ m c .up
    · rfl

theorem round_sequence (moment : Nat → Moment) (h : Numbers j n) (hn : n < 2 ^ 32) (l : Loop) :
    (l.round moment j).keyboard.sequence.lastReceivedSeq = n ∧
      (l.round moment j).keyboard.sequence.expectedSeq = n + 1 := by
  have hhandle : ((l.keyboard.handle (moment l.rounds) j).sequence) =
      (l.keyboard.processSequence (moment l.rounds) n).sequence := by
    unfold Keyboard.handle
    rw [if_pos h.shape, h.number]
    dsimp only
    split
    · rfl
    · split
      · rw [sequence_track]
      · rfl
  have hmod : (n + 1) % 2 ^ 64 = n + 1 := Nat.mod_eq_of_lt (by omega)
  rw [Loop.round, hhandle]
  exact ⟨rfl, hmod⟩

/-! ## What is handed on -/

theorem numbers_syntheticKeyup (now : Nat) (reason c : String) : Numbers (Manager.syntheticKeyup now reason c) 0 :=
  ⟨rfl, rfl⟩

theorem numbers_emergency (m : Manager) (delivery : Host.Delivery) (reason : String) :
    ∀ j ∈ keyboardMessages (m.emergencyReleaseAllKeys delivery reason).2, Numbers j 0 := by
  intro j hj
  obtain ⟨f, hf, rfl⟩ := List.mem_map.1 hj
  obtain ⟨hf, htype⟩ := List.mem_filter.1 hf
  obtain hf | hf := List.mem_append.1 hf
  · obtain ⟨c, -, rfl⟩ := List.mem_map.1 hf
    exact numbers_syntheticKeyup delivery.now reason c
  · obtain ⟨b, -, rfl⟩ := List.mem_map.1 hf
    simp at htype

namespace KeyLine

variable {d : Doubles} {s : KeyLine}

/-- The releases of a reset carry no number, and nothing else of the kind is handed on. -/
theorem numbers_receive (other : Unnumbered) : ∀ j ∈ s.handed other.delivery, Numbers j 0 := by
  intro j hj
  unfold handed Manager.processInputMessage at hj
  cases ha : InputSchema.accepted other.delivery.message with
  | none =>
    rw [ha] at hj
    cases hj
  | some event =>
    obtain ⟨hdown, hup⟩ := other.unnumbered event ha
    rw [ha] at hj
    dsimp only at hj
    by_cases hreset : event.eventType = "input_reset"
    · rw [if_pos hreset] at hj
      cases hr : event.value.valueStr "reason" "transport_reset" with
      | none =>
        rw [hr] at hj
        cases hj
      | some reason =>
        rw [hr] at hj
        exact numbers_emergency s.manager other.delivery reason j hj
    · rw [if_neg hreset, if_neg (by simp [hdown, hup]), (Host.KeyInput.keyboardMessages_mouse _ _ _).1] at hj
      cases hj

/-- The object that a key message parses to. -/
def keyJson (m : KeyData) (sessionId : SessionId) (n : Nat) : Json :=
  .obj ((m.fields (some sessionId) n).map fun f => (f.1, f.2.json))

theorem field?_keyJson (m : KeyData) (sessionId : SessionId) (n : Nat) :
    (keyJson m sessionId n).field? "code" = some (.str m.code.text) ∧
      (keyJson m sessionId n).field? "type" = some (.str (if m.down then "keydown" else "keyup")) ∧
      (keyJson m sessionId n).field? "sequenceId" = some (Value.nat n).json := by
  unfold keyJson
  rw [field?_fields, field?_fields, field?_fields]
  rcases m with ⟨_, _, _, _, _ | r⟩ <;> exact ⟨rfl, rfl, rfl⟩

theorem numbers_keyJson (m : KeyData) (sessionId : SessionId) {n : Nat} (hn : n < 2 ^ 32) :
    Numbers (keyJson m sessionId n) n := by
  obtain ⟨hcode, htype, hseq⟩ := field?_keyJson m sessionId n
  have hlt : n < 2 ^ 64 := by omega
  constructor
  · unfold Json.contains
    rw [hcode, htype]
    rfl
  · unfold sequenceId?
    rw [hseq, json_nat hlt]
    exact uint64?_nat hlt

/-- A key message is handed on where its number has 32 bits, its key is supported, and it changes the key's state. -/
theorem handed_transmit (m : KeyData) (sessionId : SessionId) (now : Nat) : s.handed (s.keyDelivery d m sessionId now) =
    if s.keySequenceId + 1 < 2 ^ 32 ∧ isSupportedKeyCode m.code.text = true ∧
        s.manager.getKeyState m.code.text ≠ m.state then
      [keyJson m sessionId (s.keySequenceId + 1)]
    else [] := by
  have haccepted : (Host.InputSchema.accepted (stringify d (m.fields (some sessionId) (s.keySequenceId + 1)))).isSome ↔
      s.keySequenceId + 1 < 2 ^ 32 := accepted_key_iff m (s.keySequenceId + 1)
  by_cases hn : s.keySequenceId + 1 < 2 ^ 32
  · obtain ⟨event, he⟩ := Option.isSome_iff_exists.1 (haccepted.2 hn)
    obtain ⟨hvalue, -, htype, -⟩ := Host.InputSchema.accepted_spec he
    have hjson : event.value = keyJson m sessionId (s.keySequenceId + 1) := (Option.some.inj hvalue).symm
    obtain ⟨hcode, htype', -⟩ := field?_keyJson m sessionId (s.keySequenceId + 1)
    have hevent : event.eventType = if m.down then "keydown" else "keyup" := by
      rw [hjson, htype'] at htype
      injection htype with h
      injection h with h
      exact h.symm
    have hkey : event.eventType ≠ "input_reset" ∧ (event.eventType = "keydown" ∨ event.eventType = "keyup") := by
      rw [hevent]
      cases m.down <;> decide
    have hstate : (if event.eventType = "keydown" then Host.StateManager.KeyState.pressed else .released) = m.state := by
      rw [hevent, KeyData.state]
      cases m.down <;> rfl
    unfold handed Manager.processInputMessage keyDelivery
    rw [he]
    dsimp only
    rw [if_neg hkey.1, if_pos (by simpa using hkey.2), Manager.processKeyboardEvent, hjson, hcode]
    dsimp only [Option.bind_some, Json.str?]
    rw [hstate]
    by_cases hsupported : isSupportedKeyCode m.code.text = true
    · by_cases hsame : s.manager.getKeyState m.code.text = m.state
      · rw [if_neg (by simp [hsupported]), if_pos hsame, if_neg fun h => h.2.2 hsame]
        rfl
      · rw [if_neg (by simp [hsupported]), if_neg hsame, if_pos ⟨hn, hsupported, hsame⟩]
        unfold keyboardMessages
        rw [List.filter_cons_of_pos (by rcases hkey.2 with h | h <;> simp [h])]
        rfl
    · rw [if_pos (by simpa using hsupported), if_neg fun h => hsupported h.2.1]
      rfl
  · have hnone : InputSchema.accepted (s.keyDelivery d m sessionId now).message = none :=
      Option.not_isSome_iff_eq_none.1 (mt haccepted.1 hn)
    unfold handed Manager.processInputMessage
    rw [hnone, if_neg fun h => hn h.1]
    rfl

end KeyLine

/-! ## The count of the page and the tracker of the host -/

/-- The tracker expects the number after the last one, once it has seen one, and has seen none that the page has not
given out. -/
structure KeyLine.Counted (s : KeyLine) : Prop where
  expected : (s.loop.keyboard.sequence.lastReceivedSeq = 0 ∧ s.loop.keyboard.sequence.expectedSeq = 0) ∨
    s.loop.keyboard.sequence.expectedSeq = s.loop.keyboard.sequence.lastReceivedSeq + 1
  given : s.loop.keyboard.sequence.lastReceivedSeq ≤ s.keySequenceId

/-- The tracker finds no gap before the next number of the page where it has seen nothing, or the last one. -/
theorem KeyLine.Counted.gap_next {s : KeyLine} (h : s.Counted) :
    s.loop.keyboard.sequence.gap (s.keySequenceId + 1) = false ↔
      (s.loop.keyboard.sequence.lastReceivedSeq = 0 ∧ s.loop.keyboard.sequence.expectedSeq = 0) ∨
        s.loop.keyboard.sequence.lastReceivedSeq = s.keySequenceId := by
  have hexpected := h.expected
  have hgiven := h.given
  simp only [SequenceState.gap, Bool.and_eq_false_iff, Bool.not_eq_false', Bool.and_eq_true, decide_eq_true_eq,
    decide_eq_false_iff_not]
  omega

/-- Messages without a number are no gap. -/
theorem calm_of_zero : ∀ (js : List Json) (l : Loop), (∀ j ∈ js, Numbers j 0) → Calm moment l js
  | [], _, _ => trivial
  | j :: js, l, h => by
    refine ⟨?_, calm_of_zero js _ fun k hk => h k (List.mem_cons_of_mem j hk)⟩
    rw [recovers_of_numbers (h j List.mem_cons_self)]
    simp [SequenceState.gap]

/-- They set the tracker back. -/
theorem drain_zero (moment : Nat → Moment) : ∀ (js : List Json) (l : Loop), (∀ j ∈ js, Numbers j 0) →
    (l.drain moment js).keyboard.sequence = l.keyboard.sequence ∨
      (l.drain moment js).keyboard.sequence.lastReceivedSeq = 0 ∧ (l.drain moment js).keyboard.sequence.expectedSeq = 1
  | [], _, _ => .inl rfl
  | j :: js, l, h => by
    have hround := round_sequence moment (h j List.mem_cons_self) (by decide) l
    have htail := drain_zero moment js (l.round moment j) fun k hk => h k (List.mem_cons_of_mem j hk)
    change _ ∨ ((l.round moment j).drain moment js).keyboard.sequence.lastReceivedSeq = 0 ∧
      ((l.round moment j).drain moment js).keyboard.sequence.expectedSeq = 1
    obtain hsame | hzero := htail
    · rw [hsame]
      exact .inr hround
    · exact .inr hzero

namespace KeyLine

variable {d : Doubles} {s : KeyLine}

theorem counted_step (h : s.Counted) (move : KeyMove) {s' : KeyLine} (hs : s.step d moment move = some s') :
    s'.Counted := by
  cases move with
  | transmit m sessionId thrown now =>
    obtain rfl := Option.some.inj hs
    cases thrown with
    | true => exact ⟨h.expected, Nat.le_succ_of_le h.given⟩
    | false =>
      rw [if_neg (by decide)]
      have hhanded := handed_transmit (d := d) (s := s) m sessionId now
      by_cases hn : s.keySequenceId + 1 < 2 ^ 32 ∧ isSupportedKeyCode m.code.text = true ∧
          s.manager.getKeyState m.code.text ≠ m.state
      · rw [if_pos hn] at hhanded
        obtain ⟨hlast, hexpected⟩ := round_sequence moment (numbers_keyJson m sessionId hn.1) hn.1 s.loop
        unfold deliver
        rw [hhanded]
        exact ⟨.inr (hexpected.trans (congrArg (· + 1) hlast.symm)), hlast.le⟩
      · rw [if_neg hn] at hhanded
        unfold deliver
        rw [hhanded]
        exact ⟨h.expected, Nat.le_succ_of_le h.given⟩
  | receive other =>
    obtain rfl := Option.some.inj hs
    unfold deliver
    obtain hseq | ⟨hlast, hexpected⟩ := drain_zero moment _ s.loop (numbers_receive (s := s) other)
    · exact ⟨by rw [hseq]; exact h.expected, by rw [hseq]; exact h.given⟩
    · exact ⟨.inr (by rw [hlast, hexpected]), by rw [hlast]; exact Nat.zero_le _⟩

theorem undisturbed_iff_inStep (h : s.Counted) (move : KeyMove) : s.Undisturbed d moment move ↔ s.InStep moment move := by
  cases move with
  | transmit m sessionId thrown now =>
    have hhanded := handed_transmit (d := d) (s := s) m sessionId now
    simp only [Undisturbed, InStep, hhanded]
    refine forall_congr' fun _ => ?_
    by_cases hn : s.keySequenceId + 1 < 2 ^ 32 ∧ isSupportedKeyCode m.code.text = true ∧
        s.manager.getKeyState m.code.text ≠ m.state
    · rw [if_pos hn]
      simp only [hn, true_implies, Calm, and_true, recovers_of_numbers (numbers_keyJson m sessionId hn.1)]
      constructor
      · intro hcalm _
        obtain hgap | hthrottled := Bool.and_eq_false_iff.1 hcalm
        · exact (h.gap_next.1 hgap).imp_right .inl
        · exact .inr (.inr (by simpa using hthrottled))
      · intro hstep
        obtain hfresh | hlast | hthrottled := hstep hn.2.2
        · rw [h.gap_next.2 (.inl hfresh), Bool.false_and]
        · rw [h.gap_next.2 (.inr hlast), Bool.false_and]
        · rw [hthrottled, Bool.not_true, Bool.and_false]
    · rw [if_neg hn]
      simp only [Calm, true_iff]
      exact fun h1 h2 h3 => absurd ⟨h1, h2, h3⟩ hn
  | receive other => exact iff_of_true (calm_of_zero _ _ (numbers_receive other)) trivial

/-- **No recovery is started in a run exactly when every key message that is handed on finds the tracker in step with the
page's count**: the first one, one whose predecessor was handed on as well and after which nothing was released, and one
in the second after a recovery. -/
theorem undisturbed_iff (d : Doubles) (moment : Nat → Moment) (moves : List KeyMove) :
    Along (step d moment) (fun s m => s.Undisturbed d moment m) {} moves ↔
      Along (step d moment) (fun s m => s.InStep moment m) {} moves :=
  along_iff_along (I := Counted) (fun _ m _ h _ hs => counted_step h m hs) (fun _ m _ h _ => undisturbed_iff_inStep h m)
    ⟨.inl ⟨rfl, rfl⟩, Nat.le_refl 0⟩

end KeyLine

section blocked
open KeyLine

/-- Doubles without rounding errors, each of one digit. -/
def digits : Doubles := ⟨(· + ·), fun _ => 1, fun _ => by decide⟩

theorem noName_fits : "".utf8ByteSize ≤ 32 := Nat.zero_le 32

theorem someId_fits : "0123456789abcdef".utf8ByteSize ≤ 128 := by decide

theorem epoch_fits : 0 ≤ 8640000000000000 := Nat.zero_le _

def pressed (code : String) (ne : code ≠ "") (fits : code.utf8ByteSize ≤ 32) : KeyMove :=
  .transmit ⟨⟨"", noName_fits⟩, ⟨code, ne, fits⟩, true, ⟨0, epoch_fits⟩, none⟩ ⟨"0123456789abcdef", someId_fits⟩ false 0

/-- Five seconds after the host has come up. -/
def later : Moment := { Host.KeyInput.atEase with now := 5000 }

/-- `KeyA` is held while the Windows key and then `KeyB` are pressed. -/
def windowsKey : List KeyMove :=
  [pressed "KeyA" (by decide) (by decide), pressed "MetaLeft" (by decide) (by decide),
    pressed "KeyB" (by decide) (by decide)]

/-- **A key that the host blocks makes the next one a gap**, and the keys held are released. -/
theorem not_undisturbed : ¬∀ (d : Doubles) (moment : Nat → Moment) (moves : List KeyMove),
    (∀ m ∈ moves, ∀ k id now, m ≠ .transmit k id true now) →
      Along (step d moment) (fun s m => s.Undisturbed d moment m) {} moves := by
  intro h
  have hrun := h digits (fun _ => later) windowsKey (by
    intro m hm k id now
    simp only [windowsKey, pressed, List.mem_cons, List.not_mem_nil, or_false] at hm
    rintro rfl
    simp at hm)
  change Along _ _ _ (windowsKey.take 2 ++ [pressed "KeyB" (by decide) (by decide)]) at hrun
  have hcalm := hrun.last rfl rfl rfl
  revert hcalm
  decide +kernel

end blocked

end Client
end CloudGaming
