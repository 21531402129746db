import CloudGaming.Host.Transport
/-!
# Isolation — the transport layer's threads, and the sessions of what they hand over

Three threads: the data channels call `enqueueMessage`, the processing loop pops and hands over, and the control
thread authorises sessions and clears them.  A section under a lock is one step.  The session test and the queue are two
sections, and neither `authorizeSession` nor `clearAuthorizedSession` looks at the queue: what is in flight when they
return is handed over afterwards.
-/
namespace CloudGaming
namespace Host
namespace Transport

/-- Where the control thread stands: in a call, past its section. -/
inductive Control where
  | idle
  | authorizing (sessionId : String)
  | clearing
  deriving DecidableEq

/-- What the claims about a run are made of. -/
inductive Event where
  | accepted (call : Nat)
  | handed (m : InputMessage)
  | authorizing (sessionId : String)
  | authorized (sessionId : String)
  | cleared

/-- The layer and its threads: what `enqueueMessage` holds between its sections, and what the loop holds between the pop
and the handler.  The trace is newest first. -/
structure Threads where
  authorizedSessionId : String := ""
  messageQueue : List InputMessage := []
  enqueuing : Option InputMessage := none
  processing : Option InputMessage := none
  control : Control := .idle
  calls : Nat := 0
  trace : List Event := []

inductive Move where
  | enqueueMessage (data : Payload)
  | push
  | pop
  | hand
  | authorizeSession (sessionId : String)
  | clearAuthorizedSession
  | return

namespace Threads

/-- One section; a thread that is not there does nothing. -/
def step (maxPendingMessages : Int) (t : Threads) : Move → Threads
  | .enqueueMessage data =>
    match t.enqueuing, admitted t.authorizedSessionId data t.calls with
    | none, some m =>
      { t with enqueuing := some m, calls := t.calls + 1, trace := .accepted t.calls :: t.trace }
    | _, _ => t
  | .push =>
    match t.enqueuing with
    | some m =>
      { t with messageQueue := (Transport.push maxPendingMessages t.messageQueue m).1, enqueuing := none }
    | none => t
  | .pop =>
    match t.processing, t.messageQueue with
    | none, m :: queue => { t with messageQueue := queue, processing := some m }
    | _, _ => t
  | .hand =>
    match t.processing with
    | some m => { t with processing := none, trace := .handed m :: t.trace }
    | none => t
  | .authorizeSession sessionId =>
    match t.control with
    | .idle =>
      { t with
        authorizedSessionId := sessionId
        control := .authorizing sessionId
        trace := .authorizing sessionId :: t.trace }
    | _ => t
  | .clearAuthorizedSession =>
    match t.control with
    | .idle => { t with authorizedSessionId := "", control := .clearing }
    | _ => t
  | .return =>
    match t.control with
    | .idle => t
    | .authorizing sessionId => { t with control := .idle, trace := .authorized sessionId :: t.trace }
    | .clearing => { t with control := .idle, trace := .cleared :: t.trace }

variable (maxPendingMessages : Int)

def run (t : Threads) (moves : List Move) : Threads := moves.foldl (step maxPendingMessages) t

/-- On its way to the handler. -/
def InFlight (t : Threads) (m : InputMessage) : Prop :=
  t.enqueuing = some m ∨ m ∈ t.messageQueue ∨ t.processing = some m

/-- **A call returns with nothing of another session in flight**: nothing at all where it cleared the session, and the
messages of the session, and the layer's resets, where it authorised one. -/
def Quiet (t : Threads) : Move → Prop
  | .return =>
    match t.control with
    | .idle => True
    | .authorizing sessionId => ∀ m, t.InFlight m → m.session = "" ∨ m.session = sessionId
    | .clearing => ∀ m, ¬t.InFlight m
  | _ => True

def RunQuiet : Threads → List Move → Prop
  | _, [] => True
  | t, move :: moves => t.Quiet move ∧ RunQuiet (t.step maxPendingMessages move) moves

end Threads

/-! ## Isolation -/

/-- A call of `clearAuthorizedSession` has returned, and no session has been authorised since. -/
def Closed : List Event → Prop
  | [] => False
  | .cleared :: _ => True
  | .authorizing _ :: _ => False
  | .authorized _ :: _ => False
  | _ :: trace => Closed trace

/-- No session other than its own has been authorised since the message was accepted. -/
def Current (m : InputMessage) : List Event → Prop
  | [] => True
  | .accepted call :: trace => call = m.call ∨ Current m trace
  | .authorized sessionId :: trace => (m.session = "" ∨ m.session = sessionId) ∧ Current m trace
  | _ :: trace => Current m trace

/-- **Input isolation**: a message is handed over while a session is authorised, and while no session other than its own
has been authorised since it was accepted. -/
def Isolated : List Event → Prop
  | [] => True
  | .handed m :: trace => (¬Closed trace ∧ Current m trace) ∧ Isolated trace
  | _ :: trace => Isolated trace

/-- The layer's reset is as current as the message that made the queue overflow. -/
theorem Current.overflowReset {m : InputMessage} {trace : List Event} (h : Current m trace) :
    Current (overflowReset m.call) trace := by
  induction trace with
  | nil => trivial
  | cons e trace ih =>
    cases e with
    | accepted call => exact Or.imp id ih h
    | authorized sessionId => exact ⟨.inl rfl, ih h.2⟩
    | handed _ => exact ih h
    | authorizing _ => exact ih h
    | cleared => exact ih h

namespace Threads

/-- What every section keeps. -/
structure Separate (t : Threads) : Prop where
  isolated : Isolated t.trace
  current : ∀ m, t.InFlight m → Current m t.trace
  closed : Closed t.trace → t.authorizedSessionId = "" ∧ ∀ m, ¬t.InFlight m
  clearing : t.control = .clearing → t.authorizedSessionId = ""

variable {maxPendingMessages : Int} {t : Threads}

theorem separate_enqueueMessage (h : t.Separate) (data : Payload) :
    (t.step maxPendingMessages (.enqueueMessage data)).Separate := by
  unfold step
  dsimp only
  split
  · rename_i m hnone hm
    obtain ⟨hauth, -, hcall⟩ := session_admitted hm
    have hopen : ¬Closed t.trace := fun hc => hauth (h.closed hc).1
    refine ⟨h.isolated, fun n hn => ?_, fun hc => absurd hc hopen, h.clearing⟩
    rcases hn with hn | hn | hn
    · obtain rfl := Option.some.inj hn
      exact .inl hcall.symm
    · exact .inr (h.current n (.inr (.inl hn)))
    · exact .inr (h.current n (.inr (.inr hn)))
  · exact h

theorem separate_push (h : t.Separate) : (t.step maxPendingMessages .push).Separate := by
  unfold step
  dsimp only
  split
  · rename_i m hm
    refine ⟨h.isolated, fun n hn => ?_, fun hc => absurd (.inl hm) ((h.closed hc).2 m), h.clearing⟩
    have hcur := h.current m (.inl hm)
    rcases hn with hn | hn | hn
    · cases hn
    · rcases mem_push hn with hn | rfl | rfl
      · exact h.current n (.inr (.inl hn))
      · exact hcur
      · exact hcur.overflowReset
    · exact h.current n (.inr (.inr hn))
  · exact h

theorem separate_pop (h : t.Separate) : (t.step maxPendingMessages .pop).Separate := by
  unfold step
  dsimp only
  split
  · rename_i m queue hnone hqueue
    have hold : ∀ n, InFlight { t with messageQueue := queue, processing := some m } n → t.InFlight n := by
      rintro n (hn | hn | hn)
      · exact .inl hn
      · exact .inr (.inl (by rw [hqueue]; exact List.mem_cons_of_mem m hn))
      · exact .inr (.inl (by rw [hqueue, ← Option.some.inj hn]; exact List.mem_cons_self))
    exact ⟨h.isolated, fun n hn => h.current n (hold n hn),
      fun hc => ⟨(h.closed hc).1, fun n hn => (h.closed hc).2 n (hold n hn)⟩, h.clearing⟩
  · exact h

theorem separate_hand (h : t.Separate) : (t.step maxPendingMessages .hand).Separate := by
  unfold step
  dsimp only
  split
  · rename_i m hm
    have hold : ∀ n, InFlight { t with processing := none, trace := .handed m :: t.trace } n → t.InFlight n := by
      rintro n (hn | hn | hn)
      · exact .inl hn
      · exact .inr (.inl hn)
      · cases hn
    have hin : t.InFlight m := .inr (.inr hm)
    refine ⟨⟨⟨fun hc => (h.closed hc).2 m hin, h.current m hin⟩, h.isolated⟩, fun n hn => h.current n (hold n hn),
      fun hc => ?_, h.clearing⟩
    have hc : Closed t.trace := hc
    exact absurd hin ((h.closed hc).2 m)
  · exact h

theorem separate_return (h : t.Separate) (hq : t.Quiet .return) : (t.step maxPendingMessages .return).Separate := by
  unfold Quiet at hq
  dsimp only at hq
  unfold step
  dsimp only
  cases hctl : t.control with
  | idle => exact h
  | authorizing sessionId =>
    rw [hctl] at hq
    refine ⟨h.isolated, fun n hn => ⟨hq n hn, h.current n hn⟩, fun hc => absurd hc id, fun hc => ?_⟩
    cases hc
  | clearing =>
    rw [hctl] at hq
    refine ⟨h.isolated, fun n hn => absurd hn (hq n), fun _ => ⟨h.clearing hctl, hq⟩, fun hc => ?_⟩
    cases hc

theorem separate_step (h : t.Separate) {move : Move} (hq : t.Quiet move) :
    (t.step maxPendingMessages move).Separate := by
  cases move with
  | enqueueMessage data => exact separate_enqueueMessage h data
  | push => exact separate_push h
  | pop => exact separate_pop h
  | hand => exact separate_hand h
  | authorizeSession sessionId =>
    unfold step
    dsimp only
    split
    · refine ⟨h.isolated, fun n hn => h.current n hn, fun hc => absurd hc id, fun hc => ?_⟩
      cases hc
    · exact h
  | clearAuthorizedSession =>
    unfold step
    dsimp only
    split
    · exact ⟨h.isolated, h.current, fun hc => ⟨rfl, (h.closed hc).2⟩, fun _ => rfl⟩
    · exact h
  | «return» => exact separate_return h hq

theorem separate_run : ∀ {moves : List Move} {t : Threads}, t.Separate → RunQuiet maxPendingMessages t moves →
    (run maxPendingMessages t moves).Separate
  | [], _, h, _ => h
  | move :: _, t, h, hq => separate_run (t := t.step maxPendingMessages move) (separate_step h hq.1) hq.2

theorem separate_start : Separate {} where
  isolated := trivial
  current := by rintro m (h | h | h) <;> cases h
  closed := fun h => absurd h id
  clearing := fun h => by cases h

/-- **Every run whose calls return with nothing of another session in flight is isolated.** -/
theorem isolated_of_runQuiet (maxPendingMessages : Int) (moves : List Move) (hq : RunQuiet maxPendingMessages {} moves) :
    Isolated (run maxPendingMessages {} moves).trace := (separate_run separate_start hq).isolated

section late

def keydownOf (sessionId : String) : Payload :=
  ⟨64, some (.obj [("code", .str "KeyW"), ("sessionId", .str sessionId), ("type", .str "keydown")])⟩

/-- A message of the session is handed over, and the session is cleared. -/
def handedThenCleared : List Move :=
  [.authorizeSession "a", .return, .enqueueMessage (keydownOf "a"), .push, .pop, .hand, .clearAuthorizedSession,
    .return]

theorem runQuiet_handedThenCleared : RunQuiet 100 {} handedThenCleared := by
  refine ⟨trivial, ?_, trivial, trivial, trivial, trivial, trivial, ?_, trivial⟩
  all_goals rintro m (h | h | h) <;> cases h

/-- The session is cleared with its message in the queue. -/
def clearedThenHanded : List Move :=
  [.authorizeSession "a", .return, .enqueueMessage (keydownOf "a"), .push, .clearAuthorizedSession, .return, .pop,
    .hand]

theorem isolated_handedThenCleared : Isolated (run 100 {} handedThenCleared).trace :=
  isolated_of_runQuiet 100 _ runQuiet_handedThenCleared

/-- **What was in the queue is handed over after the session was cleared.** -/
theorem not_isolated_clearedThenHanded : ¬∀ moves : List Move, Isolated (run 100 {} moves).trace := by
  intro h
  exact (h clearedThenHanded).1.1 trivial

end late

end Threads

end Transport
end Host
end CloudGaming
