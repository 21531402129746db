import CloudGaming.Async.Lossy
import CloudGaming.Host.Transport
/-!
# TransportQueue — the queue of the input transport layer over a session

`enqueueMessage` accepts what names the authorised session and queues it, `processingLoop` takes the messages from the
front.  Beside the queue stands what was accepted and what was taken.
-/
namespace CloudGaming
namespace Host
namespace TransportQueue

open Lossy
open Transport (InputMessage admitted push overflowReset)

inductive Move where
  | enqueueMessage (data : Payload)
  | pop

/-- The queue; the rest is history, the oldest message first. -/
structure Session where
  messageQueue : List InputMessage := []
  calls : Nat := 0
  accepted : List InputMessage := []
  delivered : List InputMessage := []
  overflows : Nat := 0

def isMove (m : InputMessage) : Bool := InputSchema.isMouseMove m.eventType

namespace Session

section

variable (maxPendingMessages : Int) (authorizedSessionId : String) (s : Session)

/-- A message that is accepted is queued. -/
def take (m : InputMessage) : Session where
  messageQueue := (push maxPendingMessages s.messageQueue m).1
  calls := s.calls + 1
  accepted := s.accepted ++ [m]
  delivered := s.delivered
  overflows := if (push maxPendingMessages s.messageQueue m).2 then s.overflows + 1 else s.overflows

def step : Move → Session
  | .enqueueMessage data =>
    match admitted authorizedSessionId data s.calls with
    | none => { s with calls := s.calls + 1 }
    | some m => s.take maxPendingMessages m
  | .pop =>
    { s with messageQueue := s.messageQueue.tail, delivered := s.delivered ++ s.messageQueue.head?.toList }

def run (moves : List Move) : Session := moves.foldl (step maxPendingMessages authorizedSessionId) s

/-- Everything is delivered: messages are taken until there is none. -/
def drain : Session := s.run maxPendingMessages authorizedSessionId (List.replicate s.messageQueue.length .pop)

end

/-- What has been delivered once the queue is empty. -/
def all (s : Session) : List InputMessage := s.delivered ++ s.messageQueue

section

variable {maxPendingMessages : Int} {authorizedSessionId : String}

theorem run_induction {P : Session → Prop}
    (hstep : ∀ s m, P s → P (step maxPendingMessages authorizedSessionId s m)) :
    ∀ (moves : List Move) {s : Session}, P s → P (s.run maxPendingMessages authorizedSessionId moves)
  | [], _, h0 => h0
  | m :: moves, s, h0 => run_induction hstep moves (hstep s m h0)

@[simp] theorem all_pop (maxPendingMessages : Int) (authorizedSessionId : String) (s : Session) :
    (s.step maxPendingMessages authorizedSessionId .pop).all = s.all := by
  unfold all step
  cases s.messageQueue with
  | nil => simp
  | cons m rest => simp

/-- **Taking delivers what waits, in order.** -/
theorem drain_spec (maxPendingMessages : Int) (authorizedSessionId : String) (s : Session) :
    (s.drain maxPendingMessages authorizedSessionId).messageQueue = [] ∧
      (s.drain maxPendingMessages authorizedSessionId).delivered = s.all := by
  unfold drain
  generalize hn : s.messageQueue.length = n
  induction n generalizing s with
  | zero =>
    have hnil : s.messageQueue = [] := List.length_eq_zero_iff.1 hn
    refine ⟨hnil, ?_⟩
    unfold all
    rw [hnil, List.append_nil]
    rfl
  | succ n ih =>
    obtain ⟨hempty, hdelivered⟩ := ih (s := s.step maxPendingMessages authorizedSessionId .pop)
      (by simp only [step, List.length_tail, hn, Nat.add_sub_cancel])
    exact ⟨hempty, hdelivered.trans (all_pop _ _ _)⟩

end

end Session

/-! ## What a message does to the queue -/

section

variable {maxPendingMessages : Int} {queue : List InputMessage} {m : InputMessage}

/-- **The queue after a message**: it takes the place of a movement before it, it is alone but for a reset, or it is the
last. -/
theorem push_cases (maxPendingMessages : Int) (queue : List InputMessage) (m : InputMessage) :
    (∃ before prev, queue = before ++ [prev] ∧ isMove prev = true ∧ isMove m = true ∧
      push maxPendingMessages queue m = (before ++ [m], false)) ∨
    push maxPendingMessages queue m =
      (overflowReset m.call :: (if InputSchema.isReleaseEvent m.eventType then [m] else []), true) ∨
    (queue.length < (max 1 maxPendingMessages).toNat ∧ push maxPendingMessages queue m = (queue ++ [m], false)) := by
  unfold push
  split
  · rename_i hc
    obtain ⟨hm, hlast⟩ := Bool.and_eq_true_iff.1 hc
    obtain ⟨prev, hprev, hmove⟩ := (Option.any_eq_true ..).1 hlast
    obtain ⟨before, rfl⟩ := List.getLast?_eq_some_iff.1 hprev
    exact .inl ⟨before, prev, rfl, hmove, hm, by rw [List.dropLast_concat]⟩
  split
  · exact .inr (.inl rfl)
  · rename_i hroom
    exact .inr (.inr ⟨Nat.not_le.1 hroom, rfl⟩)

end

/-! ## What holds of a session -/

section

variable {κ : Type*} (thing : InputMessage → κ)

/-- What a message does to the keys and buttons held. -/
def change (m : InputMessage) : Change κ :=
  if m.eventType = "keydown" ∨ m.eventType = "mousedown" then .add (thing m)
  else if m.eventType = "keyup" ∨ m.eventType = "mouseup" then .remove (thing m)
  else if m.eventType = "input_reset" then .clear
  else .keep

/-- What holds in every state. -/
structure Kept (maxPendingMessages : Int) (s : Session) : Prop where
  bounded : (s.messageQueue.length : Int) ≤ max 2 maxPendingMessages
  thinned : s.overflows = 0 → Thinned isMove s.accepted s.all
  held : held (change thing) s.all ⊆ held (change thing) s.accepted

variable {thing}

theorem change_reset (call : Nat) : change thing (overflowReset call) = .clear := by
  have ht : (overflowReset call).eventType = "input_reset" := rfl
  unfold change
  rw [ht, if_neg (by decide), if_neg (by decide), if_pos rfl]

theorem change_move {m : InputMessage} (h : isMove m = true) : change thing m = .keep := by
  have hm : m.eventType = "mousemove" := of_decide_eq_true h
  unfold change
  rw [hm, if_neg (by decide), if_neg (by decide), if_neg (by decide)]

variable {maxPendingMessages : Int} {s : Session}

theorem kept_take (hk : Kept thing maxPendingMessages s) (m : InputMessage) :
    Kept thing maxPendingMessages (s.take maxPendingMessages m) := by
  rcases push_cases maxPendingMessages s.messageQueue m with
    ⟨before, prev, hq, hprev, hm, hp⟩ | hp | ⟨hroom, hp⟩
  · have hall : s.all = (s.delivered ++ before) ++ [prev] := by rw [Session.all, hq, List.append_assoc]
    have hall' : (s.take maxPendingMessages m).all = (s.delivered ++ before) ++ [m] := by
      rw [Session.all, Session.take, hp, List.append_assoc]
    have hover : (s.take maxPendingMessages m).overflows = s.overflows := by rw [Session.take, hp]; rfl
    refine ⟨?_, fun h0 => ?_, ?_⟩
    · have := hk.bounded
      rw [hq] at this
      rw [Session.take, hp]
      simpa using this
    · have hthin := hk.thinned (hover.symm.trans h0)
      rw [hall] at hthin
      rw [hall']
      exact hthin.replace hprev hm
    · have hheld := hk.held
      rw [hall] at hheld
      rw [hall']
      exact held_replace hheld (change_move hprev) (change_move hm)
  · have hall' : (s.take maxPendingMessages m).all =
        s.delivered ++ overflowReset m.call :: (if InputSchema.isReleaseEvent m.eventType then [m] else []) := by
      rw [Session.all, Session.take, hp]
    refine ⟨?_, fun h0 => ?_, ?_⟩
    · rw [Session.take, hp]
      dsimp only
      split <;> simp
    · rw [Session.take, hp] at h0
      cases h0
    · rw [hall']
      exact held_reset (change_reset m.call) s.delivered s.accepted m _
  · have hall' : (s.take maxPendingMessages m).all = s.all ++ [m] := by
      rw [Session.all, Session.take, hp, Session.all, List.append_assoc]
    have hover : (s.take maxPendingMessages m).overflows = s.overflows := by rw [Session.take, hp]; rfl
    refine ⟨?_, fun h0 => ?_, ?_⟩
    · rw [Session.take, hp]
      dsimp only
      rw [List.length_append, List.length_singleton]
      omega
    · rw [hall']
      exact (hk.thinned (hover.symm.trans h0)).push m
    · rw [hall']
      exact held_push hk.held m

theorem kept_step {authorizedSessionId : String} (s : Session) (move : Move) (hk : Kept thing maxPendingMessages s) :
    Kept thing maxPendingMessages (s.step maxPendingMessages authorizedSessionId move) := by
  cases move with
  | enqueueMessage data =>
    simp only [Session.step]
    split
    · exact ⟨hk.bounded, hk.thinned, hk.held⟩
    · exact kept_take hk _
  | pop =>
    have hall := Session.all_pop maxPendingMessages authorizedSessionId s
    refine ⟨?_, fun h0 => ?_, ?_⟩
    · have := hk.bounded
      simp only [Session.step, List.length_tail]
      omega
    · rw [hall]
      exact hk.thinned h0
    · rw [hall]
      exact hk.held

end

/-- **The transport queue over a session**: it is bounded; until it overflows it delivers everything in order but
movements that another one followed; and what is delivered holds nothing that the accepted messages do not hold. -/
theorem transport_queue {κ : Type*} (thing : InputMessage → κ) (maxPendingMessages : Int) (authorizedSessionId : String)
    (moves : List Move) :
    let s := ({} : Session).run maxPendingMessages authorizedSessionId moves
    let done := s.drain maxPendingMessages authorizedSessionId
    (s.messageQueue.length : Int) ≤ max 2 maxPendingMessages ∧
      done.messageQueue = [] ∧
      (s.overflows = 0 →
        done.delivered.filter (fun m => !isMove m) = s.accepted.filter (fun m => !isMove m) ∧
        (lastOfRuns isMove s.accepted).Sublist done.delivered ∧ done.delivered.Sublist s.accepted) ∧
      held (change thing) done.delivered ⊆ held (change thing) s.accepted := by
  intro s done
  have hk : Kept thing maxPendingMessages s := Session.run_induction kept_step moves
    ⟨by simp, fun _ => Thinned.nil, Set.Subset.refl _⟩
  obtain ⟨hempty, hdelivered⟩ := Session.drain_spec maxPendingMessages authorizedSessionId s
  refine ⟨hk.bounded, hempty, fun h0 => ?_, ?_⟩
  · rw [hdelivered]
    exact ⟨(hk.thinned h0).filter_eq, (hk.thinned h0).low, (hk.thinned h0).high⟩
  · rw [hdelivered]
    exact hk.held

end TransportQueue
end Host
end CloudGaming
