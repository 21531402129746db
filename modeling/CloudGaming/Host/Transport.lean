import CloudGaming.Host.InputSchema
/-!
# Transport — the queue of the input transport layer

`enqueueMessage` validates a message, tests its session under one lock, and puts it in the queue under another: a mouse
move replaces one before it, and a full queue is replaced by a reset.
-/
namespace CloudGaming
namespace Host
namespace Transport

/-- A message of the queue.  `call` is history: the call of `enqueueMessage` that put it there. -/
structure InputMessage where
  data : Payload
  eventType : String
  call : Nat := 0

/-- `value("sessionId", "")`, of a validated message. -/
def suppliedSession (value : Json) : String := (value.valueStr "sessionId" "").getD ""

/-- The session a message names, empty for the layer's own reset. -/
def InputMessage.session (m : InputMessage) : String := (m.data.value.map suppliedSession).getD ""

/-- The validation and the session test: the message that goes on to the queue. -/
def admitted (authorizedSessionId : String) (data : Payload) (call : Nat) : Option InputMessage :=
  (InputSchema.accepted data).bind fun event =>
    if authorizedSessionId = "" ∨ suppliedSession event.value ≠ authorizedSessionId then none
    else some ⟨data, event.eventType, call⟩

/-- The reset that takes the place of a full queue. -/
def overflowReset (call : Nat) : InputMessage where
  data := ⟨58, some (.obj [("reason", .str "transport_queue_overflow"), ("type", .str "input_reset")])⟩
  eventType := "input_reset"
  call := call

/-- The queue after a message, and whether it overflowed. -/
def push (maxPendingMessages : Int) (queue : List InputMessage) (m : InputMessage) : List InputMessage × Bool :=
  if InputSchema.isMouseMove m.eventType && queue.getLast?.any (InputSchema.isMouseMove ·.eventType) then
    (queue.dropLast ++ [m], false)
  else if (max 1 maxPendingMessages).toNat ≤ queue.length then
    (overflowReset m.call :: (if InputSchema.isReleaseEvent m.eventType then [m] else []), true)
  else (queue ++ [m], false)

/-- What passes the session test names the authorised session. -/
theorem session_admitted {authorizedSessionId : String} {data : Payload} {call : Nat} {m : InputMessage}
    (h : admitted authorizedSessionId data call = some m) :
    authorizedSessionId ≠ "" ∧ m.session = authorizedSessionId ∧ m.call = call := by
  unfold admitted at h
  cases he : InputSchema.accepted data with
  | none => rw [he] at h; cases h
  | some event =>
    rw [he] at h
    dsimp only [Option.bind_some] at h
    split at h
    · cases h
    · rename_i hs
      rw [not_or, not_not] at hs
      obtain rfl := Option.some.inj h
      refine ⟨hs.1, ?_, rfl⟩
      unfold InputMessage.session
      rw [(InputSchema.accepted_spec he).1]
      exact hs.2

/-- The queue after a message holds older messages, the message, and the layer's own reset. -/
theorem mem_push {maxPendingMessages : Int} {queue : List InputMessage} {m n : InputMessage}
    (h : n ∈ (push maxPendingMessages queue m).1) : n ∈ queue ∨ n = m ∨ n = overflowReset m.call := by
  unfold push at h
  split at h
  · rcases List.mem_append.1 h with h | h
    · exact .inl (List.dropLast_subset _ h)
    · exact .inr (.inl (List.mem_singleton.1 h))
  split at h
  · rcases List.mem_cons.1 h with h | h
    · exact .inr (.inr h)
    · split at h
      · exact .inr (.inl (List.mem_singleton.1 h))
      · cases h
  · rcases List.mem_append.1 h with h | h
    · exact .inl h
    · exact .inr (.inl (List.mem_singleton.1 h))

end Transport
end Host
end CloudGaming
