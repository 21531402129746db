import CloudGaming.Host.Runtime
/-!
# SessionFrame — what a message of another session changes

Candidates and stream profiles are tested against the current session, and control messages change nothing.  A
disconnect notification is not tested: the one of another session closes the connection of this one.
-/
namespace CloudGaming
namespace Host
namespace Runtime

open Async SignalingSchema

/-- The connection, the authorised input session, the session manager and the stream profiles are as they were. -/
structure Framed (w w' : World) : Prop where
  peer : w'.go.peerConnection = w.go.peerConnection
  authorized : w'.authorizedSessionId = w.authorizedSessionId
  session : w'.session = w.session
  profiles : w'.streamProfiles = w.streamProfiles

theorem Framed.refl (w : World) : Framed w w := ⟨rfl, rfl, rfl, rfl⟩

/-- There is nothing left for a disconnect to change. -/
structure Settled (w : World) : Prop where
  closed : w.go.peerConnection = none
  cleared : w.authorizedSessionId = ""
  reconnecting : w.session.sessionId ≠ "" →
    w.streamProfiles.requestedBySession ≠ w.session.sessionId ∧ w.session.state = .reconnecting

/-- The host after a disconnect notification. -/
def World.disconnected (w : World) : World :=
  { w with
    go := w.go.close
    authorizedSessionId := ""
    streamProfiles :=
      if w.session.sessionId ≠ "" then w.streamProfiles.clearSession w.session.sessionId else w.streamProfiles
    session := w.session.markReconnecting }

theorem run_peerDisconnected (w : World) : peerDisconnected.run machine w = (some (), w.disconnected) := by
  unfold peerDisconnected World.disconnected
  rw [Prog.run_send_bind, Prog.run_send_bind, Prog.run_send_bind]
  split
  · rename_i hs
    rw [if_pos (show w.session.sessionId ≠ "" from hs)]
    rfl
  · rename_i hs
    rw [if_neg (show ¬w.session.sessionId ≠ "" from hs)]
    rfl

theorem framed_disconnected_iff (w : World) : Framed w w.disconnected ↔ Settled w := by
  unfold World.disconnected
  by_cases hs : w.session.sessionId ≠ ""
  · rw [if_pos hs]
    have hprofiles := StreamProfileManager.clearSession_eq_iff (m := w.streamProfiles) hs
    refine ⟨fun h => ⟨h.peer.symm, h.authorized.symm, fun _ => ⟨hprofiles.1 h.profiles, ?_⟩⟩, fun h => ⟨h.closed.symm, h.cleared.symm, ?_, hprofiles.2 (h.reconnecting hs).1⟩⟩
    · have := h.session
      unfold SessionManager.markReconnecting at this
      rw [if_pos hs] at this
      exact (congrArg SessionManager.state this).symm
    · unfold SessionManager.markReconnecting
      rw [if_pos hs, ← (h.reconnecting hs).2]
  · rw [if_neg hs]
    refine ⟨fun h => ⟨h.peer.symm, h.authorized.symm, fun h => absurd h hs⟩, fun h => ⟨h.closed.symm, h.cleared.symm, ?_, rfl⟩⟩
    unfold SessionManager.markReconnecting
    rw [if_neg hs]

variable {w : World} {o : Outcome} {message : Json} {sessionId : String}

theorem valueStr_of_field {default : String} (h : message.field? "sessionId" = some (.str sessionId)) :
    message.valueStr "sessionId" default = some sessionId := by
  unfold Json.valueStr
  rw [h]
  rfl

/-- The session manager accepts no other session. -/
theorem accepts_of_ne (h : sessionId ≠ w.session.sessionId) : w.session.accepts sessionId = false := by
  unfold SessionManager.accepts
  rw [decide_eq_false (p := w.session.sessionId = sessionId) (Ne.symm h), Bool.and_false, Bool.false_and,
    Bool.false_and]

theorem run_candidateMessage (hf : message.field? "sessionId" = some (.str sessionId))
    (hs : sessionId ≠ w.session.sessionId) : ((candidateMessage o message).run machine w).2 = w := by
  unfold candidateMessage
  rw [valueStr_of_field hf]
  split
  · rename_i hid
    obtain rfl := Option.some.inj hid
    have hno : w.session.accepts sessionId ≠ true := by rw [accepts_of_ne hs]; decide
    rw [Prog.run_send_bind]
    split
    · rename_i h; exact absurd h hno
    · rfl
  · rfl

theorem run_profileMessage (hf : message.field? "sessionId" = some (.str sessionId))
    (hs : sessionId ≠ w.session.sessionId) : ((profileMessage message).run machine w).2 = w := by
  unfold profileMessage
  rw [valueStr_of_field hf]
  split
  · rename_i hid _
    obtain rfl := Option.some.inj hid
    have hno : w.session.accepts sessionId ≠ true := by rw [accepts_of_ne hs]; decide
    rw [Prog.run_send_bind]
    split
    · rename_i h; exact absurd (Bool.and_eq_true_iff.1 h).1 hno
    · rfl
  · rfl

/-- **A message of another session leaves the session alone exactly when it is no disconnect notification, or is dropped
unread, or there is nothing left to change.** -/
theorem framed_onMessage_iff (w : World) (o : Outcome) (p : Payload) (message : Json) (sessionId : String)
    (hp : p.value = some message) (hv : validate message = .ok ()) (ht : messageType? message ≠ some "offer")
    (hf : message.field? "sessionId" = some (.str sessionId)) (hs : sessionId ≠ w.session.sessionId) :
    Framed w ((onMessage o p).run machine w).2 ↔
      (messageType? message = some "peer-disconnected" →
        p.size > kMaxWsPayload ∨ o.budget = false ∨ Settled w) := by
  unfold onMessage
  by_cases hdrop : p.size > kMaxWsPayload ∨ (!o.budget) = true
  · rw [if_pos hdrop]
    refine iff_of_true (.refl w) fun _ => hdrop.imp id fun h => .inl (by simpa using h)
  rw [if_neg hdrop, hp]
  obtain ⟨hsize, hbudget⟩ := not_or.1 hdrop
  have hbudget : o.budget ≠ false := by simpa using hbudget
  dsimp only
  cases hm : messageType? message with
  | none => rw [hv]; exact iff_of_true (.refl w) fun h => by cases h
  | some type =>
    rw [hv]
    dsimp only
    by_cases hdisc : type = "peer-disconnected"
    · subst hdisc
      rw [if_pos rfl, run_peerDisconnected, framed_disconnected_iff]
      exact ⟨fun h _ => .inr (.inr h), fun h => ((h rfl).resolve_left hsize).resolve_left hbudget⟩
    · rw [if_neg hdisc, if_neg fun h => ht (by rw [hm, h])]
      refine iff_of_true ?_ fun h => absurd (Option.some.inj h) hdisc
      split
      · rw [run_candidateMessage hf hs]
        exact .refl w
      · split
        · rw [run_profileMessage hf hs]
          exact .refl w
        · exact .refl w

section late

def sessionA : String := "00000000-0000-4000-8000-00000000000a"

def sessionB : String := "00000000-0000-4000-8000-00000000000b"

/-- An offer of a player, as it arrives. -/
def offerOf (sessionId : String) : Payload :=
  ⟨96, some (.obj [("sdp", .str "v=0"), ("sessionId", .str sessionId), ("type", .str "offer")])⟩

def disconnectOf (sessionId : String) : Json :=
  .obj [("sessionId", .str sessionId), ("type", .str "peer-disconnected")]

/-- The player of `sessionA` is connected. -/
def connected : World := World.run {} [.signaling (.message {} (offerOf sessionA))]

theorem framed_disconnectB :
    Framed connected ((onMessage { budget := false } ⟨80, some (disconnectOf sessionB)⟩).run machine connected).2 ↔
      (messageType? (disconnectOf sessionB) = some "peer-disconnected" →
        80 > kMaxWsPayload ∨ false = false ∨ Settled connected) :=
  framed_onMessage_iff connected { budget := false } ⟨80, some (disconnectOf sessionB)⟩ (disconnectOf sessionB) sessionB
    rfl (by decide +kernel) (by decide +kernel) rfl (by decide +kernel)

/-- **The late disconnect of another player closes the connection.** -/
theorem not_framed_disconnectB :
    ¬∀ (inputs : List Input) (o : Outcome) (p : Payload) (message : Json) (sessionId : String),
      p.value = some message → validate message = .ok () → messageType? message ≠ some "offer" →
        message.field? "sessionId" = some (.str sessionId) → sessionId ≠ (World.run {} inputs).session.sessionId →
          Framed (World.run {} inputs) ((onMessage o p).run machine (World.run {} inputs)).2 := by
  intro h
  have hframe := h [.signaling (.message {} (offerOf sessionA))] {} ⟨80, some (disconnectOf sessionB)⟩
    (disconnectOf sessionB) sessionB rfl (by decide +kernel) (by decide +kernel) rfl (by decide +kernel)
  have hcleared : (World.run {} [.signaling (.message {} (offerOf sessionA))]).authorizedSessionId ≠ "" := by
    decide +kernel
  exact hcleared hframe.authorized.symm

end late

end Runtime
end Host
end CloudGaming
