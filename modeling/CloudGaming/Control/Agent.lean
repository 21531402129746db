import CloudGaming.Control.Wire
import CloudGaming.Host.Cleanup
/-!
# Agent — the host as the matchmaker sees it

An agent runs at most one session and answers one packet at a time (`Reacts`).  The runtime thread of the host is such
an agent (`plays_command`, `plays_cleanup`, `plays_report`), and the websocket thread does not disturb it
(`plays_signaling`).
-/
namespace CloudGaming
namespace Host
namespace Runtime

open Async

/-- What the matchmaker sees of the host: the session it runs, the commands that wait and what was sent. -/
structure Talk where
  active : String
  pending : List Json
  reports : List Report

def World.talk (w : World) : Talk := ⟨w.activeSessionId, w.pendingMarketplaceCommands, w.reports⟩

/-- The section changes nothing the matchmaker sees. -/
def Section.aside : Section → Bool
  | .popCommand | .report _ | .setActive .. | .clearActive _ => false
  | _ => true

def Section.Aside (s : Section) : Prop := s.aside = true

theorem talk_after {w : World} {s : Section} (h : s.Aside) : (w.after s).talk = w.talk := by
  cases s with
  | popCommand | report | setActive | clearActive => cases h
  | send message =>
    unfold World.after World.sendMessage
    dsimp only
    split <;> rfl
  | _ => rfl

theorem talk_run {α : Type} {p : Thread α} (hp : p.All Section.Aside) (w : World) : (p.run machine w).2.talk = w.talk :=
  Prog.All.run (I := fun w' => World.talk w' = World.talk w) (fun _ _ hs h => (talk_after hs).trans h)
    (fun o : Empty => o.elim) hp rfl

theorem aside_of_websocket (s : Section) (h : s.OfWebsocket) : s.Aside := by
  cases s <;> first | rfl | cases h

/-- The report of `Tick` on the stream of the active session; `sent` is what `Send` answers. -/
def World.reportStream (w : World) (peerConnected sent : Bool) : World :=
  if w.activeSessionId ≠ "" ∧ !w.sessionConnectedReported then
    { w with
      reports := ⟨if peerConnected then "session.stream_connected" else "session.game_ready", w.activeSessionId, "", []⟩ ::
        w.reports
      sessionConnectedReported := peerConnected && sent }
  else w

/-! ## Runs of the runtime thread -/

section runs
variable (w : World)

theorem run_stopIfStarted : ∃ w', stopIfStarted.run machine w = (some (), w') ∧ w'.talk = w.talk := by
  unfold stopIfStarted
  rw [Prog.run_send_bind]
  split
  · exact ⟨_, rfl, rfl⟩
  · exact ⟨_, rfl, rfl⟩

/-- A cleanup reports that the session is over, and forgets it. -/
theorem run_cleanupSession (terminalEvent reason roomId : String) (hne : w.activeSessionId ≠ "") :
    ∃ w', (cleanupSession terminalEvent reason roomId).run machine w = (some (), w') ∧
      w'.talk = ⟨"", w.pendingMarketplaceCommands,
        ⟨terminalEvent, w.activeSessionId, "", [("code", reason)]⟩ :: w.reports⟩ := by
  obtain ⟨w₁, hstop, htalk⟩ := run_stopIfStarted ((w.after (.setState .cleaning)).after (.clearAuthorizedSession .runtime))
  have ht : w₁.talk = w.talk := htalk
  refine ⟨(((w₁.after (.terminate reason)).after (.report ⟨terminalEvent, w.activeSessionId, "", [("code", reason)]⟩)).after
    (.clearActive roomId)).after (.setState .idle), ?_, ?_⟩
  · unfold cleanupSession
    refine Prog.run_tryCatch_some machine ?_ _
    rw [Prog.run_send_bind]
    split
    · rw [Prog.run_send_bind, Prog.run_send_bind]
      exact Prog.run_bind_some machine hstop _
    · rename_i hidle; exact absurd hne hidle
  · change Talk.mk "" w₁.talk.pending (_ :: w₁.talk.reports) = _
    rw [ht]
    rfl

theorem run_cleanupSession_idle (terminalEvent reason roomId : String) (hidle : w.activeSessionId = "") :
    (cleanupSession terminalEvent reason roomId).run machine w = (some (), w) := by
  unfold cleanupSession
  refine Prog.run_tryCatch_some machine ?_ _
  rw [Prog.run_send_bind]
  split
  · rename_i hne; exact absurd hidle hne
  · rfl

/-- A prepare that passed its checks starts the session, or reports that the launch failed. -/
theorem talk_launch (l : Launch) (c : MarketplaceCommand) (prepare : Prepare) (gameId : String) :
    ((launch l c prepare gameId).run machine w).2.talk =
        ⟨c.sessionId, w.pendingMarketplaceCommands, ⟨"session.launch_ack", c.sessionId, c.commandId, []⟩ :: w.reports⟩ ∨
      ∃ e, ((launch l c prepare gameId).run machine w).2.talk = ⟨w.activeSessionId, w.pendingMarketplaceCommands,
        ⟨"session.failed", c.sessionId, c.commandId, [("code", "launch_failed"), ("detail", e)]⟩ :: w.reports⟩ := by
  obtain ⟨w₁, hstop, ht⟩ := run_stopIfStarted w
  unfold launch
  rw [Prog.run_bind_some machine hstop]
  split
  · rename_i e _
    refine .inr ⟨e, ?_⟩
    change Talk.mk w₁.talk.active w₁.talk.pending (_ :: w₁.talk.reports) = _
    rw [ht]
    rfl
  · refine .inl ?_
    change Talk.mk c.sessionId w₁.talk.pending (_ :: w₁.talk.reports) = _
    rw [ht]
    rfl

variable (l : Launch)

theorem talk_hello (sessionId commandId : String) (payload : Json) :
    ((applyCommand l ⟨"control.ready", sessionId, commandId, payload⟩).run machine w).2.talk =
      ⟨w.activeSessionId, w.pendingMarketplaceCommands,
        ⟨"host.hello", w.activeSessionId, "", [("state", w.state.name)]⟩ :: w.reports⟩ := by
  unfold applyCommand
  rw [if_pos rfl]
  rfl

theorem talk_stop {sessionId : String} (commandId reason : String) (hne : sessionId ≠ "") :
    ((applyCommand l ⟨"session.stop", sessionId, commandId, .obj [("reason", .str reason)]⟩).run machine w).2.talk =
      if sessionId = w.activeSessionId then ⟨"", w.pendingMarketplaceCommands,
        ⟨"session.ended", sessionId, "", [("code", reason)]⟩ :: w.reports⟩
      else w.talk := by
  unfold applyCommand
  rw [if_neg (show ¬"session.stop" = "control.ready" by decide), if_pos rfl, Prog.run_send_bind]
  split
  · rename_i he
    have he : sessionId = w.activeSessionId := he
    obtain ⟨w', hrun, ht⟩ := run_cleanupSession w "session.ended" reason l.roomId (he ▸ hne)
    rw [if_pos he, he]
    change (Prog.run machine (cleanupSession "session.ended" reason l.roomId) w).2.talk = _
    rw [hrun]
    exact ht
  · rename_i hno
    have hno : ¬sessionId = w.activeSessionId := hno
    rw [if_neg hno]
    rfl

theorem applyCommand_prepare {c : MarketplaceCommand} (ht : c.type = "session.prepare") :
    applyCommand l c = applyPrepare l c := by
  unfold applyCommand
  rw [ht, if_neg (show ¬"session.prepare" = "control.ready" by decide),
    if_neg (show ¬"session.prepare" = "session.stop" by decide)]

/-- What a prepare of a session the host does not run leads to: the session starts, or its failure is reported. -/
theorem talk_prepare {c : MarketplaceCommand} (ht : c.type = "session.prepare") (hp : (readPrepare c.payload).isSome)
    (hne : c.sessionId ≠ w.activeSessionId) :
    w.activeSessionId = "" ∧ ((applyCommand l c).run machine w).2.talk =
        ⟨c.sessionId, w.pendingMarketplaceCommands, ⟨"session.launch_ack", c.sessionId, c.commandId, []⟩ :: w.reports⟩ ∨
      ∃ code rest, ((applyCommand l c).run machine w).2.talk = ⟨w.activeSessionId, w.pendingMarketplaceCommands,
        ⟨"session.failed", c.sessionId, c.commandId, ("code", code) :: rest⟩ :: w.reports⟩ := by
  rw [applyCommand_prepare l ht]
  unfold applyPrepare
  rw [Prog.run_send_bind]
  split
  · rename_i he; exact absurd he.symm hne
  split
  · exact .inr ⟨_, _, rfl⟩
  rename_i hidle
  have hidle : w.activeSessionId = "" := not_not.1 hidle
  split
  · rename_i hn; rw [hn] at hp; cases hp
  · split
    · exact .inr ⟨_, _, rfl⟩
    · split
      · exact .inr ⟨_, _, rfl⟩
      · refine (talk_launch w l c _ _).imp (fun h => ⟨hidle, h⟩) ?_
        rintro ⟨e, h⟩
        exact ⟨_, _, h⟩

theorem talk_repeated {c : MarketplaceCommand} (ht : c.type = "session.prepare") (he : c.sessionId = w.activeSessionId) :
    ((applyCommand l c).run machine w).2.talk = ⟨w.activeSessionId, w.pendingMarketplaceCommands,
      ⟨"session.launch_ack", c.sessionId, c.commandId, []⟩ :: w.reports⟩ := by
  rw [applyCommand_prepare l ht]
  unfold applyPrepare
  rw [Prog.run_send_bind]
  split
  · rfl
  · rename_i hno; exact absurd he.symm hno

/-- A tick takes the next command off the queue and applies it. -/
theorem talk_tick {j : Json} {rest : List Json} {c : MarketplaceCommand} (hj : w.pendingMarketplaceCommands = j :: rest)
    (hc : readCommand j = some c) :
    (w.handle (.runtime (.command l))).talk =
      ((applyCommand l c).run machine { w with pendingMarketplaceCommands := rest }).2.talk := by
  have hpop : (machine.exec .popCommand w).1 = some j := by
    change w.pendingMarketplaceCommands.head? = some j
    rw [hj]
    rfl
  have hw : (machine.exec .popCommand w).2 = { w with pendingMarketplaceCommands := rest } := by
    change { w with pendingMarketplaceCommands := w.pendingMarketplaceCommands.tail } = _
    rw [hj]
    rfl
  unfold World.handle RuntimeEvent.handler applyMarketplaceCommand
  dsimp only
  rw [Prog.run_send_bind, hpop, hw]
  dsimp only
  rw [hc]

theorem talk_tick_idle (hj : w.pendingMarketplaceCommands = []) : (w.handle (.runtime (.command l))).talk = w.talk := by
  have hpop : (machine.exec .popCommand w).1 = none := by
    change w.pendingMarketplaceCommands.head? = none
    rw [hj]
    rfl
  unfold World.handle RuntimeEvent.handler applyMarketplaceCommand
  dsimp only
  rw [Prog.run_send_bind, hpop]
  change Talk.mk w.activeSessionId w.pendingMarketplaceCommands.tail w.reports = _
  rw [hj]
  unfold World.talk
  rw [hj]
  rfl

end runs

end Runtime
end Host

/-! ## The agent -/

namespace Control

open Market Host

/-- How an agent that runs `active` takes a packet: the session it runs then, and the events it sends. -/
inductive Reacts : Option SessionId → Packet → Option SessionId → List HostEvent → Prop
  | greeted {active : Option SessionId} {h : HostId} : Reacts active (.ready h) active [⟨.hello, active, none⟩]
  | stopped {S : SessionId} {c : CommandId} {reason : String} :
      Reacts (some S) (.command c (.stop S reason)) none [⟨.ended, some S, some reason⟩]
  | elsewhere {active : Option SessionId} {S : SessionId} {c : CommandId} {reason : String} (hne : active ≠ some S) :
      Reacts active (.command c (.stop S reason)) active []
  | repeated {S : SessionId} {c : CommandId} {o r d t p} :
      Reacts (some S) (.command c (.prepare S o r d t p)) (some S) [⟨.launchAck, some S, none⟩]
  | refused {active : Option SessionId} {S : SessionId} {c : CommandId} {code : String} {o r d t p}
      (hne : active ≠ some S) : Reacts active (.command c (.prepare S o r d t p)) active [⟨.failed, some S, some code⟩]
  | launched {S : SessionId} {c : CommandId} {o r d t p} :
      Reacts none (.command c (.prepare S o r d t p)) (some S) [⟨.launchAck, some S, none⟩]

/-- How the host remembers the session it runs. -/
def activeName : Option SessionId → String
  | none => ""
  | some S => spell S.uuid

theorem activeName_eq_spell {active : Option SessionId} {S : SessionId} :
    spell S.uuid = activeName active ↔ active = some S := by
  cases active with
  | none => exact iff_of_false (spell_ne_empty _) nofun
  | some S' =>
    refine ⟨fun h => ?_, fun h => ?_⟩
    · have := spell_inj h
      cases S; cases S'; exact congrArg _ (congrArg _ this.symm)
    · rw [Option.some.inj h]
      rfl

theorem activeName_eq_empty {active : Option SessionId} : activeName active = "" ↔ active = none := by
  cases active with
  | none => exact iff_of_true rfl rfl
  | some S => exact iff_of_false (spell_ne_empty _) nofun

/-- The events the host has for the socket. -/
def said (w : Runtime.World) : List HostEvent := w.reports.reverse.filterMap readEvent

/-- The host once they are handed over. -/
def unsaid (w : Runtime.World) : Runtime.World := { w with reports := [] }

/-- The host runs session `active`, and the packets `pending` wait. -/
structure Plays (w : Runtime.World) (active : Option SessionId) (pending : List Packet) : Prop where
  active : w.activeSessionId = activeName active
  pending : w.pendingMarketplaceCommands = pending.map packetJson
  reports : w.reports = []

/-- The host runs session `active`, the packets `pending` wait, and `sent` is to be handed over. -/
structure Says (w : Runtime.World) (active : Option SessionId) (pending : List Packet) (sent : List HostEvent) : Prop where
  plays : Plays (unsaid w) active pending
  said : said w = sent

section plays
variable {w w' : Runtime.World} {active : Option SessionId} {pending : List Packet} {p : Packet} {S : SessionId}

theorem Plays.talk (h : Plays w active pending) : w.talk = ⟨activeName active, pending.map packetJson, []⟩ := by
  unfold Runtime.World.talk
  rw [h.active, h.pending, h.reports]

theorem Plays.of_talk (h : w.talk = ⟨activeName active, pending.map packetJson, []⟩) : Plays w active pending :=
  ⟨congrArg Runtime.Talk.active h, congrArg Runtime.Talk.pending h, congrArg Runtime.Talk.reports h⟩

theorem says_nothing (h : Plays w active pending) : Says w active pending [] := by
  refine ⟨⟨h.active, h.pending, rfl⟩, ?_⟩
  unfold said
  rw [h.reports]
  rfl

theorem says_one {r : Runtime.Report} {e : HostEvent} (h : w.talk = ⟨activeName active, pending.map packetJson, [r]⟩)
    (he : readEvent r = some e) : Says w active pending [e] := by
  refine ⟨⟨congrArg Runtime.Talk.active h, congrArg Runtime.Talk.pending h, rfl⟩, ?_⟩
  unfold said
  rw [show w.reports = [r] from congrArg Runtime.Talk.reports h]
  simp [he]

theorem readPrepare_payload (S : SessionId) (o : Option Game) (r : RoomId) (d t : Nat) (profile : StreamProfile) :
    (Runtime.readPrepare (payloadJson (.prepare S o r d t profile))).isSome := by
  cases o <;> rfl

theorem readEvent_hello (active : Option SessionId) (state : String) :
    readEvent ⟨"host.hello", activeName active, "", [("state", state)]⟩ = some ⟨.hello, active, none⟩ := by
  cases active with
  | none => exact readEvent_nobody rfl
  | some S => exact readEvent_session S rfl

/-- **The runtime thread takes a command as an agent does.** -/
theorem says_command (h : Plays w active (p :: pending)) (l : Runtime.Launch) :
    ∃ active' sent, Reacts active p active' sent ∧ Says (w.handle (.runtime (.command l))) active' pending sent := by
  obtain ⟨w₁, hw₁⟩ : ∃ w₁ : Runtime.World, w₁ = { w with pendingMarketplaceCommands := pending.map packetJson } := ⟨_, rfl⟩
  have h₁ : Plays w₁ active pending := by rw [hw₁]; exact ⟨h.active, rfl, h.reports⟩
  have htick : ∀ c, Runtime.readCommand (packetJson p) = some c → (w.handle (.runtime (.command l))).talk =
      ((Runtime.applyCommand l c).run Runtime.machine w₁).2.talk := fun c hc => by
    rw [hw₁]; exact Runtime.talk_tick w l h.pending hc
  cases p with
  | ready k =>
    have ht := (htick _ (readCommand_ready k)).trans (Runtime.talk_hello w₁ l _ _ _)
    rw [h₁.active, h₁.pending, h₁.reports] at ht
    exact ⟨active, _, .greeted, says_one ht (readEvent_hello active _)⟩
  | command c body =>
    have ht := htick _ (readCommand_command c body)
    cases body with
    | stop S reason =>
      have hstop := Runtime.talk_stop w₁ l (spell c.uuid) reason (spell_ne_empty S.uuid)
      have ht := ht.trans hstop
      rw [h₁.active, h₁.pending, h₁.reports] at ht
      by_cases hS : active = some S
      · rw [if_pos (activeName_eq_spell.2 hS)] at ht
        subst hS
        exact ⟨none, _, .stopped, says_one ht (readEvent_session S rfl)⟩
      · rw [if_neg fun he => hS (activeName_eq_spell.1 he)] at ht
        exact ⟨active, _, .elsewhere hS, says_nothing (.of_talk (ht.trans h₁.talk))⟩
    | prepare S o r d t profile =>
      by_cases hS : active = some S
      · have ht := ht.trans (Runtime.talk_repeated w₁ l rfl ((activeName_eq_spell.2 hS).trans h₁.active.symm))
        rw [h₁.active, h₁.pending, h₁.reports] at ht
        subst hS
        exact ⟨some S, _, .repeated, says_one ht (readEvent_session S rfl)⟩
      · have hne : spell S.uuid ≠ w₁.activeSessionId := fun he => hS (activeName_eq_spell.1 (he.trans h₁.active))
        rcases Runtime.talk_prepare w₁ l (c := ⟨"session.prepare", spell S.uuid, spell c.uuid, payloadJson (.prepare S o r d t profile)⟩)
          rfl (readPrepare_payload S o r d t profile) hne with ⟨hidle, hl⟩ | ⟨code, rest, hl⟩
        · obtain rfl := activeName_eq_empty.1 (h₁.active.symm.trans hidle)
          have ht := ht.trans hl
          rw [h₁.pending, h₁.reports] at ht
          exact ⟨some S, _, .launched, says_one ht (readEvent_session S rfl)⟩
        · have ht := ht.trans hl
          rw [h₁.active, h₁.pending, h₁.reports] at ht
          exact ⟨active, _, .refused hS, says_one ht (readEvent_session S rfl)⟩

theorem says_idle (h : Plays w active []) (l : Runtime.Launch) : Says (w.handle (.runtime (.command l))) active [] [] :=
  says_nothing (.of_talk ((Runtime.talk_tick_idle w l h.pending).trans h.talk))

/-- **A cleanup ends the session that runs**, and says so. -/
theorem says_cleanup (h : Plays w (some S) pending) {terminalEvent : String} {type : EventType}
    (ht : readEventType terminalEvent = some type) (reason roomId : String) :
    Says (w.handle (.runtime (.cleanup terminalEvent reason roomId))) none pending [⟨type, some S, some reason⟩] := by
  obtain ⟨w', hrun, htalk⟩ :=
    Runtime.run_cleanupSession w terminalEvent reason roomId (h.active ▸ spell_ne_empty S.uuid)
  rw [h.active, h.pending, h.reports] at htalk
  have hw : w.handle (.runtime (.cleanup terminalEvent reason roomId)) = w' := by
    change ((Runtime.cleanupSession terminalEvent reason roomId).run Runtime.machine w).2 = w'
    rw [hrun]
  rw [hw]
  exact says_one htalk (readEvent_session S ht)

theorem says_cleanup_idle (h : Plays w none pending) (terminalEvent reason roomId : String) :
    Says (w.handle (.runtime (.cleanup terminalEvent reason roomId))) none pending [] := by
  have hw : w.handle (.runtime (.cleanup terminalEvent reason roomId)) = w := by
    change ((Runtime.cleanupSession terminalEvent reason roomId).run Runtime.machine w).2 = w
    rw [Runtime.run_cleanupSession_idle w terminalEvent reason roomId h.active]
  rw [hw]
  exact says_nothing h

/-- The report on a stream is about the session that runs, if any. -/
theorem says_stream (h : Plays w active pending) (peerConnected ok : Bool) :
    Says (w.reportStream peerConnected ok) active pending [] ∨ ∃ S, active = some S ∧
      Says (w.reportStream peerConnected ok) active pending
        [⟨if peerConnected then .streamConnected else .gameReady, some S, none⟩] := by
  unfold Runtime.World.reportStream
  split
  · rename_i hc
    cases active with
    | none => exact absurd h.active hc.1
    | some S =>
      refine .inr ⟨S, rfl, ?_⟩
      have hr : readEvent ⟨if peerConnected then "session.stream_connected" else "session.game_ready", spell S.uuid, "", []⟩ =
          some ⟨if peerConnected then .streamConnected else .gameReady, some S, none⟩ := by
        cases peerConnected <;> exact readEvent_session S rfl
      refine says_one ?_ hr
      unfold Runtime.World.talk
      dsimp only
      rw [h.active, h.pending, h.reports]
      rfl
  · exact .inl (says_nothing h)

/-- The websocket thread leaves all of it alone. -/
theorem plays_signaling (h : Plays w active pending) (e : Runtime.SignalingEvent) :
    Plays (w.handle (.signaling e)) active pending :=
  .of_talk ((Runtime.talk_run ((Runtime.websocket_handler e).mono Runtime.aside_of_websocket) w).trans h.talk)

/-- A packet that arrives waits, unless 64 do already. -/
theorem plays_receive (h : Plays w active pending) (p : Packet) :
    Plays (w.receive (packetJson p)) active (if pending.length < 64 then pending ++ [p] else pending) := by
  have htype : (packetJson p).valueStr "type" "" ∈
      [some "control.ready", some "session.prepare", some "session.stop"] := by
    cases p with
    | ready k => exact .head _
    | command c body => cases body with
      | prepare => exact .tail _ (.head _)
      | stop => exact .tail _ (.tail _ (.head _))
  unfold Runtime.World.receive
  rw [h.pending, List.length_map]
  by_cases hlen : pending.length < 64
  · rw [if_pos ⟨htype, hlen⟩, if_pos hlen]
    exact ⟨h.active, by simp, h.reports⟩
  · rw [if_neg fun hc => hlen hc.2, if_neg hlen]
    exact h

end plays

end Control
end CloudGaming
