import CloudGaming.Host.SessionFrame
/-!
# Approval — no session gets the input without the user's approval or a prepare

The session whose input is authorised, and the session the host remembers, were approved in the dialog or prepared by
the marketplace: the dialog is skipped for the remembered session only, and nothing else is ever remembered.
-/
namespace CloudGaming
namespace Host
namespace Runtime

open Async SignalingSchema

/-- The user approved the session, or the marketplace prepared it. -/
def Justified (w : World) (sessionId : String) : Prop := sessionId ∈ w.approved ∨ sessionId ∈ w.prepared

/-- The authorised session and the remembered one are justified. -/
structure Supervised (w : World) : Prop where
  authorized : w.authorizedSessionId ≠ "" → Justified w w.authorizedSessionId
  session : w.session.sessionId ≠ "" → Justified w w.session.sessionId

/-- The session a section authorises. -/
def Section.authorizes : Section → Option String
  | .authorize _ sessionId => some sessionId
  | .authorizeSession sessionId => some sessionId
  | _ => none

/-- The section authorises nothing. -/
def Section.Quiet (s : Section) : Prop := s.authorizes = none

/-- The section authorises no other session. -/
def Section.Only (sessionId : String) (s : Section) : Prop := ∀ sid, s.authorizes = some sid → sid = sessionId

variable {w : World} {sessionId : String}

theorem only_of_quiet (s : Section) (h : s.Quiet) : s.Only sessionId := fun sid hsid => by
  rw [h] at hsid
  cases hsid

theorem justified_after (s : Section) (h : Justified w sessionId) : Justified (w.after s) sessionId := by
  cases s with
  | approvalDialog sid approve =>
    refine h.imp (fun h => ?_) id
    unfold World.after
    dsimp only
    split
    · exact List.mem_cons_of_mem _ h
    · exact h
  | launch sid started =>
    refine h.imp id fun h => ?_
    unfold World.after
    dsimp only
    split
    · exact List.mem_cons_of_mem _ h
    · exact h
  | send message =>
    unfold World.after World.sendMessage
    dsimp only
    split <;> exact h
  | _ => exact h

theorem sessionId_authorize (m : SessionManager) (id : String) :
    (m.authorize id).2.sessionId = m.sessionId ∨ (m.authorize id).2.sessionId = id := by
  unfold SessionManager.authorize
  split
  · exact .inl rfl
  · exact .inr rfl

/-- What a section leaves authorised, and remembered: what was, nothing, or the session it authorises. -/
theorem sessions_after (w : World) (s : Section) :
    ((w.after s).authorizedSessionId = w.authorizedSessionId ∨ (w.after s).authorizedSessionId = "" ∨
        s.authorizes = some (w.after s).authorizedSessionId) ∧
      ((w.after s).session.sessionId = w.session.sessionId ∨ (w.after s).session.sessionId = "" ∨
        s.authorizes = some (w.after s).session.sessionId) := by
  cases s with
  | authorize caller sid =>
    refine ⟨.inl rfl, (sessionId_authorize w.session sid).imp id fun h => .inr ?_⟩
    exact congrArg some h.symm
  | authorizeSession id => exact ⟨.inr (.inr rfl), .inl rfl⟩
  | clearAuthorizedSession caller => exact ⟨.inr (.inl rfl), .inl rfl⟩
  | terminate reason => exact ⟨.inl rfl, .inr (.inl rfl)⟩
  | markConnected id =>
    refine ⟨.inl rfl, .inl ?_⟩
    unfold World.after SessionManager.markConnected
    dsimp only
    split <;> rfl
  | markReconnecting =>
    refine ⟨.inl rfl, .inl ?_⟩
    unfold World.after SessionManager.markReconnecting
    dsimp only
    split <;> rfl
  | send message =>
    unfold World.after World.sendMessage
    dsimp only
    split <;> exact ⟨.inl rfl, .inl rfl⟩
  | _ => exact ⟨.inl rfl, .inl rfl⟩

/-- **A section keeps the host supervised**, where the session it authorises is justified. -/
theorem supervised_after (s : Section) (h : Supervised w) (hs : ∀ sid, s.authorizes = some sid → Justified w sid) :
    Supervised (w.after s) := by
  obtain ⟨hauth, hsession⟩ := sessions_after w s
  refine ⟨fun hne => justified_after s ?_, fun hne => justified_after s ?_⟩
  · rcases hauth with heq | heq | heq
    · rw [heq]; exact h.authorized (heq ▸ hne)
    · exact absurd heq hne
    · exact hs _ heq
  · rcases hsession with heq | heq | heq
    · rw [heq]; exact h.session (heq ▸ hne)
    · exact absurd heq hne
    · exact hs _ heq

theorem supervised_quiet {s : Section} (hs : s.Quiet) (h : Supervised w) : Supervised (w.after s) :=
  supervised_after s h fun sid hsid => by rw [hs] at hsid; cases hsid

/-- A program that authorises one justified session at most keeps the host supervised. -/
theorem supervised_run {α : Type} {p : Thread α} (hp : p.All (Section.Only sessionId))
    (h : Supervised w) (hj : Justified w sessionId) : Supervised (p.run machine w).2 := by
  refine (Prog.All.run (I := fun w => Supervised w ∧ Justified w sessionId) ?_ (fun o : Empty => o.elim) hp ⟨h, hj⟩).1
  rintro s w hs ⟨h, hj⟩
  exact ⟨supervised_after s h fun sid hsid => hs sid hsid ▸ hj, justified_after s hj⟩

/-- A program that authorises nothing keeps the host supervised, and what is justified justified. -/
theorem supervised_run_quiet' {α : Type} {p : Thread α} (hp : p.All Section.Quiet)
    (h : Supervised w ∧ Justified w sessionId) :
    Supervised (p.run machine w).2 ∧ Justified (p.run machine w).2 sessionId := by
  refine Prog.All.run (I := fun w => Supervised w ∧ Justified w sessionId) ?_ (fun o : Empty => o.elim) hp h
  exact fun s w hs h => ⟨supervised_quiet hs h.1, justified_after s h.2⟩

theorem supervised_run_quiet {α : Type} {p : Thread α} (hp : p.All Section.Quiet) (h : Supervised w) :
    Supervised (p.run machine w).2 := by
  exact Prog.All.run (I := Supervised) (fun _ _ => supervised_quiet) (fun o : Empty => o.elim) hp h

/-! ## The handlers -/

theorem only_step_authorizes {s : Section} (h : s.authorizes = some sessionId) : (step s).All (Section.Only sessionId) :=
  Prog.all_send fun _ hsid => Option.some.inj (hsid.symm.trans h)

theorem only_step_quiet {s : Section} (h : s.authorizes = none) : (step s).All (Section.Only sessionId) :=
  Prog.all_send (only_of_quiet s h)

theorem quiet_step {s : Section} (h : s.authorizes = none) : (step s).All Section.Quiet := Prog.all_send h

variable (o : Outcome)

theorem quiet_sendAnswer : (sendAnswer o).All Section.Quiet := by
  unfold sendAnswer
  split
  · trivial
  · exact quiet_step rfl

theorem all_connect (sdp sessionId : String) :
    (connect o sdp sessionId).All (Section.Only sessionId) := by
  unfold connect
  refine (only_step_authorizes rfl).bind fun authorized => ?_
  split
  · refine (only_step_authorizes rfl).bind fun _ => ?_
    refine (only_step_quiet rfl).bind fun created => ?_
    split
    · refine (only_step_quiet rfl).bind fun _ => ?_
      refine ((quiet_sendAnswer o).mono only_of_quiet).bind fun _ => ?_
      exact only_step_quiet rfl
    · trivial
  · trivial

theorem quiet_replace (previous : String) : (replace previous).All Section.Quiet := by
  unfold replace
  split
  · trivial
  · exact (quiet_step rfl).bind fun _ => (quiet_step rfl).bind fun _ => quiet_step rfl

/-- **An offer keeps the host supervised**: the session it authorises is the remembered one, or the user approved it. -/
theorem supervised_handleOffer (h : Supervised w) (sdp : String) (hne : sessionId ≠ "") :
    Supervised ((handleOffer o sdp sessionId).run machine w).2 := by
  unfold handleOffer
  rw [Prog.run_send_bind]
  split
  · rename_i hsame
    have hsame : w.session.sessionId = sessionId := hsame
    exact supervised_run (all_connect o sdp sessionId) h (hsame ▸ h.session (by rw [hsame]; exact hne))
  · rw [Prog.run_send_bind]
    split
    · rename_i happ
      have hquiet : Supervised (w.after (.approvalDialog sessionId o.approve)) := supervised_quiet rfl h
      have hj : Justified (w.after (.approvalDialog sessionId o.approve)) sessionId := by
        unfold World.after
        dsimp only
        rw [if_pos happ]
        exact .inl List.mem_cons_self
      refine Prog.run_bind_of (I := fun w => Supervised w ∧ Justified w sessionId) ?_ (fun _ h => h.1) fun _ w h => ?_
      · exact supervised_run_quiet' (quiet_replace _) ⟨hquiet, hj⟩
      · exact supervised_run (all_connect o sdp sessionId) h.1 h.2
    · have hdialog : Supervised (w.after (.approvalDialog sessionId o.approve)) := supervised_quiet rfl h
      exact supervised_quiet (s := .send (hostDenied sessionId)) rfl hdialog

theorem quiet_peerDisconnected : peerDisconnected.All Section.Quiet := by
  unfold peerDisconnected
  refine (quiet_step rfl).bind fun session => (quiet_step rfl).bind fun _ => (quiet_step rfl).bind fun _ => ?_
  split
  · exact (quiet_step rfl).bind fun _ => quiet_step rfl
  · exact quiet_step rfl

theorem quiet_candidateMessage (message : Json) : (candidateMessage o message).All Section.Quiet := by
  unfold candidateMessage
  split
  · refine (quiet_step rfl).bind fun accepted => ?_
    split
    · exact quiet_step rfl
    · trivial
  · trivial

theorem quiet_profileMessage (message : Json) : (profileMessage message).All Section.Quiet := by
  unfold profileMessage
  split
  · refine (quiet_step rfl).bind fun accepted => ?_
    split
    · split
      · exact (quiet_step rfl).bind fun _ => quiet_step rfl
      · trivial
    · trivial
  · trivial

theorem supervised_onMessage (h : Supervised w) (p : Payload) : Supervised ((onMessage o p).run machine w).2 := by
  unfold onMessage
  split
  · exact h
  split
  · exact h
  split
  · split
    · exact supervised_run_quiet quiet_peerDisconnected h
    split
    · unfold offerMessage
      split
      · split
        · exact h
        · rename_i hne
          exact supervised_handleOffer o h _ (not_or.1 hne).2
      · exact h
    split
    · exact supervised_run_quiet (quiet_candidateMessage o _) h
    split
    · exact supervised_run_quiet (quiet_profileMessage _) h
    · exact h
  · exact h

theorem quiet_onClose : onClose.All Section.Quiet := by
  unfold onClose
  exact (quiet_step rfl).bind fun _ => (quiet_step rfl).bind fun _ => quiet_step rfl

theorem quiet_stopIfStarted : stopIfStarted.All Section.Quiet := by
  unfold stopIfStarted stopWebsocket
  refine (quiet_step rfl).bind fun started => ?_
  split
  · refine Prog.All.bind ?_ fun _ => quiet_step rfl
    exact (quiet_step rfl).bind fun _ => (quiet_step rfl).bind fun _ => (quiet_step rfl).bind fun _ => quiet_step rfl
  · trivial

theorem quiet_cleanupSession (terminalEvent reason roomId : String) :
    (cleanupSession terminalEvent reason roomId).All Section.Quiet := by
  unfold cleanupSession
  refine Prog.All.tryCatch ((quiet_step rfl).bind fun sessionId => ?_) (quiet_step rfl)
  split
  · refine (quiet_step rfl).bind fun _ => (quiet_step rfl).bind fun _ => quiet_stopIfStarted.bind fun _ => ?_
    exact (quiet_step rfl).bind fun _ => (quiet_step rfl).bind fun _ => (quiet_step rfl).bind fun _ => quiet_step rfl
  · trivial

variable (l : Launch) (c : MarketplaceCommand)

/-- A launch authorises the session it has prepared. -/
theorem supervised_launch (h : Supervised w) (prepare : Prepare) (gameId : String) :
    Supervised ((launch l c prepare gameId).run machine w).2 := by
  unfold launch
  refine Prog.run_bind_of (I := Supervised) (supervised_run_quiet quiet_stopIfStarted h) (fun _ h => h) fun _ w h => ?_
  split
  · exact supervised_run_quiet ((quiet_step rfl).bind fun _ => quiet_step rfl) h
  · rw [Prog.run_send_bind]
    have hnow : Supervised (w.after (.launch c.sessionId true)) := supervised_quiet rfl h
    have hj : Justified (w.after (.launch c.sessionId true)) c.sessionId := .inr List.mem_cons_self
    refine supervised_run ?_ hnow hj
    refine (only_step_authorizes rfl).bind fun _ => ?_
    refine (only_step_quiet rfl).bind fun _ => (only_step_quiet rfl).bind fun _ => ?_
    refine (only_step_quiet rfl).bind fun _ => (only_step_quiet rfl).bind fun _ => ?_
    exact only_step_quiet rfl

theorem supervised_applyPrepare (h : Supervised w) : Supervised ((applyPrepare l c).run machine w).2 := by
  unfold applyPrepare
  rw [Prog.run_send_bind]
  split
  · exact supervised_run_quiet (quiet_step rfl) h
  split
  · exact supervised_run_quiet (quiet_step rfl) h
  split
  · exact h
  split
  · exact supervised_run_quiet (quiet_step rfl) h
  split
  · exact supervised_run_quiet (quiet_step rfl) h
  · exact supervised_launch l c h _ _

theorem supervised_applyCommand (h : Supervised w) : Supervised ((applyCommand l c).run machine w).2 := by
  unfold applyCommand
  split
  · exact supervised_run_quiet ((quiet_step rfl).bind fun _ => (quiet_step rfl).bind fun _ => quiet_step rfl) h
  split
  · refine supervised_run_quiet ((quiet_step rfl).bind fun active => ?_) h
    split
    · split
      · trivial
      · exact quiet_cleanupSession _ _ _
    · trivial
  · exact supervised_applyPrepare l c h

theorem supervised_applyMarketplaceCommand (h : Supervised w) :
    Supervised ((applyMarketplaceCommand l).run machine w).2 := by
  unfold applyMarketplaceCommand
  rw [Prog.run_send_bind]
  have hpop : Supervised (w.after .popCommand) := supervised_quiet rfl h
  split
  · exact hpop
  split
  · exact hpop
  · exact supervised_applyCommand l _ hpop

theorem supervised_handle (h : Supervised w) (input : Input) : Supervised (w.handle input) := by
  cases input with
  | signaling e =>
    cases e with
    | opened => exact supervised_run_quiet (quiet_step rfl) h
    | closed => exact supervised_run_quiet quiet_onClose h
    | failed => exact supervised_run_quiet quiet_onClose h
    | message o p => exact supervised_onMessage o h p
  | runtime e =>
    cases e with
    | command l => exact supervised_applyMarketplaceCommand l h
    | cleanup terminalEvent reason roomId => exact supervised_run_quiet (quiet_cleanupSession ..) h
  | control command =>
    unfold World.handle World.receive
    dsimp only
    split <;> exact ⟨h.authorized, h.session⟩

theorem supervised_inputs : ∀ (inputs : List Input) {w : World}, Supervised w → Supervised (w.run inputs)
  | [], _, h => h
  | input :: inputs, _, h => supervised_inputs inputs (supervised_handle h input)

/-! ## The whole run -/

/-- The connection, the authorised session and the session manager are as they were. -/
structure Undisturbed (w w' : World) : Prop where
  authorized : w'.authorizedSessionId = w.authorizedSessionId
  session : w'.session = w.session
  peer : w'.go.peerConnection = w.go.peerConnection

theorem undisturbed_send (w : World) (message : Json) : Undisturbed w (w.sendMessage message) := by
  unfold World.sendMessage
  split <;> exact ⟨rfl, rfl, rfl⟩

theorem undisturbed_declined (hnew : w.session.sessionId ≠ sessionId) (hno : o.approve = false) (sdp : String) :
    Undisturbed w ((handleOffer o sdp sessionId).run machine w).2 := by
  unfold handleOffer
  rw [Prog.run_send_bind]
  split
  · rename_i hsame
    exact absurd hsame hnew
  · rw [Prog.run_send_bind]
    split
    · rename_i happ
      exact absurd (hno.symm.trans happ) Bool.false_ne_true
    · have hsent := undisturbed_send (w.after (.approvalDialog sessionId o.approve)) (hostDenied sessionId)
      exact ⟨hsent.authorized, hsent.session, hsent.peer⟩

theorem undisturbed_offerMessage {message : Json} (hnew : message.valueStr "sessionId" "" ≠ some w.session.sessionId)
    (hno : o.approve = false) : Undisturbed w ((offerMessage o message).run machine w).2 := by
  unfold offerMessage
  split
  · rename_i sdp sid _ hsid
    split
    · exact ⟨rfl, rfl, rfl⟩
    · exact undisturbed_declined o (fun heq => hnew (by rw [hsid, heq])) hno sdp
  · exact ⟨rfl, rfl, rfl⟩

theorem undisturbed_onMessage {p : Payload} {message : Json} (hp : p.value = some message)
    (htype : messageType? message = some "offer") (hnew : message.valueStr "sessionId" "" ≠ some w.session.sessionId)
    (hno : o.approve = false) : Undisturbed w ((onMessage o p).run machine w).2 := by
  unfold onMessage
  rw [hp]
  split
  · exact ⟨rfl, rfl, rfl⟩
  dsimp only
  rw [htype]
  split
  · rename_i heq
    rw [← Option.some.inj heq, if_neg (by decide), if_pos rfl]
    exact undisturbed_offerMessage o hnew hno
  · exact ⟨rfl, rfl, rfl⟩

/-- The input is in the hands of a session that the user approved or the marketplace prepared, and so is the memory
that skips the dialog.  An offer that the user declines disturbs nothing. -/
structure Overseen (w : World) : Prop where
  authorized : w.authorizedSessionId ≠ "" →
    w.authorizedSessionId ∈ w.approved ∨ w.authorizedSessionId ∈ w.prepared
  remembered : w.session.sessionId ≠ "" → w.session.sessionId ∈ w.approved ∨ w.session.sessionId ∈ w.prepared
  declined : ∀ (o : Outcome) (p : Payload) (message : Json), p.value = some message →
    messageType? message = some "offer" → message.valueStr "sessionId" "" ≠ some w.session.sessionId →
    o.approve = false → Undisturbed w (w.handle (.signaling (.message o p)))

/-- **No session gets the input without approval**: after any messages, answers, reconnects and marketplace commands. -/
theorem overseen_of_run (inputs : List Input) : Overseen (World.run {} inputs) := by
  have hstart : Supervised {} := ⟨fun h => absurd rfl h, fun h => absurd rfl h⟩
  have hrun := supervised_inputs inputs hstart
  exact ⟨hrun.authorized, hrun.session, fun o _ _ => undisturbed_onMessage o⟩

end Runtime
end Host
end CloudGaming
