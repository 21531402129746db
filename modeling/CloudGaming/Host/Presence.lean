import CloudGaming.Host.Tick
/-!
# Presence — what an idle presence says of the host

The presence reports the state of the runtime, and not the session or the peer.  A target selection sets the state back
while a session is active; a player of the private path connects while the state is idle; and a target that is lost does
not close the peer connection.
-/
namespace CloudGaming
namespace Host
namespace HostRuntime

open Async
open CloudGaming.Host.Runtime (HostState)

variable {s s₁ t : HostRuntime} {o : Outside}

/-! ## Clean hosts -/

/-- Whatever the games are, the presence reports idle. -/
def Idle (s : HostRuntime) : Prop := presenceState s.state = "idle"

instance (s : HostRuntime) : Decidable s.Idle := inferInstanceAs (Decidable (_ = _))

/-- **An idle presence means that no session is active, and no peer connected or connecting.** -/
def Clean (s : HostRuntime) : Prop :=
  ∀ region inventory, (s.marketplacePresence region inventory).state = "idle" → s.activeSessionId = "" ∧ ¬s.Occupied

theorem clean_iff : s.Clean ↔ (s.Idle → s.activeSessionId = "" ∧ ¬s.Occupied) :=
  ⟨fun h => h "" {}, fun h _ _ => h⟩

/-- A window that is found changes the state: it is captured, or the device cannot be made. -/
def Settles (s : HostRuntime) (o : Outside) : Prop := o.capture ∨ ¬(s.d3dInitialized ∨ o.device)

/-- A selection that waits is applied with no session active and no peer there, or this tick ends the session or finds a
window. -/
def SelectionSafe (s : HostRuntime) (o : Outside) : Prop :=
  ∀ p ∈ s.pendingTarget,
    if s.activeSessionId = "" then
      ¬s.Occupied ∨ o.selectionTime ≤ o.now ∧
        (o.pickWindowByProcessName p.processName p.preferredTitle).isSome ∧ s.Settles o
    else
      s.sessionDeadline ≤ o.now ∨ s.launchDeadline ≤ o.now ∨ o.selectionTime ≤ o.now ∧ o.pollTarget.isSome ∧
        s.Settles o

/-- A window is given up, outside of a session, with no peer there. -/
def LossSafe (s : HostRuntime) (o : Outside) : Prop :=
  s.pendingTarget = none → s.activeSessionId = "" → s.captureStarted → s.windowGone o → s.Lost o → ¬s.Occupied

/-- The tick meets both, once its command is applied; and a peer comes while the presence is not idle. -/
def Careful (s : HostRuntime) : RuntimeMove → Prop
  | .tick o => ∀ t, s.applyMarketplaceCommand o = some t → t.SelectionSafe o ∧ t.LossSafe o
  | .peer state => state = 1 ∨ state = 3 → ¬s.Idle
  | _ => True

/-! ## A tick -/

theorem clean_of_not_idle (h : ¬s.Idle) : s.Clean := clean_iff.2 fun hi => absurd hi h

theorem not_idle_of_state {state : HostState} (h : s.state = state) (hs : presenceState state ≠ "idle") : ¬s.Idle := by
  intro hi
  exact hs (h ▸ hi)

theorem not_idle_setState {state : HostState} {reason : String} (hs : presenceState state ≠ "idle") :
    ¬(s.setState state reason).Idle := hs

theorem clean_cleanupSession (hw : s.websocketStarted) (ha : s.activeSessionId ≠ "") (e r roomId : String) :
    (s.cleanupSession e r roomId).Clean := by
  have hlink := link_cleanupSession s ha e r roomId
  simp only [link, Link.cleaned, hw, if_true, Link.mk.injEq] at hlink
  exact clean_iff.2 fun _ => ⟨hlink.1, by simp [Occupied, hlink.2.2.2.1]⟩

theorem idle_attachTarget (w : Window) : (s.attachTarget o w).1.Idle ↔ s.Idle ∧ ¬s.Settles o := by
  unfold attachTarget Settles
  cases hd : s.d3dInitialized <;> cases hv : o.device <;> cases hc : o.capture <;>
    simp [Idle, setState, presenceState]

theorem idle_pollLaunched : (s.pollLaunched o).Idle ↔ s.Idle ∧ ¬(o.pollTarget.isSome ∧ s.Settles o) := by
  unfold pollLaunched
  cases hp : o.pollTarget with
  | none => simp
  | some target =>
    have h := idle_attachTarget (o := o) target.window
      (s := { s with targetProcessName := target.processName, wideTargetProcessName := target.processName })
    dsimp only
    split <;> exact h.trans (by simp [Idle, Settles])

theorem idle_tryAttachTarget : (s.tryAttachTarget o).1.Idle ↔
    s.Idle ∧ ¬((o.pickWindowByProcessName s.wideTargetProcessName s.preferredWindowTitle).isSome ∧ s.Settles o) := by
  unfold tryAttachTarget
  cases hp : o.pickWindowByProcessName s.wideTargetProcessName s.preferredWindowTitle with
  | none => simp
  | some w => simpa using idle_attachTarget w

theorem clean_iff_of_active (ha : s.activeSessionId ≠ "") : s.Clean ↔ ¬s.Idle :=
  clean_iff.trans ⟨fun h hi => ha (h hi).1, fun h hi => absurd hi h⟩

theorem clean_iff_of_free (ha : s.activeSessionId = "") : s.Clean ↔ ¬s.Occupied ∨ ¬s.Idle :=
  clean_iff.trans ⟨fun h => by by_cases hi : s.Idle; exacts [.inl (h hi).2, .inr hi],
    fun h hi => ⟨ha, h.resolve_right (not_not.2 hi)⟩⟩

/-- The session and the peer are what they were. -/
theorem active_of_link (h : t.link = s.link) : t.activeSessionId = s.activeSessionId := congrArg Link.activeSessionId h

theorem occupied_of_link (h : t.link = s.link) : t.Occupied ↔ s.Occupied := by
  have hp : t.peer = s.peer := congrArg Link.peer h
  simp only [Occupied, hp]

/-- A session without a capture is clean where the tick ends it, or finds a window, or its state is not idle. -/
theorem clean_seek_session (ha : s.activeSessionId ≠ "") (hw : s.websocketStarted) : (s.seek o).Clean ↔
    s.launchDeadline ≤ o.now ∨ ¬s.Idle ∨ s.nextTargetPoll ≤ o.now ∧ o.pollTarget.isSome ∧ s.Settles o := by
  unfold seek
  rw [if_pos ha]
  by_cases hd : s.launchDeadline ≤ o.now
  · rw [if_pos hd]
    exact iff_of_true (clean_cleanupSession hw ha _ _ _) (.inl hd)
  · rw [if_neg hd]
    by_cases hn : s.nextTargetPoll ≤ o.now
    · rw [if_pos hn]
      have hactive : (s.pollLaunched o).activeSessionId ≠ "" := active_of_link (link_pollLaunched s o) ▸ ha
      have hclean := clean_iff_of_active (s := { s.pollLaunched o with nextTargetPoll := o.now + 250 }) hactive
      refine hclean.trans ((not_congr idle_pollLaunched).trans ?_)
      simp only [hd, hn, true_and, false_or]
      rw [not_and_not_right, imp_iff_not_or]
    · rw [if_neg hn, clean_iff_of_active ha]
      simp [hd, hn]

/-- Without a session: no peer is there, or the state is not idle, or the tick finds a window. -/
theorem clean_seek_free (ha : s.activeSessionId = "") : (s.seek o).Clean ↔
    ¬s.Occupied ∨ ¬s.Idle ∨ s.state = .waitingForTarget ∧ s.nextTargetPoll ≤ o.now ∧
      (o.pickWindowByProcessName s.wideTargetProcessName s.preferredWindowTitle).isSome ∧ s.Settles o := by
  unfold seek
  rw [if_neg (not_not.2 ha)]
  by_cases hs : s.state = .waitingForTarget ∧ s.nextTargetPoll ≤ o.now
  · rw [if_pos hs]
    have hlink := link_tryAttachTarget s o
    have hclean := clean_iff_of_free ((active_of_link hlink).trans ha)
      (s := { (s.tryAttachTarget o).1 with nextTargetPoll := o.now + s.windowPollIntervalMs })
    refine hclean.trans ((or_congr (not_congr (occupied_of_link hlink)) (not_congr idle_tryAttachTarget)).trans ?_)
    simp only [hs, true_and]
    rw [not_and_not_right, imp_iff_not_or]
  · rw [if_neg hs, clean_iff_of_free ha]
    simp only [← and_assoc, hs, false_and, or_false]

theorem idle_of_followPeer (h : s.followPeer.Idle) : s.Idle := by
  unfold followPeer at h
  dsimp only at h
  split at h
  · exact h
  · split at h
    · exact absurd h (not_idle_setState (by decide))
    · split at h
      · exact absurd h (not_idle_setState (by decide))
      · split at h
        · exact absurd h (not_idle_setState (by decide))
        · exact h

theorem state_reportSession : (s.reportSession o).state = s.state := by
  unfold reportSession
  dsimp only
  split
  · split <;> rfl
  · rfl

theorem Clean.congr (h : s.Clean) (hlink : t.link = s.link) (hi : t.Idle → s.Idle) : t.Clean :=
  clean_iff.2 fun hidle => ⟨(active_of_link hlink).trans (clean_iff.1 h (hi hidle)).1,
    mt (occupied_of_link hlink).1 (clean_iff.1 h (hi hidle)).2⟩

theorem clean_watch (h : s.Clean) (hw : s.activeSessionId ≠ "" → s.websocketStarted) : (s.watch o).Clean ↔
    (s.activeSessionId = "" → s.windowGone o → s.Lost o → ¬s.Occupied) := by
  unfold watch
  by_cases hg : s.windowGone o
  · rw [if_pos hg]
    unfold lose
    dsimp only
    by_cases hl : s.Lost o
    · rw [if_pos hl]
      by_cases ha : s.activeSessionId = ""
      · rw [if_neg (not_not.2 ha)]
        have hclean := clean_iff_of_free (s := { { s with invalidWindowSince := s.lostSince o }.detachTarget.setState
          .waitingForTarget with nextTargetPoll := o.now }) ha
        refine hclean.trans ⟨fun hc _ _ _ => hc.resolve_right (not_not.2 rfl), fun hc => .inl (hc ha hg hl)⟩
      · rw [if_pos ha]
        refine iff_of_true ?_ fun hn => absurd hn ha
        exact clean_cleanupSession (s := { s with invalidWindowSince := s.lostSince o }) (hw ha) ha _ _ _
    · rw [if_neg hl]
      exact iff_of_true (h.congr rfl id) fun _ _ hn => absurd hn hl
  · rw [if_neg hg]
    refine iff_of_true ?_ fun _ hn => absurd hn hg
    refine h.congr ((link_followPeer _).trans (link_reportSession ..)) fun hi => ?_
    have hidle := idle_of_followPeer hi
    rwa [Idle, state_reportSession] at hidle

/-- The rest of a tick without a selection. -/
theorem clean_advance (h : s.Clean) (hw : s.activeSessionId ≠ "" → s.websocketStarted) : (s.advance o).Clean ↔
    (s.activeSessionId = "" → s.captureStarted → s.windowGone o → s.Lost o → ¬s.Occupied) := by
  unfold advance
  by_cases hd : s.activeSessionId ≠ "" ∧ s.sessionDeadline ≤ o.now
  · rw [if_pos hd]
    exact iff_of_true (clean_cleanupSession (hw hd.1) hd.1 _ _ _) fun hn => absurd hn hd.1
  · rw [if_neg hd]
    by_cases hc : s.captureStarted
    · rw [if_pos hc, clean_watch h hw]
      simp [hc]
    · rw [if_neg hc]
      refine iff_of_true ?_ fun _ hn => absurd hn hc
      by_cases ha : s.activeSessionId = ""
      · exact (clean_seek_free ha).2 (((clean_iff_of_free ha).1 h).imp_right .inl)
      · exact (clean_seek_session ha (hw ha)).2 (.inr (.inl ((clean_iff_of_active ha).1 h)))

/-- The rest of a tick that applied a selection. -/
theorem clean_advance_selected (hw : s.activeSessionId ≠ "" → s.websocketStarted) (hc : s.captureStarted = false)
    (hs : s.state = .waitingForTarget) : (s.advance o).Clean ↔
    if s.activeSessionId = "" then
      ¬s.Occupied ∨ s.nextTargetPoll ≤ o.now ∧
        (o.pickWindowByProcessName s.wideTargetProcessName s.preferredWindowTitle).isSome ∧ s.Settles o
    else
      s.sessionDeadline ≤ o.now ∨ s.launchDeadline ≤ o.now ∨ s.nextTargetPoll ≤ o.now ∧ o.pollTarget.isSome ∧
        s.Settles o := by
  have hi : s.Idle := congrArg presenceState hs
  unfold advance
  by_cases ha : s.activeSessionId = ""
  · rw [if_neg (fun hd => hd.1 ha), if_neg (by simp [hc]), clean_seek_free ha, if_pos ha]
    simp [hi, hs]
  · rw [if_neg ha]
    by_cases hd : s.sessionDeadline ≤ o.now
    · rw [if_pos ⟨ha, hd⟩]
      exact iff_of_true (clean_cleanupSession (hw ha) ha _ _ _) (.inl hd)
    · rw [if_neg (fun hn => hd hn.2), if_neg (by simp [hc]), clean_seek_session ha (hw ha)]
      simp [hi, hd]

/-! ## Runs -/

/-- Where a session is active the client is started. -/
def Served (s : HostRuntime) : Prop := s.activeSessionId ≠ "" → s.websocketStarted

theorem served_of_link (h : s.Served) (hlink : t.link = s.link) : t.Served := by
  have hw : t.websocketStarted = s.websocketStarted := congrArg Link.websocketStarted hlink
  exact fun ha => hw ▸ h (active_of_link hlink ▸ ha)

theorem command_served (h : s.Served) (ht : s.applyMarketplaceCommand o = some t) : t.Served := by
  rcases command_cases s o ht with ⟨hlink, -⟩ | ⟨-, hlink, -⟩ | ⟨ha, hlink, -⟩ | ⟨-, -, id, roomId, -, hlink⟩
  · exact served_of_link h hlink
  · exact fun hn => absurd (congrArg Link.activeSessionId hlink) hn
  · exact fun hn => absurd ((congrArg Link.activeSessionId hlink).trans ha) hn
  · exact fun _ => congrArg Link.websocketStarted hlink

/-- The command of a tick keeps the host clean. -/
theorem command_clean (h : s.Clean) (hw : s.Served) (ht : s.applyMarketplaceCommand o = some t) : t.Clean := by
  rcases command_cases s o ht with ⟨hlink, hs⟩ | ⟨ha, hlink, -⟩ | ⟨ha, hlink, hs⟩ | ⟨-, hs, -⟩
  · exact h.congr hlink fun hi => by rwa [Idle, hs] at hi
  · have hp : t.peer = 0 := (congrArg Link.peer hlink).trans (if_pos (hw ha))
    exact clean_iff.2 fun _ => ⟨congrArg Link.activeSessionId hlink, by simp [Occupied, hp]⟩
  · refine clean_iff.2 fun hi => ⟨(congrArg Link.activeSessionId hlink).trans ha, fun hocc => ?_⟩
    have hidle : s.Idle := by rwa [Idle, hs] at hi
    have hp : t.peer = if s.websocketStarted then 0 else s.peer := congrArg Link.peer hlink
    refine (clean_iff.1 h hidle).2 ?_
    unfold Occupied at hocc ⊢
    split at hp
    · simp [hp] at hocc
    · rwa [hp] at hocc
  · exact clean_of_not_idle (not_idle_of_state hs (by decide))

theorem tick_served (h : s.Served) (ht : s.tick o = some t) : t.Served := by
  obtain ⟨s₁, hs₁, rfl⟩ := Option.map_eq_some_iff.1 ht
  have h₁ : ((s₁.applyPendingTargetSelection o).refreshPresence o).Served :=
    served_of_link (command_served h hs₁) (by simp)
  rcases advance_cases ((s₁.applyPendingTargetSelection o).refreshPresence o) o with hlink | ⟨-, hlink⟩
  · exact served_of_link h₁ hlink
  · exact fun hn => absurd (congrArg Link.activeSessionId hlink) hn

theorem refreshPresence_cases : ∃ presences refresh, s.refreshPresence o =
    { s with presences := presences, presenceRefreshRequested := refresh } := by
  unfold refreshPresence
  split
  · exact ⟨_, _, rfl⟩
  · exact ⟨s.presences, s.presenceRefreshRequested, rfl⟩

/-- **A tick of a clean host leaves it clean exactly where the selection and the loss are safe.** -/
theorem tick_clean (h : s.Clean) (hw : s.Served) (hs₁ : s.applyMarketplaceCommand o = some s₁)
    (ht : s.tick o = some t) : t.Clean ↔ s₁.SelectionSafe o ∧ s₁.LossSafe o := by
  obtain rfl : ((s₁.applyPendingTargetSelection o).refreshPresence o).advance o = t := by
    simpa [tick, hs₁] using ht
  have hclean := command_clean h hw hs₁
  have hserved := command_served hw hs₁
  cases hp : s₁.pendingTarget with
  | none =>
    have hsame : s₁.applyPendingTargetSelection o = s₁ := by simp [applyPendingTargetSelection, hp]
    have hsafe : s₁.SelectionSafe o := by
      intro p hm
      rw [hp] at hm
      cases hm
    obtain ⟨presences, refresh, hr⟩ := refreshPresence_cases (s := s₁) (o := o)
    have hadvance := clean_advance (s := { s₁ with presences := presences, presenceRefreshRequested := refresh })
      (o := o) (hclean.congr rfl id) hserved
    rw [hsame, hr]
    exact hadvance.trans ⟨fun hl => ⟨hsafe, fun _ => hl⟩, fun hl => hl.2 hp⟩
  | some p =>
    have hsel : s₁.applyPendingTargetSelection o =
        { s₁.detachTarget with
          pendingTarget := none
          targetProcessName := p.processName
          wideTargetProcessName := p.processName
          preferredWindowTitle := p.preferredTitle
          nextTargetPoll := o.selectionTime }.setState .waitingForTarget := by simp [applyPendingTargetSelection, hp]
    obtain ⟨presences, refresh, hr⟩ := refreshPresence_cases (s := s₁.applyPendingTargetSelection o) (o := o)
    have hloss : s₁.LossSafe o := fun hn => absurd (hp.symm.trans hn) (Option.some_ne_none p)
    have hadvance := clean_advance_selected (o := o)
      (s := { s₁.applyPendingTargetSelection o with presences := presences, presenceRefreshRequested := refresh })
      (by rw [hsel]; exact hserved) (by rw [hsel]; rfl) (by rw [hsel]; rfl)
    rw [hr]
    rw [hsel] at hadvance ⊢
    refine hadvance.trans ⟨fun hl => ⟨fun q hq => ?_, hloss⟩, fun hl => hl.1 p hp⟩
    obtain rfl := Option.some.inj (hp.symm.trans hq)
    exact hl

theorem step_served {m : RuntimeMove} (h : s.Served) (ht : s.step m = some t) : t.Served := by
  cases m with
  | tick o => exact tick_served h ht
  | queueTargetSelection processName preferredTitle =>
    obtain rfl := Option.some.inj ht
    exact served_of_link h (queueTargetSelection_same s processName preferredTitle).1
  | requestPresenceRefresh =>
    obtain rfl := Option.some.inj ht
    exact h
  | handleMarketplaceCommand command =>
    obtain rfl := Option.some.inj ht
    exact served_of_link h (handleMarketplaceCommand_same s command).1
  | beat b =>
    obtain ⟨loop, -, rfl⟩ := Option.map_eq_some_iff.1 ht
    unfold beat
    dsimp only
    split <;> exact h
  | peer state =>
    obtain rfl := Option.some.inj ht
    exact h

theorem step_clean {m : RuntimeMove} (hw : s.Served) (h : s.Clean) (ht : s.step m = some t) :
    t.Clean ↔ s.Careful m := by
  cases m with
  | tick o =>
    obtain ⟨s₁, hs₁, -⟩ := Option.map_eq_some_iff.1 ht
    refine (tick_clean h hw hs₁ ht).trans ⟨fun hsafe t₁ ht₁ => ?_, fun hsafe => hsafe s₁ hs₁⟩
    obtain rfl := Option.some.inj (hs₁.symm.trans ht₁)
    exact hsafe
  | queueTargetSelection processName preferredTitle =>
    obtain rfl := Option.some.inj ht
    obtain ⟨hlink, hs⟩ := queueTargetSelection_same s processName preferredTitle
    exact iff_of_true (h.congr hlink fun hi => by rwa [Idle, hs] at hi) trivial
  | requestPresenceRefresh =>
    obtain rfl := Option.some.inj ht
    exact iff_of_true h trivial
  | handleMarketplaceCommand command =>
    obtain rfl := Option.some.inj ht
    obtain ⟨hlink, hs⟩ := handleMarketplaceCommand_same s command
    exact iff_of_true (h.congr hlink fun hi => by rwa [Idle, hs] at hi) trivial
  | beat b =>
    obtain ⟨loop, -, rfl⟩ := Option.map_eq_some_iff.1 ht
    refine iff_of_true ?_ trivial
    unfold beat
    dsimp only
    split <;> exact h
  | peer state =>
    obtain rfl := Option.some.inj ht
    refine clean_iff.trans ⟨fun hc hp hi => (hc hi).2 hp, fun hc hi => ?_⟩
    exact ⟨(clean_iff.1 h hi).1, fun hp => hc hp hi⟩

/-- **The host is clean throughout a run exactly where all its moves are careful.** -/
theorem clean_iff_careful (s s₀ : HostRuntime) (b : Boot) (ms : List RuntimeMove) (h : s.Stopped)
    (hs : s.start b = some s₀) : Throughout step Clean s₀ ms ↔ Along step Careful s₀ ms := by
  have hstarted := start_spec s h hs
  have hclean : s₀.Clean := clean_iff.2 fun _ => ⟨hstarted.session, by simp [Occupied, hstarted.peer]⟩
  have hserved : s₀.Served := fun hn => absurd hstarted.session hn
  have hall : Along step (fun _ _ => True) s₀ ms := along_true
  exact throughout_iff_along (fun _ _ _ h _ => step_served h) (fun _ _ _ hw _ h => step_clean hw h) hserved hclean hall

/-- The host is started and a session prepared; then the operator selects a target, and no window is found. -/
def selecting : List RuntimeMove :=
  [.handleMarketplaceCommand (prepareCommand "0123456789abcdef0123456789abcdef0123" "0123456789abcdef0123456789abcdef"),
    .tick { inventory := installed }, .queueTargetSelection "notepad.exe" "", .tick { inventory := installed }]

theorem clean_iff_careful_selecting : ∃ s₀, ({} : HostRuntime).start aBoot = some s₀ ∧
    (Throughout step Clean s₀ selecting ↔ Along step Careful s₀ selecting) :=
  ⟨_, rfl, clean_iff_careful {} _ aBoot selecting stopped_new rfl⟩

/-- **An idle presence with a session active.** -/
theorem not_clean_selecting : ¬∀ (s s₀ : HostRuntime) (b : Boot) (ms : List RuntimeMove), s.Stopped →
    s.start b = some s₀ → Throughout step Clean s₀ ms := by
  intro h
  obtain ⟨s₀, hs₀⟩ : ∃ s₀, ({} : HostRuntime).start aBoot = some s₀ := ⟨_, rfl⟩
  have hclean := h {} s₀ aBoot selecting stopped_new hs₀
  obtain ⟨t, ht, hi, ha⟩ : ∃ t, after step s₀ selecting = some t ∧ t.Idle ∧
      t.activeSessionId = "0123456789abcdef0123456789abcdef0123" := by
    obtain rfl := Option.some.inj hs₀
    exact ⟨_, rfl, rfl, rfl⟩
  have hnone := (clean_iff.1 (hclean.after ht) hi).1
  rw [ha] at hnone
  exact absurd hnone (by decide)

end HostRuntime
end Host
end CloudGaming
