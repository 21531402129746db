import CloudGaming.Market.Life
/-!
# Acts — every request is a sequence of turns

Each handler, served to completion with every command answered, takes the sessions it is about through one turn each.
-/
namespace CloudGaming
namespace Market

open Async Redis Relation

section acts
variable {r : Request} {w w' : World}

theorem Act.one (h : Act r w w') : ReflTransGen (Act r) w w' := .single h

theorem Still.refl (w : World) : Still w w := ⟨fun _ => rfl, rfl, rfl, rfl, Nat.le_refl _, fun _ h => h, rfl⟩

/-- What leaves the sockets, the clock and the history alone. -/
theorem Still.of_clients (hv : ∀ id, w'.view id = w.view id) (hc : w'.clients = w.clients) (hn : w'.now = w.now)
    (hu : w'.nextUuid = w.nextUuid) (hl : ∀ h, w'.late h → w.late h) (ht : w'.trace = w.trace) : Still w w' where
  view := hv
  now := hn
  connected := by funext k; simp only [World.connected, hc]
  deliverable := by funext k; simp only [World.deliverable, hc]
  nextUuid := Nat.le_of_eq hu.symm
  late := hl
  history := ht

/-! ## Connections and presences -/

theorem still_handleControlConnection (h : HostId) (b : Bool) (w : World) :
    Still w ((handleControlConnection h b).run machine w).2 := by
  cases b with
  | true =>
    refine .of_clients (fun _ => rfl) rfl rfl rfl (fun k hk => ?_) rfl
    obtain ⟨n, hs, hn⟩ := hk
    by_cases he : k = h
    · subst he
      have : (w.disconnectDeadlines.zrem k).score k = some n := hs
      simp at this
    · exact ⟨n, by rwa [← ZSet.score_zrem_of_ne _ he], hn⟩
  | false =>
    refine .of_clients (fun _ => rfl) rfl rfl rfl (fun k hk => ?_) rfl
    obtain ⟨n, hs, hn⟩ := hk
    by_cases he : k = h
    · subst he
      -- the new deadline is still to come
      have hs' : (w.disconnectDeadlines.zadd k (w.now + reconnectMillis)).score k = some n := hs
      have hn' : n ≤ w.now := hn
      simp [reconnectMillis] at hs'
      omega
    · exact ⟨n, by rwa [← ZSet.score_zadd_of_ne _ _ he], hn⟩

theorem still_postPresence (p : Presence) (w : World) : Still w ((postPresence p).run machine w).2 := by
  have h : (postPresence p).run machine w = (some { status := 200 }, (w.addGames p.games).presence p w.now) := rfl
  rw [h]
  exact .of_clients (fun _ => rfl) rfl rfl rfl (fun _ hk => hk) rfl

/-! ## Routes -/

theorem run_discard {α : Type} (p : Js α) (w : World) : (p.discard.run machine w).2 = (p.run machine w).2 := by
  unfold Prog.discard
  rw [Prog.run_bind]
  split <;> rename_i h <;> rw [h]
  rfl

theorem still_releasePlayer (w : World) (s : Session) : Still w (w.releasePlayer s) := by
  unfold World.releasePlayer
  split
  · exact .of_clients (fun _ => rfl) rfl rfl rfl (fun _ h => h) rfl
  · exact .refl w

theorem still_lockPlayer (w : World) (p : PlayerId) (id : SessionId) (seconds : Nat) :
    Still w (w.lockPlayer p id seconds) := by
  unfold World.lockPlayer
  split
  · exact .of_clients (fun _ => rfl) rfl rfl rfl (fun _ h => h) rfl
  · exact .refl w

theorem acts_postSessions {n : Nat} (hu : n < w.nextUuid) (hv : (w.view ⟨n⟩).Unborn) (p : PlayerId) (q : SessionRequest) :
    ReflTransGen (Act (.post p q)) w ((postSessions ⟨n⟩ ⟨n⟩ p q).run machine w).2 := by
  obtain ⟨s, hs⟩ : ∃ s, s = newSession ⟨n⟩ ⟨n⟩ w.now p q := ⟨_, rfl⟩
  have hid : s.id = ⟨n⟩ := by rw [hs]; rfl
  unfold postSessions
  rw [Prog.run_invoke_bind]
  dsimp only
  rw [show machine.call .dateNow w = (w.now, w) from rfl, ← hs]
  suffices h : ∃ a w', (createSession s).run machine w = (some a, w') ∧ ReflTransGen (Act (.post p q)) w w' by
    obtain ⟨a, w', h, hacts⟩ := h
    rw [Prog.run_tryCatch_some machine h]
    exact hacts
  unfold createSession
  rw [Prog.run_send_bind]
  have hlock := still_lockPlayer w s.playerId s.id (sessionTtl s.durationSeconds)
  obtain ⟨w₁, hw₁⟩ : ∃ w₁, w₁ = w.lockPlayer s.playerId s.id (sessionTtl s.durationSeconds) := ⟨_, rfl⟩
  rw [show machine.exec (.lockPlayer s.playerId s.id (sessionTtl s.durationSeconds)) w =
    ((w.player s.playerId).isNone, w.lockPlayer s.playerId s.id (sessionTtl s.durationSeconds)) from rfl, ← hw₁]
  rw [← hw₁] at hlock
  have hacts₁ : ReflTransGen (Act (.post p q)) w w₁ := .single (.still hlock)
  split
  · exact ⟨_, w₁, rfl, hacts₁⟩
  · obtain ⟨o, w₂, ho, ha⟩ := run_allocateSession s w₁
    rw [Prog.run_bind_some machine ho]
    have hf : Frame s.id w₁ w₂ := frame_allocates ha
    have hu₁ : s.id.uuid < w₁.nextUuid := by rw [hid]; exact Nat.lt_of_lt_of_le hu hlock.nextUuid
    have hv₁ : (w₁.view s.id).Unborn := by rw [hlock.view, hid]; exact hv
    have hs₁ : s = newSession s.id ⟨s.id.uuid⟩ w₁.now p q := by rw [hlock.now, hid]; exact hs
    cases o with
    | none =>
      unfold hostsUnavailable
      dsimp only
      rw [Prog.run_bind_some machine (run_releasePlayer w₂ s)]
      have hrel : ReflTransGen (Act (.post p q)) w₂ (w₂.releasePlayer s) := .single (.still (still_releasePlayer w₂ s))
      refine ⟨_, _, rfl, (hacts₁.trans ?_).trans hrel⟩
      cases ha with
      | refused ht =>
        rcases view_tries ht with rfl | ⟨attempted, h, hmem, hv₂⟩
        · exact .refl
        · refine .single (.turn s.id hf ?_)
          rw [hv₂, hs₁]
          exact .unavailable hu₁ hv₁ attempted h hmem
    | some a =>
      obtain ⟨attempted, h, c, hd, -, hmem, -, hv₂⟩ := view_allocates ha
      refine ⟨_, w₂, rfl, hacts₁.tail (.turn s.id hf ?_)⟩
      rw [hv₂, hs₁]
      exact .created hu₁ hv₁ attempted h c hd hmem

theorem acts_deleteSession (S : SessionId) (p : Option PlayerId) (w : World) :
    ReflTransGen (Act (.delete S p)) w ((deleteSession S p).run machine w).2 := by
  unfold deleteSession
  rw [Prog.run_bind_some machine (run_loadSession w S)]
  cases hs : w.session S with
  | none => exact .refl
  | some s =>
    obtain rfl : s.id = S := session_id w hs
    dsimp only
    split
    · exact .refl
    · rename_i hp
      obtain rfl : some s.playerId = p := by simpa using hp
      split
      · exact .refl
      · rename_i hl
        obtain ⟨o, ho⟩ := run_send w s.hostId (.stop s.id "player_requested")
        rw [Prog.run_bind_some machine ho]
        obtain ⟨w₁, hw₁⟩ : ∃ w₁, w₁ = w.sendTo s.hostId (.stop s.id "player_requested") := ⟨_, rfl⟩
        rw [← hw₁]
        have hf : Frame s.id w w₁ := by rw [hw₁]; exact frame_sendTo_stop w s.hostId _
        have hv : w₁.view s.id = (w.view s.id).stop w.deliverable s.hostId := by rw [hw₁]; exact view_sendTo_stop w s.hostId _
        rw [Prog.run_bind_some machine (run_releasePlayer w₁ _), Prog.run_bind_some machine (run_saveSession _ _)]
        obtain ⟨hf', hv'⟩ := saved (s := { s with state := .ending })
          (hf.trans (frame_releasePlayer w₁ { s with state := .ending })) rfl
        change ReflTransGen _ w (World.save _ _)
        refine .single (.turn s.id hf' ?_)
        rw [hv', view_releasePlayer, hv]
        exact .deleted hs (by simpa using hl)

/-! ## Host events -/

theorem remPrepareDeadline (w : World) (S : SessionId) : Frame S w (machine.exec (.remPrepareDeadline S) w).2 ∧
    (machine.exec (.remPrepareDeadline S) w).2.view S = { w.view S with prepareAt := none } :=
  ⟨frame_deadlines w (fun _ h => ZSet.score_zrem_of_ne _ h) fun _ _ => rfl,
    View.ext rfl rfl (ZSet.score_zrem_self _ _) rfl rfl rfl⟩

theorem addSessionDeadline (w : World) (S : SessionId) (n : Nat) :
    Frame S w (machine.exec (.addSessionDeadline S n) w).2 ∧
    (machine.exec (.addSessionDeadline S n) w).2.view S = { w.view S with endsAt := some n } :=
  ⟨frame_deadlines w (fun _ _ => rfl) fun _ h => ZSet.score_zadd_of_ne _ _ h,
    View.ext rfl rfl rfl (ZSet.score_zadd_self _ _ _) rfl rfl⟩

theorem acts_handleHello (h : HostId) {e : HostEvent} (ht : e.type = .hello) (w : World) :
    ReflTransGen (Act (.event h e)) w ((handleHello h e).run machine w).2 := by
  unfold handleHello
  rw [Prog.run_send_bind, show machine.exec (.getLease h) w = (w.lease h, w) from rfl]
  dsimp only
  cases he : e.sessionId with
  | some S =>
    dsimp only
    split
    · rename_i hne
      obtain ⟨o, ho⟩ := run_send w (some h) (.stop S "orphaned_session")
      rw [Prog.run_bind_some machine ho]
      refine .single (.turn S (frame_sendTo_stop w (some h) _) ?_)
      change Turn w S _ ((w.sendTo (some h) (.stop S "orphaned_session")).view S)
      rw [view_sendTo_stop]
      exact .orphaned ht he fun hl => hne hl.symm
    · exact .refl
  | none =>
    cases hl : w.lease h with
    | none => exact .refl
    | some S =>
      dsimp only
      rw [Prog.run_bind_some machine (run_loadSession w S)]
      cases hs : w.session S with
      | none => exact .refl
      | some s =>
        obtain rfl : s.id = S := session_id w hs
        dsimp only
        split
        · rename_i hlive
          obtain ⟨s', w', hrun, hf, hg⟩ := run_failOrRetrySession s "host_restarted" w
          rw [Prog.run_bind_some machine hrun]
          exact .single (.turn s.id hf (.lost (.restarted ht he hl hs (by simpa using hlive)) hg))
        · exact .refl

theorem acts_handleSessionEvent {h : HostId} {e : HostEvent} {s : Session} (hr : Reports w s.id h e s)
    (hne : e.type ≠ .hello) :
    ReflTransGen (Act (.event h e)) w ((handleSessionEvent h e s).run machine w).2 := by
  unfold handleSessionEvent
  have hw : Frame s.id w w := .refl _ w
  cases ht : e.type with
  | hello => exact absurd ht hne
  | launchAck =>
    dsimp only
    rw [Prog.run_bind_some machine (run_saveSession w _)]
    obtain ⟨hf, hv⟩ := saved (s := if s.state.launching then { s with state := .preparing } else s) hw (by split <;> rfl)
    change ReflTransGen _ w (World.save _ _)
    refine .single (.turn s.id hf ?_)
    rw [hv]
    exact .acknowledged hr ht
  | gameReady =>
    dsimp only
    split
    · rename_i hl
      obtain ⟨hz, hvz⟩ := remPrepareDeadline w s.id
      rw [Prog.run_send_bind, Prog.run_bind_some machine (run_saveSession _ _)]
      obtain ⟨hf, hv⟩ := saved (s := { s with state := .ready }) hz rfl
      change ReflTransGen _ w (World.save _ _)
      refine .single (.turn s.id hf ?_)
      rw [hv, hvz]
      exact .ready hr ht hl
    · rename_i hl
      rw [Prog.run_bind_some machine (run_saveSession w s)]
      obtain ⟨hf, hv⟩ := saved hw (s := s) rfl
      change ReflTransGen _ w (World.save _ _)
      refine .single (.turn s.id hf ?_)
      rw [hv]
      exact .kept hr (.inl ⟨ht, by simpa using hl⟩)
  | streamConnected =>
    dsimp only
    split
    · rename_i hc
      obtain ⟨hz, hvz⟩ := addSessionDeadline w s.id (w.now + s.durationSeconds * 1000)
      rw [Prog.run_invoke_bind, show machine.call .dateNow w = (w.now, w) from rfl]
      dsimp only
      rw [Prog.run_send_bind, Prog.run_bind_some machine (run_saveSession _ _)]
      obtain ⟨hf, hv⟩ := saved (s := w.started s) hz rfl
      change ReflTransGen _ w (World.save _ (w.started s))
      refine .single (.turn s.id hf ?_)
      rw [hv, hvz]
      exact .connected hr ht hc
    · rename_i hc
      rw [Prog.run_bind_some machine (run_saveSession w s)]
      obtain ⟨hf, hv⟩ := saved hw (s := s) rfl
      change ReflTransGen _ w (World.save _ _)
      refine .single (.turn s.id hf ?_)
      rw [hv]
      exact .kept hr (.inr ⟨ht, by simpa using hc⟩)
  | failed =>
    obtain ⟨s', w', hrun, hf, hg⟩ := run_failOrRetrySession s (failureCodeOf e) w
    dsimp only
    rw [Prog.run_bind_some machine hrun]
    exact .single (.turn s.id hf (.lost (.failed hr ht) hg))
  | ended =>
    obtain ⟨b, hb⟩ := run_releaseHost w (some h) s.id
    dsimp only
    rw [Prog.run_invoke_bind]
    dsimp only
    rw [show machine.call .dateNow w = (w.now, w) from rfl, Prog.run_bind_some machine hb, Prog.run_send_bind,
      Prog.run_send_bind]
    obtain ⟨w₁, hw₁⟩ : ∃ w₁, w₁ = (w.releaseHost (some h) s.id).untimed s.id := ⟨_, rfl⟩
    change ReflTransGen (Act (.event h e)) w (Prog.run machine _ ((w.releaseHost (some h) s.id).untimed s.id)).2
    rw [← hw₁]
    have hf : Frame s.id w w₁ := by rw [hw₁]; exact (frame_releaseHost w (some h)).trans (frame_untimed _)
    have hv : w₁.view s.id = (w.view s.id).drop (some h) := by rw [hw₁, view_untimed, view_releaseHost]; rfl
    rw [Prog.run_bind_some machine (run_releasePlayer w₁ _), Prog.run_bind_some machine (run_saveSession _ _)]
    obtain ⟨hf', hv'⟩ := saved (s := { s with state := .ended, endedAt := some w.now })
      (hf.trans (frame_releasePlayer w₁ { s with state := .ended, endedAt := some w.now })) rfl
    change ReflTransGen _ w (World.save _ _)
    refine .single (.turn s.id hf' ?_)
    rw [hv', view_releasePlayer, hv]
    exact .ended hr ht

theorem acts_handleHostEvent (h : HostId) (e : HostEvent) (w : World) :
    ReflTransGen (Act (.event h e)) w ((handleHostEvent h e).run machine w).2 := by
  unfold handleHostEvent
  split
  · rename_i ht; exact acts_handleHello h ht w
  · rename_i hne
    cases he : e.sessionId with
    | none => exact .refl
    | some S =>
      dsimp only
      rw [Prog.run_bind_some machine (run_loadSession w S)]
      cases hs : w.session S with
      | none => exact .refl
      | some s =>
        obtain rfl : s.id = S := session_id w hs
        dsimp only
        split
        · exact .refl
        · rename_i hc
          push Not at hc
          exact acts_handleSessionEvent ⟨hs, he, hc.1, by simpa using hc.2⟩ hne

/-! ## Polls -/

theorem remSessionDeadline (w : World) (S : SessionId) : Frame S w (machine.exec (.remSessionDeadline S) w).2 ∧
    (machine.exec (.remSessionDeadline S) w).2.view S = { w.view S with endsAt := none } :=
  ⟨frame_deadlines w (fun _ _ => rfl) fun _ h => ZSet.score_zrem_of_ne _ h,
    View.ext rfl rfl rfl (ZSet.score_zrem_self _ _) rfl rfl⟩

theorem run_expireSession {S : SessionId} {w : World} (hdue : ∃ t, (w.view S).endsAt = some t ∧ t ≤ w.now) :
    ∃ w', (expireSession S).run machine w = (some (), w') ∧ Frame S w w' ∧ Turn w S .expireSessions (w'.view S) := by
  obtain ⟨t, ht, hn⟩ := hdue
  unfold expireSession
  suffices h : ∃ w₁, (endExpired S).run machine w = (some (), w₁) ∧ Frame S w w₁ ∧
      Turn w S .expireSessions { w₁.view S with endsAt := none } by
    obtain ⟨w₁, hrun, hf, hturn⟩ := h
    obtain ⟨hf', hv'⟩ := remSessionDeadline w₁ S
    refine ⟨_, Prog.run_bind_some machine hrun _, hf.trans hf', ?_⟩
    rw [hv']
    exact hturn
  unfold endExpired
  rw [Prog.run_bind_some machine (run_loadSession w S)]
  cases hs : w.session S with
  | none => exact ⟨w, rfl, .refl S w, .overdue ht hn fun s' hs' => by rw [hs] at hs'; cases hs'⟩
  | some s =>
    obtain rfl : s.id = S := session_id w hs
    dsimp only
    split
    · rename_i hactive
      obtain ⟨o, ho⟩ := run_send w s.hostId (.stop s.id "duration_expired")
      rw [Prog.run_bind_some machine ho]
      obtain ⟨w₁, hw₁⟩ : ∃ w₁, w₁ = w.sendTo s.hostId (.stop s.id "duration_expired") := ⟨_, rfl⟩
      rw [← hw₁]
      have hf : Frame s.id w w₁ := by rw [hw₁]; exact frame_sendTo_stop w s.hostId _
      have hv : w₁.view s.id = (w.view s.id).stop w.deliverable s.hostId := by rw [hw₁]; exact view_sendTo_stop w s.hostId _
      rw [Prog.run_bind_some machine (run_saveSession w₁ _)]
      obtain ⟨hf', hv'⟩ := saved (s := { s with state := .ending }) hf rfl
      refine ⟨_, rfl, hf', ?_⟩
      rw [hv', hv]
      exact .expired ht hn hs hactive
    · rename_i hactive
      exact ⟨w, rfl, .refl s.id w, .overdue ht hn fun s' hs' => by rw [hs] at hs'; cases hs'; exact hactive⟩

theorem acts_expireSessions (w : World) : ReflTransGen (Act .expireSessions) w (expireSessions.run machine w).2 := by
  unfold expireSessions
  rw [Prog.run_invoke_bind, show machine.call .dateNow w = (w.now, w) from rfl]
  dsimp only
  rw [Prog.run_send_bind, show machine.exec (.dueSessionDeadlines w.now) w = (w.sessionDeadlines.due w.now, w) from rfl]
  obtain ⟨w', hrun, hacts⟩ := Prog.run_forM machine (ReflTransGen (Act .expireSessions)) (fun _ => .refl)
    (fun _ _ _ h₁ h₂ => h₁.trans h₂) (fun w S => ∃ t, (w.view S).endsAt = some t ∧ t ≤ w.now) (fun S w hdue => by
      obtain ⟨w', hrun, hf, hturn⟩ := run_expireSession hdue
      exact ⟨w', hrun, .single (.turn S hf hturn), fun S' hne hd => by rw [hf.view S' hne, hf.now]; exact hd⟩)
    (w.sessionDeadlines.due w.now) w (ZSet.nodup_due _ _) fun S hS => ZSet.mem_due.1 hS
  rw [hrun]
  exact hacts

theorem run_expirePreparation {S : SessionId} {w : World} (hdue : ∃ t, (w.view S).prepareAt = some t ∧ t ≤ w.now) :
    ∃ w', (expirePreparation S).run machine w = (some (), w') ∧ Frame S w w' ∧
      Turn w S .expirePreparations (w'.view S) := by
  obtain ⟨t, ht, hn⟩ := hdue
  obtain ⟨hf₀, hv₀⟩ := remPrepareDeadline w S
  unfold expirePreparation
  rw [Prog.run_bind_some machine (run_loadSession w S)]
  cases hs : w.session S with
  | none =>
    refine ⟨_, rfl, hf₀, ?_⟩
    rw [hv₀]
    exact .unwatched ht hn fun s' hs' => by rw [hs] at hs'; cases hs'
  | some s =>
    obtain rfl : s.id = S := session_id w hs
    dsimp only
    split
    · rename_i hl
      obtain ⟨o, ho⟩ := run_send w s.hostId (.stop s.id "prepare_timeout")
      rw [Prog.run_bind_some machine ho]
      obtain ⟨w₁, hw₁⟩ : ∃ w₁, w₁ = w.sendTo s.hostId (.stop s.id "prepare_timeout") := ⟨_, rfl⟩
      rw [← hw₁]
      have hf : Frame s.id w w₁ := by rw [hw₁]; exact frame_sendTo_stop w s.hostId _
      have hv : w₁.view s.id = (w.view s.id).stop w.deliverable s.hostId := by rw [hw₁]; exact view_sendTo_stop w s.hostId _
      obtain ⟨s', w', hrun, hf', hg⟩ := run_failOrRetrySession s "prepare_timeout" w₁
      rw [Prog.run_bind_some machine hrun]
      refine ⟨w', rfl, hf.trans hf', .lost (.timedOut ht hn hs hl) ?_⟩
      rw [hv] at hg
      exact hg.of_frame hf
    · rename_i hl
      refine ⟨_, rfl, hf₀, ?_⟩
      rw [hv₀]
      exact .unwatched ht hn fun s' hs' => by rw [hs] at hs'; cases hs'; simpa using hl

theorem acts_expirePreparations (w : World) :
    ReflTransGen (Act .expirePreparations) w (expirePreparations.run machine w).2 := by
  unfold expirePreparations
  rw [Prog.run_invoke_bind, show machine.call .dateNow w = (w.now, w) from rfl]
  dsimp only
  rw [Prog.run_send_bind, show machine.exec (.duePrepareDeadlines w.now) w = (w.prepareDeadlines.due w.now, w) from rfl]
  obtain ⟨w', hrun, hacts⟩ := Prog.run_forM machine (ReflTransGen (Act .expirePreparations)) (fun _ => .refl)
    (fun _ _ _ h₁ h₂ => h₁.trans h₂) (fun w S => ∃ t, (w.view S).prepareAt = some t ∧ t ≤ w.now) (fun S w hdue => by
      obtain ⟨w', hrun, hf, hturn⟩ := run_expirePreparation hdue
      exact ⟨w', hrun, .single (.turn S hf hturn), fun S' hne hd => by rw [hf.view S' hne, hf.now]; exact hd⟩)
    (w.prepareDeadlines.due w.now) w (ZSet.nodup_due _ _) fun S hS => ZSet.mem_due.1 hS
  rw [hrun]
  exact hacts

theorem run_failDisconnected {h : HostId} {w : World} (hlate : w.late h) :
    ∃ w', (failDisconnected h).run machine w = (some (), w') ∧ w'.disconnectDeadlines = w.disconnectDeadlines ∧
      w'.now = w.now ∧ ReflTransGen (Act .expireDisconnectedHosts) w w' := by
  unfold failDisconnected
  rw [Prog.run_invoke_bind, show machine.call .connected w = (w.connected, w) from rfl]
  dsimp only
  split
  · rename_i hc
    rw [Prog.run_send_bind, show machine.exec (.getLease h) w = (w.lease h, w) from rfl]
    dsimp only
    cases hl : w.lease h with
    | none => exact ⟨w, rfl, rfl, rfl, .refl⟩
    | some S =>
      dsimp only
      rw [Prog.run_bind_some machine (run_loadSession w S)]
      cases hs : w.session S with
      | none => exact ⟨w, rfl, rfl, rfl, .refl⟩
      | some s =>
        obtain rfl : s.id = S := session_id w hs
        dsimp only
        split
        · rename_i hlive
          obtain ⟨s', w', hrun, hf, hg⟩ := run_failOrRetrySession s "host_disconnected" w
          rw [Prog.run_bind_some machine hrun]
          exact ⟨w', rfl, hf.disconnectDeadlines, hf.now,
            .single (.turn s.id hf (.lost (.disconnected hlate (by simpa using hc) hl hs (by simpa using hlive)) hg))⟩
        · exact ⟨w, rfl, rfl, rfl, .refl⟩
  · exact ⟨w, rfl, rfl, rfl, .refl⟩

theorem run_expireDisconnectedHost {h : HostId} {w : World} (hlate : w.late h) :
    ∃ w', (expireDisconnectedHost h).run machine w = (some (), w') ∧
      ReflTransGen (Act .expireDisconnectedHosts) w w' ∧ ∀ k, k ≠ h → w.late k → w'.late k := by
  obtain ⟨w₁, hrun, hdd, hn, hacts⟩ := run_failDisconnected hlate
  have hscore : ∀ k, k ≠ h → (w₁.disconnectDeadlines.zrem h).score k = w.disconnectDeadlines.score k := fun k hk => by
    rw [ZSet.score_zrem_of_ne _ hk, hdd]
  refine ⟨{ w₁ with disconnectDeadlines := w₁.disconnectDeadlines.zrem h },
    Prog.run_bind_some machine hrun _, hacts.tail (.still ?_), fun k hk hlk => ?_⟩
  · refine .of_clients (fun _ => rfl) rfl rfl rfl (fun k hk => ?_) rfl
    obtain ⟨n, hs, hle⟩ := hk
    by_cases he : k = h
    · subst he
      have : (w₁.disconnectDeadlines.zrem k).score k = some n := hs
      simp at this
    · exact ⟨n, by rw [← ZSet.score_zrem_of_ne _ he]; exact hs, hle⟩
  · simpa only [World.late, hscore k hk, hn] using hlk

theorem acts_expireDisconnectedHosts (w : World) :
    ReflTransGen (Act .expireDisconnectedHosts) w (expireDisconnectedHosts.run machine w).2 := by
  unfold expireDisconnectedHosts
  rw [Prog.run_invoke_bind, show machine.call .dateNow w = (w.now, w) from rfl]
  dsimp only
  rw [Prog.run_send_bind, show machine.exec (.dueDisconnectDeadlines w.now) w = (w.disconnectDeadlines.due w.now, w) from rfl]
  obtain ⟨w', hrun, hacts⟩ := Prog.run_forM machine (ReflTransGen (Act .expireDisconnectedHosts)) (fun _ => .refl)
    (fun _ _ _ h₁ h₂ => h₁.trans h₂) World.late (fun h w hlate => run_expireDisconnectedHost hlate)
    (w.disconnectDeadlines.due w.now) w (ZSet.nodup_due _ _) fun h hh => ZSet.mem_due.1 hh
  rw [hrun]
  exact hacts

/-! ## Every request -/

/-- The world the handler of a request starts in. -/
def World.arrived (w : World) (r : Request) : World := r.arrive { w with nextUuid := w.nextUuid + 1 }

/-- **A request that is served to completion is a sequence of acts**, as long as fresh ids name nothing. -/
theorem acts_serve (hf : Fresh w) (r : Request) : ReflTransGen (Act r) (w.arrived r) (w.serve r) := by
  cases r with
  | post p q =>
    unfold World.serve Request.program
    dsimp only
    rw [run_discard]
    refine acts_postSessions (Nat.lt_succ_self _) ?_ p q
    exact hf ⟨w.nextUuid⟩ (Nat.le_refl _)
  | delete S p =>
    unfold World.serve Request.program
    dsimp only
    rw [run_discard]
    exact acts_deleteSession S p _
  | event h e => exact acts_handleHostEvent h e _
  | presence p =>
    unfold World.serve Request.program
    dsimp only
    rw [run_discard]
    exact .single (.still (still_postPresence p _))
  | control h b => exact .single (.still (still_handleControlConnection h b _))
  | expireSessions => exact acts_expireSessions _
  | expirePreparations => exact acts_expirePreparations _
  | expireDisconnectedHosts => exact acts_expireDisconnectedHosts _

end acts

end Market
end CloudGaming
