import CloudGaming.Market.Cleaning
import CloudGaming.Market.Mindful
/-!
# Reassigned — the reassignment of a session ends

A session that is lost before its stream connects is given up: it is allocated to a host it was never allocated to, or it
fails (`given_serve`).  The hosts it is allocated to differ, so there are no more of them than hosts that ever announced
themselves (`reassigned_after`).
-/
namespace CloudGaming
namespace Market

open Async Redis

/-! ## A session is given up -/

/-- What the handling of other sessions leaves of a session. -/
structure Aside (S : SessionId) (w w' : World) : Prop where
  view : w'.view S = w.view S
  now : w'.now = w.now
  connected : w'.connected = w.connected
  deliverable : w'.deliverable = w.deliverable

/-- The session was given up since `w`. -/
structure Given (S : SessionId) (w : World) (s : Session) (code : String) (v : View) (w' : World) : Prop where
  given : GivenUp w s code v (w'.view S)
  connected : w'.connected = w.connected

section given
variable {w w' w'' : World} {S : SessionId} {s : Session} {code : String} {v : View} {r : Request}

theorem Aside.refl (S : SessionId) (w : World) : Aside S w w := ⟨rfl, rfl, rfl, rfl⟩

theorem Aside.trans (h : Aside S w w') (h' : Aside S w' w'') : Aside S w w'' :=
  ⟨h'.view.trans h.view, h'.now.trans h.now, h'.connected.trans h.connected, h'.deliverable.trans h.deliverable⟩

theorem Frame.aside {S' : SessionId} (hf : Frame S' w w') (hne : S ≠ S') : Aside S w w' :=
  ⟨hf.view S hne, hf.now, hf.connected, hf.deliverable⟩

theorem Given.aside (h : Given S w s code v w') (h' : Aside S w' w'') : Given S w s code v w'' :=
  ⟨by rw [h'.view]; exact h.given, h'.connected.trans h.connected⟩

/-- It was given up in the world in which it was found. -/
theorem Aside.given (h : Aside S w w') (hg : GivenUp w' s code v (w''.view S)) (hf : Frame S w' w'') :
    Given S w s code v w'' := by
  refine ⟨?_, hf.connected.trans h.connected⟩
  generalize w''.view S = v' at hg
  cases hg with
  | failed =>
    have hst : w'.stamped (w'.failed s code) = w.stamped (w.failed s code) := by
      simp only [World.stamped, World.failed, h.now]
    rw [hst]
    exact .failed
  | moved hs attempted k c hd hnew hmem hsub =>
    rw [h.now]
    exact .moved hs attempted k c (by rwa [← h.deliverable]) hnew hmem hsub

theorem given_failed {h : HostId} {e : HostEvent} (hr : Reports w S h e s) (ht : e.type = .failed) :
    GivenUp w s (failureCodeOf e) (w.view S) (((handleHostEvent h e).run machine w).2.view S) := by
  obtain rfl : s.id = S := session_id w hr.session
  unfold handleHostEvent
  rw [if_neg (by rw [ht]; nofun), hr.event]
  dsimp only
  rw [Prog.run_bind_some machine (run_loadSession w s.id), hr.session]
  dsimp only
  rw [if_neg (by simp [hr.host, hr.live])]
  unfold handleSessionEvent
  rw [ht]
  dsimp only
  obtain ⟨s', w', hrun, -, hg⟩ := run_failOrRetrySession s (failureCodeOf e) w
  rw [Prog.run_bind_some machine hrun]
  exact hg

theorem given_restarted {h : HostId} {e : HostEvent} (ht : e.type = .hello) (he : e.sessionId = none)
    (hl : w.lease h = some S) (hs : w.session S = some s) (hlive : s.state.terminal = false) :
    GivenUp w s "host_restarted" (w.view S) (((handleHostEvent h e).run machine w).2.view S) := by
  obtain rfl : s.id = S := session_id w hs
  unfold handleHostEvent
  rw [if_pos ht]
  unfold handleHello
  rw [Prog.run_send_bind, show machine.exec (.getLease h) w = (w.lease h, w) from rfl]
  dsimp only
  rw [he, hl]
  dsimp only
  rw [Prog.run_bind_some machine (run_loadSession w s.id), hs]
  dsimp only
  rw [if_pos (by simp [hlive])]
  obtain ⟨s', w', hrun, -, hg⟩ := run_failOrRetrySession s "host_restarted" w
  rw [Prog.run_bind_some machine hrun]
  exact hg

/-- **The poll of the prepare deadlines gives up the session that is due**, whatever sessions it gives up before. -/
theorem given_timedOut {t : Nat} (ht : (w.view S).prepareAt = some t) (hn : t ≤ w.now) (hs : w.session S = some s)
    (hl : s.state.launching = true) :
    GivenUp w s "prepare_timeout" (w.warned S s .expirePreparations) ((expirePreparations.run machine w).2.view S) := by
  unfold expirePreparations
  rw [Prog.run_invoke_bind, show machine.call .dateNow w = (w.now, w) from rfl]
  dsimp only
  rw [Prog.run_send_bind, show machine.exec (.duePrepareDeadlines w.now) w = (w.prepareDeadlines.due w.now, w) from rfl]
  have step : ∀ id u, (∃ t, (u.view id).prepareAt = some t ∧ t ≤ u.now) → ∃ u', (expirePreparation id).run machine u =
      (some (), u') ∧ Frame id u u' ∧ Turn u id .expirePreparations (u'.view id) ∧
      ∀ k, k ≠ id → (∃ t, (u.view k).prepareAt = some t ∧ t ≤ u.now) → ∃ t, (u'.view k).prepareAt = some t ∧ t ≤ u'.now := by
    intro id u hdue
    obtain ⟨u', hrun, hf, hturn⟩ := run_expirePreparation hdue
    exact ⟨u', hrun, hf, hturn, fun k hk hd => by rw [hf.view k hk, hf.now]; exact hd⟩
  obtain ⟨w', hrun, hg⟩ := Prog.run_forM_at machine (fun u id => ∃ t, (u.view id).prepareAt = some t ∧ t ≤ u.now)
    (T := Aside S w) (Q := Given S w s "prepare_timeout" (w.warned S s .expirePreparations)) (a := S)
    (fun id u hne hdue hu => by
      obtain ⟨u', hrun, hf, -, hrest⟩ := step id u hdue
      exact ⟨u', hrun, hu.trans (hf.aside (Ne.symm hne)), hrest⟩)
    (fun u hdue hu => by
      obtain ⟨u', hrun, hf, hturn, hrest⟩ := step S u hdue
      refine ⟨u', hrun, ?_, hrest⟩
      have hs' : u.session S = some s := (congrArg View.record hu.view).trans hs
      have hwarned : u.warned S s .expirePreparations = w.warned S s .expirePreparations := by
        simp only [World.warned, hu.view, hu.deliverable]
      generalize hv : u'.view S = v at hturn
      cases hturn with
      | lost hlost hgiven =>
        cases hlost with
        | timedOut _ _ hs'' =>
          obtain rfl := Option.some.inj (hs'.symm.trans hs'')
          rw [hwarned, ← hv] at hgiven
          exact hu.given hgiven hf
      | unwatched _ _ hno =>
        have := hno s hs'
        rw [hl] at this
        cases this)
    (fun id u hne hdue hu => by
      obtain ⟨u', hrun, hf, -, hrest⟩ := step id u hdue
      exact ⟨u', hrun, hu.aside (hf.aside (Ne.symm hne)), hrest⟩)
    (w.prepareDeadlines.due w.now) w (ZSet.nodup_due _ _) (ZSet.mem_due.2 ⟨t, ht, hn⟩) (fun id hid => ZSet.mem_due.1 hid)
    (.refl S w)
  rw [hrun]
  exact hg.given

/-- A session that was given up is leased on connected hosts alone. -/
theorem GivenUp.lease_connected (hv : v.Leased) (hs : v.record = some s) {v' : View} (hg : GivenUp w s code v v')
    {k : HostId} (hk : v'.lease k ≠ none) : w.connected k = true := by
  cases hg with
  | failed => exact absurd (hv.drop hs k) hk
  | moved _ attempted h c hd =>
    by_cases he : k = h
    · rw [he]
      exact connected_of_deliverable hd
    · refine absurd ?_ hk
      simpa [View.deliver, he] using hv.drop hs k

/-- The deadline of the host is removed, once the session it leases was dealt with. -/
theorem run_expireDisconnectedHost_of {h : HostId} {w₁ : World} (hrun : (failDisconnected h).run machine w = (some (), w₁))
    (hdd : w₁.disconnectDeadlines = w.disconnectDeadlines) (hn : w₁.now = w.now) (S : SessionId) :
    ∃ w', (expireDisconnectedHost h).run machine w = (some (), w') ∧ Aside S w₁ w' ∧
      ∀ k, k ≠ h → w.late k → w'.late k := by
  refine ⟨{ w₁ with disconnectDeadlines := w₁.disconnectDeadlines.zrem h }, Prog.run_bind_some machine hrun _,
    ⟨rfl, rfl, rfl, rfl⟩, ?_⟩
  rintro k hk ⟨n, hscore, hle⟩
  refine ⟨n, ?_, ?_⟩
  · exact (ZSet.score_zrem_of_ne _ hk).trans (by rw [hdd]; exact hscore)
  · exact hle.trans (Nat.le_of_eq hn.symm)

/-- A host that leases another session is dealt with, or one that is connected again. -/
theorem run_expireDisconnectedHost_aside {h : HostId} (hne : w.connected h = false → w.lease h ≠ some S) :
    ∃ w', (expireDisconnectedHost h).run machine w = (some (), w') ∧ Aside S w w' ∧
      ∀ k, k ≠ h → w.late k → w'.late k := by
  suffices hfail : ∃ w₁, (failDisconnected h).run machine w = (some (), w₁) ∧
      w₁.disconnectDeadlines = w.disconnectDeadlines ∧ w₁.now = w.now ∧ Aside S w w₁ by
    obtain ⟨w₁, hrun, hdd, hn, ha⟩ := hfail
    obtain ⟨w', hrun', ha', hlate⟩ := run_expireDisconnectedHost_of hrun hdd hn S
    exact ⟨w', hrun', ha.trans ha', hlate⟩
  unfold failDisconnected
  rw [Prog.run_invoke_bind, show machine.call .connected w = (w.connected, w) from rfl]
  dsimp only
  split
  · rename_i hc
    rw [Prog.run_send_bind, show machine.exec (.getLease h) w = (w.lease h, w) from rfl]
    dsimp only
    cases hl : w.lease h with
    | none => exact ⟨w, rfl, rfl, rfl, .refl S w⟩
    | some S' =>
      dsimp only
      rw [Prog.run_bind_some machine (run_loadSession w S')]
      cases hs : w.session S' with
      | none => exact ⟨w, rfl, rfl, rfl, .refl S w⟩
      | some s =>
        obtain rfl : s.id = S' := session_id w hs
        dsimp only
        split
        · obtain ⟨s', w', hrun, hf, -⟩ := run_failOrRetrySession s "host_disconnected" w
          rw [Prog.run_bind_some machine hrun]
          refine ⟨w', rfl, hf.disconnectDeadlines, hf.now, hf.aside ?_⟩
          rintro rfl
          exact hne (by simpa using hc) hl
        · exact ⟨w, rfl, rfl, rfl, .refl S w⟩
  · exact ⟨w, rfl, rfl, rfl, .refl S w⟩

/-- **The poll of the disconnected hosts gives up the session that a lost host leases.** -/
theorem given_disconnected {h : HostId} (hv : (w.view S).Leased) (hlate : w.late h) (hc : w.connected h = false)
    (hl : w.lease h = some S) (hs : w.session S = some s) (hlive : s.state.terminal = false) :
    GivenUp w s "host_disconnected" (w.view S) ((expireDisconnectedHosts.run machine w).2.view S) := by
  obtain rfl : s.id = S := session_id w hs
  have hhost : ∀ k, (w.view s.id).lease k ≠ none → s.hostId = some k := fun k hk => (hv k hk s hs).1
  have hown : s.hostId = some h := hhost h (Option.ne_none_iff_isSome.2 (view_lease_eq.2 hl))
  unfold expireDisconnectedHosts
  rw [Prog.run_invoke_bind, show machine.call .dateNow w = (w.now, w) from rfl]
  dsimp only
  rw [Prog.run_send_bind, show machine.exec (.dueDisconnectDeadlines w.now) w = (w.disconnectDeadlines.due w.now, w) from rfl]
  obtain ⟨w', hrun, hg⟩ := Prog.run_forM_at machine World.late
    (T := Aside s.id w) (Q := Given s.id w s "host_disconnected" (w.view s.id)) (a := h)
    (fun k u hne _ hu => by
      -- the session is leased on the lost host alone
      obtain ⟨u', hrun, ha, hrest⟩ := run_expireDisconnectedHost_aside (S := s.id) (w := u) (h := k) fun _ hl => by
        have hk := hhost k (by rw [← hu.view]; exact Option.ne_none_iff_isSome.2 (view_lease_eq.2 hl))
        rw [hown] at hk
        exact hne (Option.some.inj hk).symm
      exact ⟨u', hrun, hu.trans ha, hrest⟩)
    (fun u _ hu => by
      have hs' : u.session s.id = some s := (congrArg View.record hu.view).trans hs
      have hl' : u.lease h = some s.id := view_lease_eq.1 (by rw [hu.view]; exact view_lease_eq.2 hl)
      obtain ⟨s', u₁, hrun, hf, hg⟩ := run_failOrRetrySession s "host_disconnected" u
      have hfail : (failDisconnected h).run machine u = (some (), u₁) := by
        unfold failDisconnected
        rw [Prog.run_invoke_bind, show machine.call .connected u = (u.connected, u) from rfl]
        dsimp only
        rw [if_pos (by simp [hu.connected, hc]), Prog.run_send_bind,
          show machine.exec (.getLease h) u = (u.lease h, u) from rfl]
        dsimp only
        rw [hl']
        dsimp only
        rw [Prog.run_bind_some machine (run_loadSession u s.id), hs']
        dsimp only
        rw [if_pos (by simp [hlive]), Prog.run_bind_some machine hrun]
        rfl
      obtain ⟨u', hrun', ha, hrest⟩ := run_expireDisconnectedHost_of hfail hf.disconnectDeadlines hf.now s.id
      rw [hu.view] at hg
      exact ⟨u', hrun', (hu.given hg hf).aside ha, hrest⟩)
    (fun k u _ _ hu => by
      -- wherever it was moved to, that host is connected
      obtain ⟨u', hrun, ha, hrest⟩ := run_expireDisconnectedHost_aside (S := s.id) (w := u) (h := k) fun hck hl => by
        have hk := hu.given.lease_connected hv hs (Option.ne_none_iff_isSome.2 (view_lease_eq.2 hl))
        rw [← hu.connected, hck] at hk
        cases hk
      exact ⟨u', hrun, hu.aside ha, hrest⟩)
    (w.disconnectDeadlines.due w.now) w (ZSet.nodup_due _ _) (ZSet.mem_due.2 hlate) (fun k hk => ZSet.mem_due.1 hk)
    (.refl s.id w)
  rw [hrun]
  exact hg.given

/-- **A request on which a session is lost gives it up.** -/
theorem given_serve (hv : ((w.arrived r).view S).Leased) (hl : Lost (w.arrived r) S s r code) :
    GivenUp (w.arrived r) s code ((w.arrived r).warned S s r) ((w.serve r).view S) := by
  cases hl with
  | failed hr ht => exact given_failed hr ht
  | restarted ht he hl hs hlive => exact given_restarted ht he hl hs hlive
  | timedOut ht hn hs hl => exact given_timedOut ht hn hs hl
  | disconnected hlate hc hl hs hlive => exact given_disconnected hv hlate hc hl hs hlive

end given

/-! ## Reassignment ends -/

/-- **Reassignment of a session ends**: the hosts it was allocated to differ, so there are no more of them than hosts that
ever existed; when it is lost it fails, or it is prepared on a host it was never allocated to; and when it is lost after
it was allocated to every host, it fails. -/
structure Reassigned (w : World) (S : SessionId) : Prop where
  distinct : (allocated w.trace S).Nodup
  bounded : (allocated w.trace S).length ≤ (registered w.trace).card
  retried : ∀ r s code, Lost (w.arrived r) S s r code → ∃ s', (w.serve r).session S = some s' ∧
    (s'.state = .failed ∨ s.state.started = false ∧ s'.state = .preparing ∧
      ∃ h ∈ registered w.trace, h ∉ allocated w.trace S ∧ s'.hostId = some h)
  ends : ∀ r s code, Lost (w.arrived r) S s r code → (∀ h ∈ registered w.trace, h ∈ allocated w.trace S) →
    ∃ s', (w.serve r).session S = some s' ∧ s'.state = .failed

section reassigned
variable {w w' : World} {S : SessionId} {s : Session} {code : String} {r : Request}

theorem registered_append {ext tr : List Obs} (he : ∀ h state, .presence h state ∉ ext) :
    registered (ext ++ tr) = registered tr := by
  induction ext with
  | nil => rfl
  | cons o ext ih =>
    have hrest := ih fun h state hmem => he h state (List.mem_cons_of_mem o hmem)
    cases o with
    | presence h state => exact absurd List.mem_cons_self (he h state)
    | _ => exact hrest

/-- No host announces itself while a request is handled. -/
theorem registered_act (ha : Act r w w') : registered w'.trace = registered w.trace := by
  cases ha with
  | still h => rw [h.history]
  | turn S hf _ =>
    obtain ⟨ext, he, hext⟩ := hf.history
    rw [he]
    exact registered_append fun h state hmem => hext _ hmem

theorem registered_serve (hf : Fresh w) (r : Request) : registered (w.serve r).trace = registered (w.arrived r).trace := by
  have hacts := acts_serve hf r
  generalize w.serve r = w' at hacts
  induction hacts with
  | refl => rfl
  | tail _ ha ih => rw [registered_act ha, ih]

/-- A request on which a session is lost announces no host. -/
theorem Lost.registered_arrived (hl : Lost (w.arrived r) S s r code) :
    registered (w.arrived r).trace = registered w.trace := by
  cases hl <;> rfl

theorem session_arrived (w : World) (r : Request) (S : SessionId) : (w.arrived r).session S = w.session S := by
  cases r <;> rfl

theorem retried_of_mindful (hI : Mindful w) (hf : Fresh w) (hv : (w.view S).Leased)
    (hl : Lost (w.arrived r) S s r code) : ∃ s', (w.serve r).session S = some s' ∧
      (s'.state = .failed ∨ s.state.started = false ∧ s'.state = .preparing ∧
        ∃ h ∈ registered w.trace, h ∉ allocated w.trace S ∧ s'.hostId = some h) := by
  have hv' : ((w.arrived r).view S).Leased := by
    rw [view_arrived]
    exact hv
  have hs : w.session S = some s := (session_arrived w r S).symm.trans hl.session
  have hserved := given_serve hv' hl
  generalize hview : (w.serve r).view S = v at hserved
  have hrecord : (w.serve r).session S = v.record := congrArg View.record hview
  cases hserved with
  | failed => exact ⟨_, hrecord, .inl rfl⟩
  | moved hst attempted h c _ hnew =>
    refine ⟨_, hrecord, .inr ⟨hst, rfl, h, ?_, fun hmem => ?_, rfl⟩⟩
    · have hleased : (w.serve r).lease h = some S := by
        apply view_lease_eq.1
        rw [hview]
        simp [View.deliver]
      have hI' : Mindful (w.serve r) := mindful_serve hI r
      rw [← hl.registered_arrived, ← registered_serve hf r]
      exact hI'.claimed S h (hI'.leased h S hleased)
    · exact hnew (hI.remembered S s hs hl.live h ((allocated_sublist w.trace S).subset hmem))

theorem reassigned_of_mindful (hI : Mindful w) (hf : Fresh w) (hv : ∀ S, (w.view S).Leased) (S : SessionId) :
    Reassigned w S where
  distinct := (hI.distinct S).sublist (allocated_sublist w.trace S)
  bounded := by
    have hd : (allocated w.trace S).Nodup := (hI.distinct S).sublist (allocated_sublist w.trace S)
    rw [← List.toFinset_card_of_nodup hd]
    apply Finset.card_le_card
    intro h hh
    exact hI.claimed S h ((allocated_sublist w.trace S).subset (List.mem_toFinset.1 hh))
  retried r s code hl := retried_of_mindful hI hf (hv S) hl
  ends r s code hl hall := by
    obtain ⟨s', hs', hfailed | ⟨-, -, h, hreg, hnew, -⟩⟩ := retried_of_mindful hI hf (hv S) hl
    · exact ⟨s', hs', hfailed⟩
    · exact absurd (hall h hreg) hnew

end reassigned

/-- **With handlers one at a time the reassignment of every session ends**, in every run. -/
theorem reassigned_after (config : Config) (inputs : List Input) (S : SessionId) :
    Reassigned (World.after config inputs) S := by
  obtain ⟨hI, hf, hv⟩ := after_induction (P := fun w => Mindful w ∧ Fresh w ∧ ∀ S, (w.view S).Leased)
    ⟨mindful_init config, fresh_init config, fun S h hl => absurd rfl hl⟩
    (fun w i hf hw _ => ⟨mindful_handle hw.1 i, fresh_handle hf i, leased_handle hf hw.2.2 i⟩)
    inputs (meets_of_forall (fun _ _ => trivial) inputs (World.init config))
  exact reassigned_of_mindful hI hf hv S

/-- Two hosts come up, and a session fails on one after the other. -/
def failedTwice : List Input :=
  [.connect ⟨0⟩, .request (.presence (samplePresence ⟨0⟩ .idle)), .connect ⟨1⟩,
    .request (.presence (samplePresence ⟨1⟩ .idle)), .request (.post ⟨"ada"⟩ sampleRequest),
    .request (.event ⟨0⟩ { type := .failed, sessionId := some ⟨4⟩ }),
    .request (.event ⟨1⟩ { type := .failed, sessionId := some ⟨4⟩ })]

example : allocated (World.after ⟨60⟩ failedTwice).trace ⟨4⟩ = [⟨1⟩, ⟨0⟩] ∧
    ((World.after ⟨60⟩ failedTwice).session ⟨4⟩).map Session.state = some .failed := by
  decide +kernel

end Market
end CloudGaming
