import CloudGaming.Market.View
import Mathlib.Logic.Relation
/-!
# Life — what the handlers do to a session

`Turn` is the life of one session: a constructor for each thing a handler does with it.  A request that is served to
completion is a sequence of turns (`acts_serve`), each of one session, while the others stay as they are.
-/
namespace CloudGaming
namespace Market

open Async Redis Relation

/-- The record of a session that is tried on another host. -/
def Session.retried (s : Session) (code : String) : Session := { s with state := .allocating, failureCode := some code }

/-- The record of a session whose stream has connected. -/
def World.started (w : World) (s : Session) : Session :=
  { s with state := .active, startsAt := some w.now, endsAt := some (w.now + s.durationSeconds * 1000) }

/-- What becomes of a session that is given up; `s` is its record and `v` its view by then. -/
inductive GivenUp (w : World) (s : Session) (code : String) (v : View) : View → Prop
  | failed : GivenUp w s code v { v.drop s.hostId with record := some (w.stamped (w.failed s code)) }
  | moved (hs : s.state.started = false) (attempted : List HostId) (h : HostId) (c : CommandId)
      (hd : w.deliverable h = true) (hnew : h ∉ s.attemptedHostIds) (hmem : h ∈ attempted)
      (hsub : ∀ k ∈ s.attemptedHostIds, k ∈ attempted) :
      GivenUp w s code v ((v.drop s.hostId).deliver (s.retried code) attempted h c w.now)

/-- An event of host `h` about session `S`, whose record `s` is live and names the host. -/
structure Reports (w : World) (S : SessionId) (h : HostId) (e : HostEvent) (s : Session) : Prop where
  session : w.session S = some s
  event : e.sessionId = some S
  host : s.hostId = some h
  live : s.state.terminal = false

/-- Why a session with record `s` is given up, and the failure code. -/
inductive Lost (w : World) (S : SessionId) (s : Session) : Request → String → Prop
  | failed {h : HostId} {e : HostEvent} (hr : Reports w S h e s) (ht : e.type = .failed) :
      Lost w S s (.event h e) (failureCodeOf e)
  | restarted {h : HostId} {e : HostEvent} (ht : e.type = .hello) (he : e.sessionId = none) (hl : w.lease h = some S)
      (hs : w.session S = some s) (hlive : s.state.terminal = false) : Lost w S s (.event h e) "host_restarted"
  | timedOut {t : Nat} (ht : (w.view S).prepareAt = some t) (hn : t ≤ w.now) (hs : w.session S = some s)
      (hl : s.state.launching = true) : Lost w S s .expirePreparations "prepare_timeout"
  | disconnected {h : HostId} (hlate : w.late h) (hc : w.connected h = false) (hl : w.lease h = some S)
      (hs : w.session S = some s) (hlive : s.state.terminal = false) :
      Lost w S s .expireDisconnectedHosts "host_disconnected"

/-- The view of a session by the time it is given up: if its preparation timed out, its host was told to stop it. -/
def World.warned (w : World) (S : SessionId) (s : Session) : Request → View
  | .expirePreparations => (w.view S).stop w.deliverable s.hostId
  | _ => w.view S

/-- **The life of a session**: what serving a request in world `w` makes of the view of session `S`. -/
inductive Turn (w : World) (S : SessionId) : Request → View → Prop
  | created {p : PlayerId} {q : SessionRequest} (hu : S.uuid < w.nextUuid) (hv : (w.view S).Unborn)
      (attempted : List HostId) (h : HostId) (c : CommandId) (hd : w.deliverable h = true) (hmem : h ∈ attempted) :
      Turn w S (.post p q) ((w.view S).deliver (newSession S ⟨S.uuid⟩ w.now p q) attempted h c w.now)
  | unavailable {p : PlayerId} {q : SessionRequest} (hu : S.uuid < w.nextUuid) (hv : (w.view S).Unborn)
      (attempted : List HostId) (h : HostId) (hmem : h ∈ attempted) :
      Turn w S (.post p q) { w.view S with record := some (allocatedTo (newSession S ⟨S.uuid⟩ w.now p q) attempted h) }
  | deleted {s : Session} (hs : w.session S = some s) (hl : s.state.terminal = false) :
      Turn w S (.delete S (some s.playerId)) { (w.view S).stop w.deliverable s.hostId with
        record := some (w.stamped { s with state := .ending }) }
  | acknowledged {h : HostId} {e : HostEvent} {s : Session} (hr : Reports w S h e s) (ht : e.type = .launchAck) :
      Turn w S (.event h e) { w.view S with
        record := some (w.stamped (if s.state.launching then { s with state := .preparing } else s)) }
  | ready {h : HostId} {e : HostEvent} {s : Session} (hr : Reports w S h e s) (ht : e.type = .gameReady)
      (hs : s.state.launching = true) :
      Turn w S (.event h e) { w.view S with record := some (w.stamped { s with state := .ready }), prepareAt := none }
  | connected {h : HostId} {e : HostEvent} {s : Session} (hr : Reports w S h e s) (ht : e.type = .streamConnected)
      (hs : s.state.connectable = true) :
      Turn w S (.event h e) { w.view S with
        record := some (w.stamped (w.started s)), endsAt := some (w.now + s.durationSeconds * 1000) }
  | kept {h : HostId} {e : HostEvent} {s : Session} (hr : Reports w S h e s)
      (ht : e.type = .gameReady ∧ s.state.launching = false ∨ e.type = .streamConnected ∧ s.state.connectable = false) :
      Turn w S (.event h e) { w.view S with record := some (w.stamped s) }
  | ended {h : HostId} {e : HostEvent} {s : Session} (hr : Reports w S h e s) (ht : e.type = .ended) :
      Turn w S (.event h e) { (w.view S).drop (some h) with
        record := some (w.stamped { s with state := .ended, endedAt := some w.now }) }
  | lost {r : Request} {s : Session} {code : String} {v : View} (hl : Lost w S s r code)
      (hg : GivenUp w s code (w.warned S s r) v) : Turn w S r v
  | orphaned {h : HostId} {e : HostEvent} (ht : e.type = .hello) (he : e.sessionId = some S) (hl : w.lease h ≠ some S) :
      Turn w S (.event h e) ((w.view S).stop w.deliverable (some h))
  | expired {s : Session} {t : Nat} (ht : (w.view S).endsAt = some t) (hn : t ≤ w.now) (hs : w.session S = some s)
      (ha : s.state = .active) :
      Turn w S .expireSessions { (w.view S).stop w.deliverable s.hostId with
        record := some (w.stamped { s with state := .ending }), endsAt := none }
  | overdue {t : Nat} (ht : (w.view S).endsAt = some t) (hn : t ≤ w.now)
      (hs : ∀ s, w.session S = some s → s.state ≠ .active) : Turn w S .expireSessions { w.view S with endsAt := none }
  | unwatched {t : Nat} (ht : (w.view S).prepareAt = some t) (hn : t ≤ w.now)
      (hs : ∀ s, w.session S = some s → s.state.launching = false) :
      Turn w S .expirePreparations { w.view S with prepareAt := none }

/-- A handler acts, on no session or on one. -/
inductive Act (r : Request) (w w' : World) : Prop
  | still (h : Still w w')
  | turn (S : SessionId) (hf : Frame S w w') (ht : Turn w S r (w'.view S))

/-- The ids that are still to be drawn name nothing. -/
def Fresh (w : World) : Prop := ∀ S : SessionId, w.nextUuid ≤ S.uuid → (w.view S).Unborn

/-! ## Giving up -/

theorem Lost.session {w : World} {S : SessionId} {s : Session} {r : Request} {code : String} (hl : Lost w S s r code) :
    w.session S = some s := by
  cases hl with
  | failed hr => exact hr.session
  | restarted _ _ _ hs => exact hs
  | timedOut _ _ hs => exact hs
  | disconnected _ _ _ hs => exact hs

theorem launching_live {x : SessionState} (h : x.launching = true) : x.terminal = false := by
  cases x <;> first | rfl | cases h

theorem Lost.live {w : World} {S : SessionId} {s : Session} {r : Request} {code : String} (hl : Lost w S s r code) :
    s.state.terminal = false := by
  cases hl with
  | failed hr => exact hr.live
  | restarted _ _ _ _ hlive => exact hlive
  | timedOut _ _ _ hl => exact launching_live hl
  | disconnected _ _ _ _ hlive => exact hlive

/-- A stop changes the mail alone. -/
theorem stop_eq (v : View) (d : HostId → Bool) (h : Option HostId) : ∃ mail, v.stop d h = { v with mail := mail } := by
  cases h with
  | none => exact ⟨v.mail, rfl⟩
  | some h =>
    unfold View.stop
    dsimp only
    split
    · exact ⟨_, rfl⟩
    · exact ⟨v.mail, rfl⟩

theorem warned_eq (w : World) (S : SessionId) (s : Session) (r : Request) :
    ∃ mail, w.warned S s r = { w.view S with mail := mail } := by
  cases r with
  | expirePreparations => exact stop_eq _ _ _
  | _ => exact ⟨(w.view S).mail, rfl⟩

section giveUp
variable {w w' : World} {s : Session} {code : String} {v v' : View}

theorem GivenUp.of_frame {S : SessionId} (hf : Frame S w w') (hg : GivenUp w' s code v v') : GivenUp w s code v v' := by
  cases hg with
  | failed =>
    have : w'.stamped (w'.failed s code) = w.stamped (w.failed s code) := by simp only [World.stamped, World.failed, hf.now]
    rw [this]
    exact .failed
  | moved hs attempted h c hd hnew hmem hsub =>
    rw [hf.now]
    exact .moved hs attempted h c (by rwa [← hf.deliverable]) hnew hmem hsub

theorem view_save (w : World) (s : Session) : (w.save s).view s.id = { w.view s.id with record := some (w.stamped s) } :=
  view_write w (w.stamped s)

theorem frame_save (w : World) (s : Session) : Frame s.id w (w.save s) := frame_write w (w.stamped s)

/-- The record is stored last. -/
theorem saved {S : SessionId} (hf : Frame S w w') (hs : s.id = S) :
    Frame S w (w'.save s) ∧ (w'.save s).view S = { w'.view S with record := some (w.stamped s) } := by
  subst hs
  refine ⟨hf.trans (frame_save w' s), ?_⟩
  rw [view_save, show w'.stamped s = w.stamped s by simp only [World.stamped, hf.now]]

theorem view_fail (w : World) (s : Session) (code : String) :
    (w.fail s code).view s.id = { w.view s.id with record := some (w.stamped (w.failed s code)) } := by
  have hn : (w.releasePlayer (w.failed s code)).now = w.now := (frame_releasePlayer (S := s.id) w _).now
  have hs : (w.releasePlayer (w.failed s code)).stamped (w.failed s code) = w.stamped (w.failed s code) := by
    simp only [World.stamped, hn]
  have hv := view_save (w.releasePlayer (w.failed s code)) (w.failed s code)
  rw [hs, show (w.failed s code).id = s.id from rfl, view_releasePlayer] at hv
  exact hv

theorem frame_fail (w : World) (s : Session) (code : String) : Frame s.id w (w.fail s code) :=
  (frame_releasePlayer w _).trans (frame_save _ (w.failed s code))

/-- A record is stored under the host it names. -/
theorem host_id {h : HostId} {r : HostRecord} (hr : w.host h = some r) : r.hostId = h := by
  obtain ⟨r', -, rfl⟩ := Option.map_eq_some_iff.1 hr
  exact r'.2

theorem run_allocateSession (s : Session) (w : World) :
    ∃ o w', (allocateSession s).run machine w = (some o, w') ∧ Allocates s w o w' := by
  unfold allocateSession
  rw [Prog.run_send_bind]
  dsimp only
  split
  · exact ⟨none, w, rfl, .refused (.refl w)⟩
  · rw [Prog.run_send_bind, Prog.run_invoke_bind]
    refine run_claimFirst _ s.attemptedHostIds w (fun x hx => ?_) fun h hh => hh
    obtain ⟨hx, -⟩ := List.mem_filter.1 ((List.mem_insertionSort _).1 hx)
    obtain ⟨o, ho, hox⟩ := List.mem_filterMap.1 hx
    obtain ⟨h, hh, hho⟩ := List.mem_map.1 (show o ∈ List.map w.host _ from ho)
    rw [host_id (hho.trans hox)]
    simpa using (List.mem_filter.1 hh).2

theorem GivenUp.fail {o : Option Session} (hf : Frame s.id w w') (code : String)
    (hv : w'.view s.id = { v.drop s.hostId with record := o }) : GivenUp w s code v ((w'.fail s code).view s.id) := by
  refine GivenUp.of_frame hf ?_
  rw [view_fail, hv]
  exact .failed

theorem frame_allocates {o : Option Session} (ha : Allocates s w o w') : Frame s.id w w' := by
  cases ha with
  | refused ht => exact frame_tries ht
  | delivered ht hd =>
    obtain ⟨attempted, host, r, hr, hdel, -, -, -, -, rfl⟩ := hd.deliver
    exact (frame_tries ht).trans (frame_deliver _ hr hdel attempted)

/-- A session that is allocated was delivered to a deliverable host it was not tried on before. -/
theorem view_allocates {a : Session} (ha : Allocates s w (some a) w') : ∃ attempted h c, w.deliverable h = true ∧
    h ∉ s.attemptedHostIds ∧ h ∈ attempted ∧ (∀ k ∈ s.attemptedHostIds, k ∈ attempted) ∧
    w'.view s.id = (w.view s.id).deliver s attempted h c w.now := by
  cases ha with
  | @delivered w₁ _ _ ht hd =>
    obtain ⟨attempted, host, r, hr, hdel, hnew, hmem, hsub, -, rfl⟩ := hd.deliver
    have hf : Frame s.id w w₁ := frame_tries ht
    refine ⟨attempted, host.hostId, ⟨w₁.nextUuid⟩, by rwa [← hf.deliverable], hnew, hmem, hsub, ?_⟩
    rw [view_deliver w₁ hdel attempted, hf.now]
    rcases view_tries ht with rfl | ⟨attempted', h, -, hv⟩
    · rfl
    · rw [hv]; rfl

theorem run_failOrRetrySession (s : Session) (code : String) (w : World) :
    ∃ s' w', (failOrRetrySession s code).run machine w = (some s', w') ∧ Frame s.id w w' ∧
      GivenUp w s code (w.view s.id) (w'.view s.id) := by
  obtain ⟨w₁, hw₁⟩ : ∃ w₁, w₁ = (w.releaseHost s.hostId s.id).untimed s.id := ⟨_, rfl⟩
  have hf : Frame s.id w w₁ := by rw [hw₁]; exact (frame_releaseHost w s.hostId).trans (frame_untimed _)
  have hv : w₁.view s.id = (w.view s.id).drop s.hostId := by rw [hw₁, view_untimed, view_releaseHost]; rfl
  unfold failOrRetrySession
  dsimp only
  obtain ⟨b, hb⟩ := run_releaseHost w s.hostId s.id
  rw [Prog.run_bind_some machine hb, Prog.run_send_bind, Prog.run_send_bind]
  change ∃ s' w', Prog.run machine _ ((w.releaseHost s.hostId s.id).untimed s.id) = _ ∧ _
  rw [← hw₁]
  split
  · obtain ⟨s', hs'⟩ := run_failSession w₁ s code
    exact ⟨s', _, hs', hf.trans (frame_fail _ s code), .fail hf code hv⟩
  · rename_i hst
    obtain ⟨o, w₂, ho, ha⟩ := run_allocateSession (s.retried code) w₁
    have hf₂ : Frame s.id w w₂ := hf.trans (frame_allocates (s := s.retried code) ha)
    rw [Prog.run_bind_some machine (show (allocateSession { s with state := .allocating, failureCode := some code }).run
      machine w₁ = _ from ho)]
    cases o with
    | none =>
      obtain ⟨s', hs'⟩ := run_failSession w₂ (s.retried code) code
      refine ⟨s', _, hs', hf₂.trans (frame_fail _ s code), ?_⟩
      cases ha with
      | refused ht =>
        have hv₂ : w₂ = w₁ ∨ ∃ attempted h, h ∈ attempted ∧ w₂.view s.id =
          { w₁.view s.id with record := some (allocatedTo (s.retried code) attempted h) } := view_tries (s := s.retried code) ht
        rcases hv₂ with rfl | ⟨attempted, h, -, hv₂⟩
        · exact .fail hf₂ code hv
        · exact .fail hf₂ code (hv₂.trans (by rw [hv]))
    | some a =>
      obtain ⟨attempted, h, c, hd, hnew, hmem, hsub, hv₂⟩ := view_allocates ha
      refine ⟨a, w₂, rfl, hf₂, ?_⟩
      rw [show w₂.view s.id = (w₁.view s.id).deliver (s.retried code) attempted h c w₁.now from hv₂, hv, hf.now]
      exact .moved (by simpa using hst) attempted h c (by rwa [← hf.deliverable]) hnew hmem hsub

end giveUp

end Market
end CloudGaming
