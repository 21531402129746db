import CloudGaming.Market.Life
import CloudGaming.Market.System
/-!
# Alone — the handlers, one at a time

A handler that runs alone reads a record, stores a copy of it or tries the session again, and otherwise leaves the records
as they are.  A `Watch` says which invariant is looked after, which changes do not touch it, and what is known of a live
record that a handler has read.  Where it passes the copies and the retry, it passes every handler.
-/
namespace CloudGaming
namespace Market

open Async

/-- One handler at a time: nothing else acts between its commands. -/
def alone : System sig World Unit Ambient where
  machine := machine
  spawn _ _ := False
  ambient e w := w.ambient e
  may _ := True
  fresh := ()
  note _ _ l := l

/-- Whether a command claims no host, stores no record and announces no host. -/
def Cmd.claimless : Cmd → Bool
  | setSession _ | claim .. | presence .. => false
  | _ => true

/-- The copies of a live record that the handlers store. -/
inductive Revision (s : Session) : Session → Prop
  | same : Revision s s
  | waiting (y : SessionState) (hl : s.state.launching = true) (hy : y = .preparing ∨ y = .ready) :
    Revision s { s with state := y }
  | active (startsAt : Nat) (hc : s.state.connectable = true) : Revision s { s with
      state := .active, startsAt := some startsAt, endsAt := some (startsAt + s.durationSeconds * 1000) }
  | ended (endedAt : Nat) : Revision s { s with state := .ended, endedAt := some endedAt }
  | ending : Revision s { s with state := .ending }

/-- An invariant of the handlers that run alone, with the changes that leave it and what it says of a live record that a
handler has read. -/
structure Watch where
  Inv : World → Prop
  Quiet : World → World → Prop
  Live : Session → World → Prop
  inv_quiet : ∀ {w w'}, Quiet w w' → Inv w → Inv w'
  quiet_exec : ∀ (w) {c : Cmd}, c.claimless = true → Quiet w (exec c w).2
  quiet_call : ∀ w o, Quiet w (call o w).2
  live_quiet : ∀ s w w', Quiet w w' → Live s w → Live s w'
  live_session : ∀ {s w}, Inv w → w.session s.id = some s → s.state.terminal = false → Live s w

namespace Watch

/-- The program, alone, keeps the invariant and returns with `P`, whatever commands are rejected. -/
abbrev Keeps (K : Watch) {α : Type} (p : Js α) (P : α → World → Prop) (w : World) : Prop :=
  Safe alone anyCommand K.Inv (fun u w w' => u = 0 → w' = w) 0 p (Returns fun a _ => P a) () w

/-- What quiet changes leave true. -/
def Stable (K : Watch) (P : World → Prop) : Prop := ∀ w w', K.Quiet w w' → P w → P w'

/-- The copies of a live record may be stored, and a live session may be given up or tried again. -/
structure Passes (K : Watch) : Prop where
  copy : ∀ {s s' w}, K.Live s w → Revision s s' → K.Keeps (saveSession s') (fun _ _ => True) w
  retry : ∀ {s w} (code : String), K.Live s w → K.Keeps (failOrRetrySession s code) (fun _ _ => True) w

section commands
variable (K : Watch) {w : World} {s : Session}

theorem stable_true : K.Stable fun _ => True := fun _ _ _ _ => trivial

theorem stable_live (s : Session) : K.Stable (K.Live s) := K.live_quiet s

theorem quiet {c : Cmd} (hc : c.claimless = true) {P : World → Prop} (hP : K.Stable P) (h : P w) :
    K.Keeps (await c) (fun _ => P) w := by
  refine safe_send fun w' hr hI => ⟨trivial, fun _ => ?_⟩
  obtain rfl := hr rfl
  have hq : K.Quiet w' (exec c w').2 := K.quiet_exec w' hc
  exact ⟨K.inv_quiet hq hI, fun u hu h0 => absurd h0 hu, hP _ _ hq h, trivial⟩

theorem invoked (o : Call) {P : World → Prop} (hP : K.Stable P) (h : P w) : K.Keeps (invoke o) (fun _ => P) w := by
  refine safe_invoke fun w' hr hI => ?_
  obtain rfl := hr rfl
  have hq : K.Quiet w' (call o w').2 := K.quiet_call w' o
  exact ⟨K.inv_quiet hq hI, fun u hu h0 => absurd h0 hu, hP _ _ hq h⟩

theorem loaded (id : SessionId) :
    K.Keeps (loadSession id) (fun r w' => ∀ s, r = some s → s.state.terminal = false → K.Live s w') w := by
  refine safe_send fun w' hr hI => ⟨trivial, fun _ => ⟨hI, fun u hu h0 => absurd h0 hu, fun s hs hl => ?_, trivial⟩⟩
  obtain rfl := session_id w' hs
  exact K.live_session hI hs hl

theorem released {P : World → Prop} (hP : K.Stable P) (h : P w) : K.Keeps (releasePlayer s) (fun _ => P) w := by
  unfold releasePlayer
  refine (K.quiet rfl hP h).seq fun holder _ w₁ h₁ => ?_
  split
  · exact K.quiet rfl hP h₁
  · exact h₁

theorem discarded {α : Type} {p : Js α} (h : K.Keeps p (fun _ _ => True) w) : K.Keeps p.discard (fun _ _ => True) w :=
  h.seq fun _ _ _ _ => trivial

/-- A new session, where the watch passes its allocation. -/
theorem createSession_keeps {P : World → Prop} (hP : K.Stable P) (h : P w)
    (hallocate : ∀ w, P w → K.Keeps (allocateSession s) (fun _ _ => True) w) :
    K.Keeps (createSession s) (fun _ _ => True) w := by
  unfold createSession
  refine (K.quiet rfl hP h).seq fun locked _ w₁ h₁ => ?_
  split
  · exact (K.quiet rfl K.stable_true trivial).seq fun _ _ _ _ => trivial
  · refine (hallocate w₁ h₁).seq fun r _ w₂ _ => ?_
    cases r with
    | some a => trivial
    | none => exact (K.released K.stable_true trivial).seq fun _ _ _ _ => trivial

theorem postSessions_keeps {n : Nat} {P : World → Prop} (hP : K.Stable P) (h : P w) (playerId : PlayerId)
    (request : SessionRequest) (hallocate : ∀ createdAt w, P w →
      K.Keeps (allocateSession (newSession ⟨n⟩ ⟨n⟩ createdAt playerId request)) (fun _ _ => True) w) :
    K.Keeps (postSessions ⟨n⟩ ⟨n⟩ playerId request) (fun _ _ => True) w := by
  unfold postSessions
  refine (K.invoked .dateNow hP h).seq fun createdAt _ w₁ h₁ => ?_
  dsimp only
  refine (K.createSession_keeps hP h₁ (hallocate createdAt)).tryCatch (fun _ _ _ h => h) fun _ w₂ _ => ?_
  refine Safe.seq (P := fun _ _ _ => True) ?_ fun _ _ _ _ => trivial
  exact (K.released K.stable_true trivial).tryCatch (fun _ _ _ h => h) fun _ _ _ => trivial

/-- A presence, where the watch passes its script. -/
theorem postPresence_keeps {P : World → Prop} (hP : K.Stable P) (h : P w) (presence : Presence)
    (hscript : ∀ now w, P w → K.Keeps (await (.presence presence now)) (fun _ _ => True) w) :
    K.Keeps (postPresence presence) (fun _ _ => True) w := by
  have hbody : K.Keeps (do
      await (.addGames presence.games)
      let now ← invoke .dateNow
      let _ ← await (.presence presence now)
      return { status := 200 } : Js Response) (fun _ _ => True) w := by
    refine (K.quiet rfl hP h).seq fun _ _ w₁ h₁ => ?_
    refine (K.invoked .dateNow hP h₁).seq fun now _ w₂ h₂ => ?_
    exact (hscript now w₂ h₂).seq fun _ _ _ _ => trivial
  exact hbody.tryCatch (fun _ _ _ h => h) fun _ _ _ => trivial

end commands

/-! ## The handlers -/

namespace Passes
variable {K : Watch} (hK : K.Passes) {w : World} {s : Session}
include hK

theorem handleHello (hostId : HostId) (event : HostEvent) :
    K.Keeps (Market.handleHello hostId event) (fun _ _ => True) w := by
  unfold Market.handleHello
  refine (K.quiet rfl K.stable_true trivial).seq fun leased _ w₁ _ => ?_
  split
  · split
    · exact (K.invoked _ K.stable_true trivial).seq fun _ _ _ _ => trivial
    · trivial
  · refine (K.loaded _).seq fun r _ w₂ h => ?_
    cases r with
    | none => trivial
    | some s =>
      dsimp only
      split
      · rename_i hl
        exact (hK.retry _ (h s rfl (by simpa using hl))).seq fun _ _ _ _ => trivial
      · trivial
  · trivial

/-- Whatever the handler stores is a copy of the live record it read. -/
theorem handleSessionEvent (hostId : HostId) (event : HostEvent) (h : K.Live s w) :
    K.Keeps (Market.handleSessionEvent hostId event s) (fun _ _ => True) w := by
  have copy : ∀ {w : World} {s' : Session}, K.Live s w → Revision s s' →
      K.Keeps (saveSession s' >>= fun _ => pure ()) (fun _ _ => True) w :=
    fun h hc => (hK.copy h hc).seq fun _ _ _ _ => trivial
  have hlive := K.stable_live s
  unfold Market.handleSessionEvent
  cases event.type with
  | hello => trivial
  | launchAck =>
    dsimp only
    split
    · rename_i hl
      exact copy h (.waiting .preparing hl (.inl rfl))
    · exact copy h .same
  | gameReady =>
    dsimp only
    split
    · rename_i hl
      exact (K.quiet rfl hlive h).seq fun _ _ w₁ h₁ => copy h₁ (.waiting .ready hl (.inr rfl))
    · exact copy h .same
  | streamConnected =>
    dsimp only
    split
    · rename_i hc
      refine (K.invoked .dateNow hlive h).seq fun startsAt _ w₁ h₁ => ?_
      refine (K.quiet rfl hlive h₁).seq fun _ _ w₂ h₂ => ?_
      exact copy h₂ (.active startsAt hc)
    · exact copy h .same
  | failed => exact (hK.retry _ h).seq fun _ _ _ _ => trivial
  | ended =>
    refine (K.invoked .dateNow hlive h).seq fun endedAt _ w₁ h₁ => ?_
    dsimp only
    refine (K.quiet rfl hlive h₁).seq fun _ _ w₂ h₂ => ?_
    refine (K.quiet rfl hlive h₂).seq fun _ _ w₃ h₃ => ?_
    refine (K.quiet rfl hlive h₃).seq fun _ _ w₄ h₄ => ?_
    refine (K.released hlive h₄).seq fun _ _ w₅ h₅ => ?_
    exact copy h₅ (.ended endedAt)

theorem handleHostEvent (hostId : HostId) (event : HostEvent) :
    K.Keeps (Market.handleHostEvent hostId event) (fun _ _ => True) w := by
  unfold Market.handleHostEvent
  split
  · exact hK.handleHello hostId event
  · split
    · trivial
    · refine (K.loaded _).seq fun r _ w₁ h => ?_
      cases r with
      | none => trivial
      | some s =>
        dsimp only
        split
        · trivial
        · rename_i hc
          exact hK.handleSessionEvent hostId event (h s rfl (by simpa using (not_or.1 hc).2))

theorem deleteSession (sessionId : SessionId) (playerId : Option PlayerId) :
    K.Keeps (Market.deleteSession sessionId playerId) (fun _ _ => True) w := by
  unfold Market.deleteSession
  refine (K.loaded sessionId).seq fun r _ w₁ h => ?_
  cases r with
  | none => trivial
  | some s =>
    dsimp only
    split
    · trivial
    · split
      · trivial
      · rename_i hl
        refine (K.invoked _ (K.stable_live s) (h s rfl (by simpa using hl))).seq fun _ _ w₂ h₂ => ?_
        refine (K.released (K.stable_live s) h₂).seq fun _ _ w₃ h₃ => ?_
        exact (hK.copy h₃ .ending).seq fun _ _ _ _ => trivial

theorem expireSession (id : SessionId) : K.Keeps (Market.expireSession id) (fun _ _ => True) w := by
  have hend : K.Keeps (endExpired id) (fun _ _ => True) w := by
    unfold endExpired
    refine (K.loaded id).seq fun r _ w₁ h => ?_
    cases r with
    | none => trivial
    | some s =>
      dsimp only
      split
      · rename_i hs
        refine (K.invoked _ (K.stable_live s) (h s rfl (by rw [hs]; rfl))).seq fun _ _ w₂ h₂ => ?_
        exact (hK.copy h₂ .ending).seq fun _ _ _ _ => trivial
      · trivial
  exact hend.seq fun _ _ _ _ => K.quiet rfl K.stable_true trivial

theorem expirePreparation (id : SessionId) : K.Keeps (Market.expirePreparation id) (fun _ _ => True) w := by
  unfold Market.expirePreparation
  refine (K.loaded id).seq fun r _ w₁ h => ?_
  cases r with
  | none => exact K.quiet rfl K.stable_true trivial
  | some s =>
    dsimp only
    split
    · rename_i hl
      refine (K.invoked _ (K.stable_live s) (h s rfl (launching_live hl))).seq fun _ _ w₂ h₂ => ?_
      exact (hK.retry _ h₂).seq fun _ _ _ _ => trivial
    · exact K.quiet rfl K.stable_true trivial

theorem expireDisconnectedHost (hostId : HostId) :
    K.Keeps (Market.expireDisconnectedHost hostId) (fun _ _ => True) w := by
  have hfail : K.Keeps (failDisconnected hostId) (fun _ _ => True) w := by
    unfold failDisconnected
    refine (K.invoked .connected K.stable_true trivial).seq fun connected _ w₁ _ => ?_
    split
    · refine (K.quiet rfl K.stable_true trivial).seq fun leased _ w₂ _ => ?_
      cases leased with
      | none => trivial
      | some id =>
        refine (K.loaded id).seq fun r _ w₃ h => ?_
        cases r with
        | none => trivial
        | some s =>
          dsimp only
          split
          · rename_i hl
            exact (hK.retry _ (h s rfl (by simpa using hl))).seq fun _ _ _ _ => trivial
          · trivial
    · trivial
  exact hfail.seq fun _ _ _ _ => K.quiet rfl K.stable_true trivial

/-- **A watch that passes copies and retries passes every handler**, a new session and a presence apart. -/
theorem program {n : Nat} (r : Request)
    (hpost : ∀ playerId request, r = .post playerId request →
      K.Keeps (postSessions ⟨n⟩ ⟨n⟩ playerId request) (fun _ _ => True) w)
    (hpresence : ∀ p, r = .presence p → K.Keeps (postPresence p) (fun _ _ => True) w) :
    K.Keeps (r.program n) (fun _ _ => True) w := by
  cases r with
  | post playerId request => exact K.discarded (hpost playerId request rfl)
  | delete sessionId playerId => exact K.discarded (hK.deleteSession sessionId playerId)
  | event hostId e => exact hK.handleHostEvent hostId e
  | presence p => exact K.discarded (hpresence p rfl)
  | control hostId connected =>
    change K.Keeps (handleControlConnection hostId connected) _ w
    unfold handleControlConnection
    cases connected with
    | true => exact K.quiet rfl K.stable_true trivial
    | false => exact (K.invoked _ K.stable_true trivial).seq fun _ _ _ _ => K.quiet rfl K.stable_true trivial
  | expireSessions =>
    exact (K.invoked .dateNow K.stable_true trivial).seq fun now _ w₁ _ =>
      (K.quiet rfl K.stable_true trivial).seq fun ids l₂ w₂ _ =>
        safe_forM (fun id _ w => hK.expireSession id) ids l₂ w₂
  | expirePreparations =>
    exact (K.invoked .dateNow K.stable_true trivial).seq fun now _ w₁ _ =>
      (K.quiet rfl K.stable_true trivial).seq fun ids l₂ w₂ _ =>
        safe_forM (fun id _ w => hK.expirePreparation id) ids l₂ w₂
  | expireDisconnectedHosts =>
    exact (K.invoked .dateNow K.stable_true trivial).seq fun now _ w₁ _ =>
      (K.quiet rfl K.stable_true trivial).seq fun ids l₂ w₂ _ =>
        safe_forM (fun id _ w => hK.expireDisconnectedHost id) ids l₂ w₂

end Passes
end Watch

end Market
end CloudGaming
