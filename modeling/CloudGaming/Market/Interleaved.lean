import CloudGaming.Market.Rules
/-!
# Interleaved — every handler keeps the discipline's invariants

Each handler is safe as any thread, whatever the others do: the rules of the commands, then the functions of the
matchmaker bottom up, then `safe_program`.
-/
namespace CloudGaming
namespace Market

open Async Redis

variable {L : Prop} {t : Nat} {may : Ambient → Prop}

/-- Thread `t` runs `p` safely and returns with `P`. -/
abbrev Keeps {α : Type} (may : Ambient → Prop) (L : Prop) (t : Nat) (p : Js α) (P : α → Seen → World → Prop) :
    Seen → World → Prop := Safe (concurrent may) (disciplined L) (Inv L) (Rely L) t p (Returns P)

/-! ## Commands -/

/-- A command that takes effect in one way wherever the discipline lets it. -/
theorem keeps_await {c : Cmd} {P : c.Reply → Seen → World → Prop} {l : Seen} {w : World}
    (h : ∀ w', Rely L t w w' → Inv L w' → disciplined L c l w' → ∃ r w'', exec c w' = (r, w'') ∧ Inv L w'' ∧
      (∀ u, u ≠ t → Rely L u w' w'') ∧ P r (noteSeen c w' l) w'') : Keeps may L t (await c) P l w := by
  refine safe_send fun w' hr hI => ⟨trivial, fun hg => ?_⟩
  obtain ⟨r, w'', he, hI', hR, hP⟩ := h w' hr hI hg
  change Inv L (exec c w').2 ∧ (∀ u, u ≠ t → Rely L u w' (exec c w').2) ∧
    P (exec c w').1 (noteSeen c w' l) (exec c w').2 ∧ True
  rw [he]
  exact ⟨hI', hR, hP, trivial⟩

theorem keeps_quiet {P : Seen → World → Prop} (hP : Stable L t P) {c : Cmd} (hc : c.quiet = true) {l : Seen} {w : World}
    (h : P l w) : Keeps may L t (await c) (fun _ => P) l w := by
  refine safe_send fun w' hr hI => ⟨trivial, fun _ => ?_⟩
  have hq : Quiet L w' (exec c w').2 := quiet_exec hc w'
  exact ⟨hq.inv hI, fun u _ => hq.rely u, hP.quiet _ _ _ _ (hP.rely _ _ _ h hr) (note_quiet hc w' l) hq, trivial⟩

theorem keeps_call {P : Seen → World → Prop} (hP : Stable L t P) (o : Call) {l : Seen} {w : World} (h : P l w) :
    Keeps may L t (invoke o) (fun _ => P) l w := by
  refine safe_invoke fun w' hr hI => ?_
  have hq : Quiet L w' (call o w').2 := quiet_call o w'
  exact ⟨hq.inv hI, fun u _ => hq.rely u, hP.quiet _ _ _ _ (hP.rely _ _ _ h hr) rfl hq⟩

theorem keeps_loadSession (id : SessionId) (l : Seen) (w : World) :
    Keeps may L t (loadSession id) (fun r l' w' => ∀ s, r = some s → s.state.terminal = false →
      s.id = id ∧ s.state ≠ .allocating ∧ Holds s s.hostId s.state.live l' w' ∧ 0 < written w'.trace s.id) l w := by
  refine safe_send fun w' _ hI => ⟨trivial, fun _ => ⟨hI, fun u _ => .refl L u w', fun s hs ht => ?_, trivial⟩⟩
  have hid : s.id = id := session_id w' hs
  subst hid
  have hn := hI.1.stored _ s hs
  have hver : (noteSeen (.getSession s.id) w' l).version s.id = written w'.trace s.id := by simp [noteSeen]
  refine ⟨rfl, hI.1.state _ s hn, ⟨?_, fun _ s₀ h₀ => ?_, fun _ k hk => ?_⟩, ?_⟩
  · exact Nat.le_of_eq hver
  · have : s₀ = s := Option.some.inj (h₀.symm.trans hn)
    subst this; exact ⟨ht, rfl, fun hl => hl⟩
  · obtain ⟨s₁, h₁, hk₁⟩ := hI.1.lease k s.id hk
    have : s₁ = s := Option.some.inj (h₁.symm.trans hn)
    subst this; exact hk₁
  · have : newest w'.trace s.id ≠ none := by rw [hn]; nofun
    rw [ne_eq, newest_eq_none] at this
    exact Nat.pos_of_ne_zero this

theorem keeps_setSession {s : Session} (s' : Session) {host : Option HostId} {live : Bool} {l : Seen} {w : World}
    (hh : Holds s host live l w) (ho : Own L t s w) (hid : s'.id = s.id) (hp : s'.playerId = s.playerId)
    (ha : s'.state ≠ .allocating) (hl : s'.state.live = true → live = true) (hhost : host = none ∨ host = s'.hostId) :
    Keeps may L t (await (.setSession s')) (fun _ l' w' => 0 < written w'.trace s'.id ∧
      (s'.state.terminal = false → Holds s' s'.hostId s'.state.live l' w')) l w := by
  refine safe_send fun w' hr hI => ⟨trivial, fun hg => ?_⟩
  have hh' := (stable_holds s host live).rely l w w' hh hr
  have ho' := (stable_own s).rely l w w' ho hr
  have hv : l.version s.id = written w'.trace s.id := hid ▸ hg.1 s'.id rfl
  have hs := stores_write w' s'
  have hn : (noteSeen (.setSession s') w' l).version s'.id = written w'.trace s'.id + 1 := by simp [noteSeen, stores]
  exact ⟨hs.inv hI hh' ho' hv hid hp ha hl hhost, fun u hu => hs.rely ho' hid u hu,
    ⟨hs.stored, fun ht => hs.holds hh' hv hid ht hhost hn⟩, trivial⟩

theorem keeps_claim {s : Session} {l : Seen} {w : World} (hh : Holds s none true l w) (ho : Own L t s w)
    (attempted : List HostId) (h : HostId) :
    Keeps may L t (await (.claim h (allocatedTo s attempted h))) (fun r l' w' =>
      if r.isNone = true then Holds s none true l' w' ∧ Own L t s w'
      else Holds (allocatedTo s attempted h) (some h) true l' w' ∧ 0 < written w'.trace s.id) l w := by
  refine keeps_await fun w' hr hI hg => ?_
  have hh' := (stable_holds s none true).rely l w w' hh hr
  have ho' := (stable_own s).rely l w w' ho hr
  cases hc : w'.claimable h s.gameId with
  | none =>
    have hn : noteSeen (.claim h (allocatedTo s attempted h)) w' l = l := by simp [noteSeen, stores, allocatedTo, hc]
    refine ⟨none, w', by simp [exec, allocatedTo, hc], hI, fun u _ => .refl L u w', ?_⟩
    rw [hn]
    exact ⟨hh', ho'⟩
  | some r =>
    have hst : stores w' (.claim h (allocatedTo s attempted h)) = some s.id := by simp [stores, allocatedTo, hc]
    have hv : l.version s.id = written w'.trace s.id := hg.1 s.id hst
    have hs := stores_reserve w' h r (allocatedTo s attempted h) rfl
    have hn : (noteSeen (.claim h (allocatedTo s attempted h)) w' l).version s.id = written w'.trace s.id + 1 := by
      simp [noteSeen, hst]
    exact ⟨some { r.1 with state := .reserved, sessionId := some s.id }, w'.reserve h r (allocatedTo s attempted h),
      by simp [exec, allocatedTo, hc], hs.inv hI hh' ho' hv rfl rfl (fun h => by cases h) (fun _ => rfl) (.inl rfl),
      fun u hu => hs.rely ho' rfl u hu, hs.holds hh' hv rfl rfl (.inl rfl) hn, hs.stored⟩

theorem keeps_releaseHost {P : Seen → World → Prop} (hP : Stable L t P) {s : Session} {host hostId : Option HostId}
    {live : Bool} {l : Seen} {w : World} (hh : Holds s host live l w) (hp : P l w) (hhost : host = none ∨ host = hostId) :
    Keeps may L t (releaseHost hostId s.id) (fun _ l' w' => Holds s none live l' w' ∧ P l' w') l w := by
  refine safe_send fun w' hr hI => ⟨trivial, fun _ => ?_⟩
  have hq : Quiet L w' (exec (.release hostId s.id) w').2 := quiet_exec rfl w'
  have hh' := (stable_holds s host live).rely l w w' hh hr
  have hh'' := (stable_holds (t := t) s host live).quiet l (noteSeen (.release hostId s.id) w' l) w' _ hh' rfl hq
  refine ⟨hq.inv hI, fun u _ => hq.rely u, ⟨⟨hh''.seen, hh''.record, fun hv k hk => ?_⟩,
    hP.quiet _ _ _ _ (hP.rely _ _ _ hp hr) rfl hq⟩, trivial⟩
  have hkh : host = some k := hh''.lease hv k hk
  rcases hhost with rfl | rfl
  · exact hkh
  · -- the lease was deleted with the release of its host
    rw [hkh] at hk
    exact absurd hk (lease_release_self w' k s.id)

/-! ## The player lock -/

theorem inv_unlock {w : World} {p : PlayerId} (hI : Inv L w) : Inv L (w.unlockPlayer p) := by
  have hpl : ∀ {p' id}, (w.unlockPlayer p).player p' = some id → w.player p' = some id := fun {p' id} h => by
    rw [player_unlockPlayer] at h
    split at h
    · cases h
    · exact h
  exact ⟨⟨hI.1.lease, hI.1.stored, hI.1.state, hI.1.absorbing⟩, fun hL =>
    ⟨fun id s id' hs hl h => (hI.2 hL).alone id s id' hs hl (hpl h), (hI.2 hL).single,
      fun p' id s h hs => (hI.2 hL).owner p' id s (hpl h) hs⟩⟩

theorem rely_unlock {w : World} {p : PlayerId} {u : Nat} (h : L → w.player p = some ⟨u⟩ → 0 < written w.trace ⟨u⟩) :
    Rely L u w (w.unlockPlayer p) where
  trace := ⟨[], rfl, fun _ _ _ hl => hl⟩
  own hL h0 := by
    refine ⟨h0, fun p' => ?_⟩
    rw [player_unlockPlayer]
    split
    · rename_i he
      subst he
      exact ⟨nofun, fun hp => absurd (h hL hp) (by rw [h0]; exact Nat.lt_irrefl 0)⟩
    · exact Iff.rfl

theorem keeps_releasePlayer {P : Seen → World → Prop} (hP : Stable L t P)
    (hunlock : ∀ l w p, P l w → P l (w.unlockPlayer p)) (s : Session) {l : Seen} {w : World} (hp : P l w)
    (hm : L → Mine t s w) : Keeps may L t (releasePlayer s) (fun _ => P) l w := by
  have hS : Stable L t (fun l w => P l w ∧ (L → Mine t s w)) :=
    hP.and ⟨fun l w w' h hr hL => (stable_mine s).rely l w w' (h hL) hr,
      fun l l' w w' h hv hq hL => (stable_mine s).quiet l l' w w' (h hL) hv hq⟩
  refine Safe.seq (P := fun r l' w' => (P l' w' ∧ (L → Mine t s w')) ∧ l'.holder s.playerId = r)
    (safe_send fun w' hr hI => ⟨trivial, fun _ => ?_⟩) fun r l' w' h => ?_
  · have hq : Quiet L w' (exec (.getPlayer s.playerId) w').2 := quiet_exec rfl w'
    exact ⟨hq.inv hI, fun u _ => hq.rely u,
      ⟨hS.quiet _ _ _ _ (hS.rely _ _ _ ⟨hp, hm⟩ hr) rfl hq, by simp [concurrent, noteSeen, machine, exec]⟩, trivial⟩
  · split
    · rename_i hrs
      refine safe_send fun w'' hr hI => ⟨trivial, fun hg => ?_⟩
      have hS' := hS.rely l' w' w'' h.1 hr
      refine ⟨inv_unlock hI, fun u hu => rely_unlock fun hL hpl => ?_, hunlock _ _ _ hS'.1, trivial⟩
      -- the lock still names the session of the thread
      have hid : (⟨u⟩ : SessionId) = s.id := by
        rcases hg.2 hL with hn | hn
        · rw [hn] at hpl; cases hpl
        · rw [hn, h.2, hrs] at hpl; exact (Option.some.inj hpl).symm
      rcases hS'.2 hL with hpos | ht
      · rwa [hid]
      · rw [ht, SessionId.mk.injEq] at hid; exact absurd hid hu
    · exact h.1.1

/-! ## The functions the handlers share -/

/-- What is known of a session does not depend on the fields a handler mutates. -/
theorem Holds.congr {s s' : Session} {host : Option HostId} {live : Bool} {l : Seen} {w : World} (h : Holds s host live l w)
    (hid : s'.id = s.id) (hp : s'.playerId = s.playerId) : Holds s' host live l w where
  seen := by rw [hid]; exact h.seen
  record := by rw [hid, hp]; exact h.record
  lease := by rw [hid]; exact h.lease

theorem Holds.weaken {s : Session} {host : Option HostId} {live : Bool} {l : Seen} {w : World} (h : Holds s host live l w) :
    Holds s host false l w where
  seen := h.seen
  record hv s₀ h₀ := ⟨(h.record hv s₀ h₀).1, (h.record hv s₀ h₀).2.1, nofun⟩
  lease := h.lease

/-- What a thread knows once it has stored `s`. -/
def Stored (s : Session) (l : Seen) (w : World) : Prop :=
  0 < written w.trace s.id ∧ (s.state.terminal = false → Holds s s.hostId s.state.live l w)

theorem stable_storedAs (s : Session) : Stable L t (Stored s) where
  rely l w w' h hr := ⟨(stable_stored s.id).rely l w w' h.1 hr, fun ht => (stable_holds s _ _).rely l w w' (h.2 ht) hr⟩
  quiet l l' w w' h hv hq :=
    ⟨(stable_stored s.id).quiet (L := L) (t := t) l l' w w' h.1 hv hq,
      fun ht => (stable_holds (t := t) s _ _).quiet l l' w w' (h.2 ht) hv hq⟩

theorem keeps_saveSession {s : Session} (s' : Session) {host : Option HostId} {live : Bool} {l : Seen} {w : World}
    (hh : Holds s host live l w) (ho : Own L t s w) (hid : s'.id = s.id) (hp : s'.playerId = s.playerId)
    (ha : s'.state ≠ .allocating) (hl : s'.state.live = true → live = true) (hhost : host = none ∨ host = s'.hostId) :
    Keeps may L t (saveSession s') (fun r l' w' => (∃ n, r = { s' with updatedAt := n }) ∧ Stored r l' w') l w := by
  unfold saveSession
  refine (keeps_call ((stable_holds s host live).and (stable_own s)) .dateNow ⟨hh, ho⟩).seq fun n l₁ w₁ h₁ => ?_
  dsimp only
  refine (keeps_setSession { s' with updatedAt := n } h₁.1 h₁.2 hid hp ha hl hhost).seq fun _ l₂ w₂ h₂ => ?_
  have hS := stable_storedAs (L := L) (t := t) { s' with updatedAt := n }
  refine (keeps_quiet hS rfl h₂).seq fun _ l₃ w₃ h₃ => ?_
  refine (keeps_quiet hS rfl h₃).seq fun _ l₄ w₄ h₄ => ?_
  exact ⟨⟨n, rfl⟩, h₄⟩

theorem keeps_prepareOn {s : Session} (attempted : List HostId) (host : HostRecord) {l : Seen} {w : World}
    (hh : Holds (allocatedTo s attempted host.hostId) (some host.hostId) true l w) (hw : 0 < written w.trace s.id) :
    Keeps may L t (prepareOn s attempted host)
      (fun r l' w' => r = none → Holds s none true l' w' ∧ 0 < written w'.trace s.id) l w := by
  have hP := (stable_holds (L := L) (t := t) (allocatedTo s attempted host.hostId) (some host.hostId) true).and
    (stable_stored s.id)
  unfold prepareOn
  refine (keeps_call hP .dateNow ⟨hh, hw⟩).seq fun now l₁ w₁ h₁ => ?_
  dsimp only
  refine (keeps_call hP _ h₁).seq fun commandId l₂ w₂ h₂ => ?_
  split
  · refine (keeps_releaseHost (stable_stored s.id) h₂.1 h₂.2 (.inr rfl)).seq fun _ l₃ w₃ h₃ => ?_
    exact fun _ => ⟨h₃.1.congr rfl rfl, h₃.2⟩
  · refine (keeps_saveSession _ h₂.1 (own_of_stored h₂.2) (by rfl) (by rfl) (by nofun) (fun _ => rfl)
      (.inr (by rfl))).seq fun r l₃ w₃ _ => ?_
    exact (keeps_quiet stable_true rfl trivial).seq fun _ _ _ _ hn => by cases hn

/-- **The candidate loop**: a host is leased for the session only while the newest record is the thread's own. -/
theorem keeps_claimFirst {s : Session} : ∀ (candidates : List HostRecord) (attempted : List HostId) {l : Seen} {w : World},
    Holds s none true l w → Own L t s w →
    Keeps may L t (claimFirst s attempted candidates)
      (fun r l' w' => r = none → Holds s none true l' w' ∧ Own L t s w') l w
  | [], _, l, w, hh, ho => fun _ => ⟨hh, ho⟩
  | host :: candidates, attempted, l, w, hh, ho => by
    unfold claimFirst
    dsimp only
    refine (keeps_claim hh ho _ host.hostId).seq fun claimed l₁ w₁ h₁ => ?_
    by_cases hc : claimed.isNone = true
    · rw [if_pos hc] at h₁ ⊢
      exact keeps_claimFirst candidates _ h₁.1 h₁.2
    · rw [if_neg hc] at h₁ ⊢
      refine (keeps_prepareOn _ host h₁.1 h₁.2).seq fun r l₂ w₂ h₂ => ?_
      cases r with
      | some a => exact nofun
      | none => exact keeps_claimFirst candidates _ (h₂ rfl).1 (own_of_stored (h₂ rfl).2)

theorem keeps_allocateSession {s : Session} {l : Seen} {w : World} (hh : Holds s none true l w) (ho : Own L t s w) :
    Keeps may L t (allocateSession s) (fun r l' w' => r = none → Holds s none true l' w' ∧ Own L t s w') l w := by
  have hP := (stable_holds (L := L) (t := t) s none true).and (stable_own s)
  unfold allocateSession
  refine (keeps_quiet hP rfl ⟨hh, ho⟩).seq fun ids l₁ w₁ h₁ => ?_
  dsimp only
  split
  · exact fun _ => h₁
  · refine (keeps_quiet hP rfl h₁).seq fun records l₂ w₂ h₂ => ?_
    refine (keeps_call hP .connected h₂).seq fun connected l₃ w₃ h₃ => ?_
    exact keeps_claimFirst _ _ h₃.1 h₃.2

/-- A thread's copy of a stored session. -/
def Copy (s : Session) (l : Seen) (w : World) : Prop := Holds s s.hostId s.state.live l w ∧ 0 < written w.trace s.id

theorem stable_copy (s : Session) : Stable L t (Copy s) := (stable_holds s _ _).and (stable_stored s.id)

theorem holds_unlock {s : Session} {host : Option HostId} {live : Bool} {l : Seen} {w : World} (p : PlayerId)
    (h : Holds s host live l w) : Holds s host live l (w.unlockPlayer p) := ⟨h.seen, h.record, h.lease⟩

/-- A session stays stored. -/
theorem Safe.stored {α : Type} {P : α → Seen → World → Prop} {p : Js α} {l : Seen} {w : World} (id : SessionId)
    (h : Keeps may L t p P l w) (hw : 0 < written w.trace id) :
    Keeps may L t p (fun r l' w' => P r l' w' ∧ 0 < written w'.trace id) l w := by
  refine (h.frame (F := fun w => 0 < written w.trace id) (fun w w' hr h => (stable_stored id).rely l w w' h hr)
    (fun c w h => ?_) (fun o w h => ?_) hw).mono fun r _ _ hr => ?_
  · obtain ⟨ext, he⟩ := trace_exec w c
    change 0 < written (exec c w).2.trace id
    rw [he, written_append]; omega
  · change 0 < written (call o w).2.trace id
    rwa [(quiet_call (L := False) o w).written_eq]
  · cases r with
    | none => trivial
    | some a => exact hr

theorem keeps_failSession {s : Session} {l : Seen} {w : World} (hh : Holds s none false l w) (hw : 0 < written w.trace s.id)
    (code : String) : Keeps may L t (failSession s code) (fun _ _ _ => True) l w := by
  have hQ := (stable_holds (L := L) (t := t) s none false).and (stable_stored s.id)
  unfold failSession
  refine (keeps_call hQ .dateNow ⟨hh, hw⟩).seq fun now l₁ w₁ h₁ => ?_
  dsimp only
  refine (keeps_releasePlayer hQ (fun l w p h => ⟨holds_unlock p h.1, h.2⟩) _ h₁
    (fun _ => .inl h₁.2)).seq fun _ l₂ w₂ h₂ => ?_
  exact (keeps_saveSession _ h₂.1 (own_of_stored h₂.2) (by rfl) (by rfl) (by nofun) (by nofun) (.inl rfl)).returns fun _ _ _ _ => trivial

theorem keeps_failOrRetrySession {s : Session} {l : Seen} {w : World} (h : Copy s l w) (ht : s.state.terminal = false)
    (ha : s.state ≠ .allocating) (code : String) :
    Keeps may L t (failOrRetrySession s code) (fun _ _ _ => True) l w := by
  have hP := (stable_holds (L := L) (t := t) s none s.state.live).and (stable_stored s.id)
  unfold failOrRetrySession
  refine (keeps_releaseHost (stable_stored s.id) h.1 h.2 (.inr rfl)).seq fun _ l₁ w₁ h₁ => ?_
  refine (keeps_quiet hP rfl h₁).seq fun _ l₂ w₂ h₂ => ?_
  refine (keeps_quiet hP rfl h₂).seq fun _ l₃ w₃ h₃ => ?_
  split
  · exact keeps_failSession h₃.1.weaken h₃.2 code
  · -- a session that has not started is live, whatever state it was loaded in
    rename_i hs
    have hlive : s.state.live = true := by
      revert ht ha hs; cases s.state <;> simp [SessionState.terminal, SessionState.started, SessionState.live]
    have hh : Holds { s with state := .allocating, failureCode := some code } none true l₃ w₃ :=
      (hlive ▸ h₃.1).congr rfl rfl
    dsimp only
    refine (Safe.stored s.id (keeps_allocateSession hh (own_of_stored h₃.2)) h₃.2).seq fun r l₄ w₄ h₄ => ?_
    cases r with
    | some r => trivial
    | none => exact keeps_failSession ((h₄.1 rfl).1.weaken.congr rfl rfl) h₄.2 code

/-- A loaded session that is not terminal, as the thread's copy. -/
theorem keeps_loadCopy (id : SessionId) (l : Seen) (w : World) :
    Keeps may L t (loadSession id) (fun r l' w' => ∀ s, r = some s → s.state.terminal = false →
      s.id = id ∧ s.state ≠ .allocating ∧ Copy s l' w') l w :=
  (keeps_loadSession id l w).returns fun _ _ _ h s hs ht =>
    ⟨(h s hs ht).1, (h s hs ht).2.1, (h s hs ht).2.2.1, (h s hs ht).2.2.2⟩

/-! ## The handlers -/

theorem keeps_handleControlConnection (hostId : HostId) (connected : Bool) (l : Seen) (w : World) :
    Keeps may L t (handleControlConnection hostId connected) (fun _ _ _ => True) l w := by
  unfold handleControlConnection
  cases connected with
  | true => exact keeps_quiet stable_true rfl trivial
  | false => exact (keeps_call stable_true _ trivial).seq fun _ _ _ _ => keeps_quiet stable_true rfl trivial

theorem keeps_handleHello (hostId : HostId) (event : HostEvent) (l : Seen) (w : World) :
    Keeps may L t (handleHello hostId event) (fun _ _ _ => True) l w := by
  unfold handleHello
  refine (keeps_quiet stable_true rfl trivial).seq fun leased l₁ w₁ _ => ?_
  split
  · split
    · exact (keeps_call stable_true _ trivial).seq fun _ _ _ _ => trivial
    · trivial
  · refine (keeps_loadCopy _ l₁ w₁).seq fun r l₂ w₂ h => ?_
    cases r with
    | none => trivial
    | some s =>
      dsimp only
      split
      · rename_i ht
        obtain ⟨-, ha, hc⟩ := h s rfl (by simpa using ht)
        exact (keeps_failOrRetrySession hc (by simpa using ht) ha _).seq fun _ _ _ _ => trivial
      · trivial
  · trivial

theorem keeps_handleSessionEvent {s : Session} {l : Seen} {w : World} (h : Copy s l w) (ht : s.state.terminal = false)
    (ha : s.state ≠ .allocating) (hostId : HostId) (hhost : s.hostId = some hostId) (event : HostEvent) :
    Keeps may L t (handleSessionEvent hostId event s) (fun _ _ _ => True) l w := by
  have save : ∀ {s' : Session} {l w}, Copy s l w → s'.id = s.id → s'.playerId = s.playerId → s'.state ≠ .allocating →
      (s'.state.live = true → s.state.live = true) → s'.hostId = s.hostId →
      Keeps may L t (saveSession s' >>= fun _ => pure ()) (fun _ _ _ => True) l w :=
    fun hc hid hp ha hl hh =>
      (keeps_saveSession _ hc.1 (own_of_stored hc.2) hid hp ha hl (.inr hh.symm)).seq fun _ _ _ _ => trivial
  have launching_live : ∀ {st : SessionState}, st.launching = true → st.live = true := fun {st} hl => by
    cases st <;> first | rfl | cases hl
  have connectable_live : ∀ {st : SessionState}, st.connectable = true → st.live = true := fun {st} hl => by
    cases st <;> first | rfl | cases hl
  unfold handleSessionEvent
  cases event.type with
  | hello => trivial
  | launchAck =>
    dsimp only
    split
    · rename_i hl; exact save h rfl rfl nofun (fun _ => launching_live hl) rfl
    · exact save h rfl rfl ha id rfl
  | gameReady =>
    dsimp only
    split
    · rename_i hl
      exact (keeps_quiet (stable_copy s) rfl h).seq fun _ l₁ w₁ h₁ =>
        save h₁ rfl rfl nofun (fun _ => launching_live hl) rfl
    · exact save h rfl rfl ha id rfl
  | streamConnected =>
    dsimp only
    split
    · rename_i hl
      refine (keeps_call (stable_copy s) .dateNow h).seq fun startsAt l₁ w₁ h₁ => ?_
      exact (keeps_quiet (stable_copy s) rfl h₁).seq fun _ l₂ w₂ h₂ =>
        save h₂ rfl rfl nofun (fun _ => connectable_live hl) rfl
    · exact save h rfl rfl ha id rfl
  | failed => exact (keeps_failOrRetrySession h ht ha _).seq fun _ _ _ _ => trivial
  | ended =>
    have hP := (stable_holds (L := L) (t := t) s none s.state.live).and (stable_stored s.id)
    refine (keeps_call (stable_copy s) .dateNow h).seq fun endedAt l₁ w₁ h₁ => ?_
    dsimp only
    refine (keeps_releaseHost (stable_stored s.id) h₁.1 h₁.2 (.inr hhost)).seq fun _ l₂ w₂ h₂ => ?_
    refine (keeps_quiet hP rfl h₂).seq fun _ l₃ w₃ h₃ => ?_
    refine (keeps_quiet hP rfl h₃).seq fun _ l₄ w₄ h₄ => ?_
    refine (keeps_releasePlayer hP (fun l w p h => ⟨holds_unlock p h.1, h.2⟩) _ h₄
      (fun _ => .inl h₄.2)).seq fun _ l₅ w₅ h₅ => ?_
    exact (keeps_saveSession _ h₅.1 (own_of_stored h₅.2) (by rfl) (by rfl) (by nofun) (by nofun) (.inl rfl)).seq
      fun _ _ _ _ => trivial

theorem keeps_handleHostEvent (hostId : HostId) (event : HostEvent) (l : Seen) (w : World) :
    Keeps may L t (handleHostEvent hostId event) (fun _ _ _ => True) l w := by
  unfold handleHostEvent
  split
  · exact keeps_handleHello hostId event l w
  · split
    · trivial
    · refine (keeps_loadCopy _ l w).seq fun r l₁ w₁ h => ?_
      cases r with
      | none => trivial
      | some s =>
        dsimp only
        split
        · trivial
        · rename_i hc
          obtain ⟨hh, ht⟩ := not_or.1 hc
          obtain ⟨-, ha, hcopy⟩ := h s rfl (by simpa using ht)
          exact keeps_handleSessionEvent hcopy (by simpa using ht) ha hostId (not_not.1 hh) event

theorem keeps_deleteSession (sessionId : SessionId) (playerId : Option PlayerId) (l : Seen) (w : World) :
    Keeps may L t (deleteSession sessionId playerId) (fun _ _ _ => True) l w := by
  unfold deleteSession
  refine (keeps_loadCopy sessionId l w).seq fun r l₁ w₁ h => ?_
  cases r with
  | none => trivial
  | some s =>
    dsimp only
    split
    · trivial
    · split
      · trivial
      · rename_i ht
        obtain ⟨-, -, hc⟩ := h s rfl (by simpa using ht)
        refine (keeps_call (stable_copy s) _ hc).seq fun _ l₂ w₂ h₂ => ?_
        refine (keeps_releasePlayer (stable_copy s) (fun l w p h => ⟨holds_unlock p h.1, h.2⟩) _ h₂
          (fun _ => .inl h₂.2)).seq fun _ l₃ w₃ h₃ => ?_
        exact (keeps_saveSession _ h₃.1 (own_of_stored h₃.2) (by rfl) (by rfl) (by nofun) (by nofun)
          (.inr (by rfl))).seq fun _ _ _ _ => trivial

theorem keeps_postPresence (presence : Presence) (l : Seen) (w : World) :
    Keeps may L t (postPresence presence) (fun _ _ _ => True) l w := by
  have hbody : Keeps may L t (do
      await (.addGames presence.games)
      let now ← invoke .dateNow
      let _ ← await (.presence presence now)
      return { status := 200 } : Js Response) (fun _ _ _ => True) l w := by
    refine (keeps_quiet stable_true rfl trivial).seq fun _ l₁ w₁ _ => ?_
    refine (keeps_call stable_true .dateNow trivial).seq fun now l₂ w₂ _ => ?_
    exact (keeps_quiet stable_true rfl trivial).seq fun _ _ _ _ => trivial
  exact hbody.tryCatch (fun _ _ _ h => h) fun _ _ _ => trivial

theorem keeps_expireSession (id : SessionId) (l : Seen) (w : World) :
    Keeps may L t (expireSession id) (fun _ _ _ => True) l w := by
  have hend : Keeps may L t (endExpired id) (fun _ _ _ => True) l w := by
    unfold endExpired
    refine (keeps_loadCopy id l w).seq fun r l₁ w₁ h => ?_
    cases r with
    | none => trivial
    | some s =>
      dsimp only
      split
      · rename_i hs
        obtain ⟨-, -, hc⟩ := h s rfl (by rw [hs]; rfl)
        refine (keeps_call (stable_copy s) _ hc).seq fun _ l₂ w₂ h₂ => ?_
        exact (keeps_saveSession _ h₂.1 (own_of_stored h₂.2) (by rfl) (by rfl) (by nofun) (by nofun)
          (.inr (by rfl))).seq fun _ _ _ _ => trivial
      · trivial
  exact hend.seq fun _ _ _ _ => keeps_quiet stable_true rfl trivial

theorem keeps_expirePreparation (id : SessionId) (l : Seen) (w : World) :
    Keeps may L t (expirePreparation id) (fun _ _ _ => True) l w := by
  unfold expirePreparation
  refine (keeps_loadCopy id l w).seq fun r l₁ w₁ h => ?_
  cases r with
  | none => exact keeps_quiet stable_true rfl trivial
  | some s =>
    dsimp only
    split
    · rename_i hs
      have ht : s.state.terminal = false := by revert hs; cases s.state <;> simp [SessionState.launching, SessionState.terminal]
      obtain ⟨-, ha, hc⟩ := h s rfl ht
      refine (keeps_call (stable_copy s) _ hc).seq fun _ l₂ w₂ h₂ => ?_
      exact (keeps_failOrRetrySession h₂ ht ha _).seq fun _ _ _ _ => trivial
    · exact keeps_quiet stable_true rfl trivial

theorem keeps_expireDisconnectedHost (hostId : HostId) (l : Seen) (w : World) :
    Keeps may L t (expireDisconnectedHost hostId) (fun _ _ _ => True) l w := by
  have hfail : Keeps may L t (failDisconnected hostId) (fun _ _ _ => True) l w := by
    unfold failDisconnected
    refine (keeps_call stable_true .connected trivial).seq fun connected l₁ w₁ _ => ?_
    split
    · refine (keeps_quiet stable_true rfl trivial).seq fun leased l₂ w₂ _ => ?_
      cases leased with
      | none => trivial
      | some id =>
        refine (keeps_loadCopy id l₂ w₂).seq fun r l₃ w₃ h => ?_
        cases r with
        | none => trivial
        | some s =>
          dsimp only
          split
          · rename_i ht
            obtain ⟨-, ha, hc⟩ := h s rfl (by simpa using ht)
            exact (keeps_failOrRetrySession hc (by simpa using ht) ha _).seq fun _ _ _ _ => trivial
          · trivial
    · trivial
  exact hfail.seq fun _ _ _ _ => keeps_quiet stable_true rfl trivial

/-! ## A new session -/

/-- Nobody has stored, leased or locked the session thread `t` creates. -/
def Unborn (L : Prop) (t : Nat) (l : Seen) (w : World) : Prop :=
  l.version ⟨t⟩ = 0 ∧ (L → written w.trace ⟨t⟩ = 0 ∧ ∀ p, w.player p ≠ some ⟨t⟩)

theorem stable_unborn : Stable L t (Unborn L t) where
  rely l w w' h hr := ⟨h.1, fun hL => by
    obtain ⟨h0, hp⟩ := hr.own hL (h.2 hL).1
    exact ⟨h0, fun p hc => (h.2 hL).2 p ((hp p).1 hc)⟩⟩
  quiet l l' w w' h hv hq := ⟨by rw [hv]; exact h.1, fun hL =>
    ⟨by rw [hq.written_eq]; exact (h.2 hL).1, fun p hc => (h.2 hL).2 p (by rwa [hq.player hL] at hc)⟩⟩

/-- A session the thread has not seen: nothing of it is stored while that is its newest version. -/
theorem holds_new {s : Session} {l : Seen} {w : World} (hI : RecordInv w) (hv : l.version s.id = 0) :
    Holds s none true l w where
  seen := by omega
  record he s₀ h₀ := by
    rw [newest_eq_none.2 (by omega)] at h₀; cases h₀
  lease he h hl := by
    obtain ⟨s₀, h₀, -⟩ := hI.lease h s.id hl
    rw [newest_eq_none.2 (by omega)] at h₀; cases h₀

/-- Taking the free lock of a player without a live session. -/
theorem inv_lock {w : World} {p : PlayerId} {seconds : Nat} (hI : Inv L w) (hp : w.player p = none)
    (hg : L → ∀ id s, newest w.trace id = some s → s.playerId = p → s.state.live = false)
    (h0 : L → written w.trace ⟨t⟩ = 0) : Inv L (w.lockPlayer p ⟨t⟩ seconds) := by
  have hpl := player_lockPlayer w hp ⟨t⟩ seconds
  rw [lockPlayer_of_none w hp] at hpl ⊢
  refine ⟨⟨hI.1.lease, hI.1.stored, hI.1.state, hI.1.absorbing⟩, fun hL => ?_⟩
  have hLI := hI.2 hL
  refine ⟨fun id s id' hs hl hp' => ?_, hLI.single, fun p' id s hp' hs => ?_⟩
  · rw [hpl, if_neg fun he => by rw [hg hL id s hs he] at hl; cases hl] at hp'
    exact hLI.alone id s id' hs hl hp'
  · rw [hpl] at hp'
    split at hp'
    · cases hp'
      rw [newest_eq_none.2 (h0 hL)] at hs; cases hs
    · exact hLI.owner p' id s hp' hs

theorem keeps_lockPlayer {s : Session} (hid : s.id = ⟨t⟩) (seconds : Nat) {l : Seen} {w : World} (hu : Unborn L t l w) :
    Keeps may L t (await (.lockPlayer s.playerId s.id seconds)) (fun r l' w' => r = true →
      Holds s none true l' w' ∧ Own L t s w') l w := by
  refine keeps_await fun w' hr hI hg => ⟨(w'.player s.playerId).isNone, w'.lockPlayer s.playerId s.id seconds, rfl, ?_⟩
  have hu' := stable_unborn.rely l w w' hu hr
  have hn : noteSeen (.lockPlayer s.playerId s.id seconds) w' l = l := rfl
  rw [hn]
  cases hp : w'.player s.playerId with
  | some id =>
    rw [lockPlayer_of_some w' hp]
    exact ⟨hI, fun u _ => .refl L u w', nofun⟩
  | none =>
    have hpl := player_lockPlayer w' hp s.id seconds
    have htr : (w'.lockPlayer s.playerId s.id seconds).trace = w'.trace := by rw [lockPlayer_of_none w' hp]
    have hlease : ∀ h, (w'.lockPlayer s.playerId s.id seconds).lease h = w'.lease h := fun h => by
      rw [lockPlayer_of_none w' hp]; rfl
    have hI' : Inv L (w'.lockPlayer s.playerId s.id seconds) := by
      rw [hid]
      refine inv_lock hI hp (fun hL id s₁ hs hsp => ?_) fun hL => (hu'.2 hL).1
      exact hg.2 hL hp s₁ (newest_mem_records hs) (by rw [newest_id hs]; exact hs) hsp
    refine ⟨hI', fun u hu => ⟨⟨[], htr, fun id _ h hl => by rwa [hlease] at hl⟩, fun hL h0 => ⟨by rwa [htr], fun p => ?_⟩⟩,
      fun _ => ⟨holds_new hI'.1 (by rw [hid]; exact hu'.1), fun hL => .inr ⟨hid, fun p => ?_⟩⟩⟩
    · rw [hpl, hid]
      split
      · rename_i he
        rw [he, hp, Option.some.injEq, SessionId.mk.injEq]
        exact ⟨fun ht => absurd ht.symm hu, nofun⟩
      · exact Iff.rfl
    · rw [hpl]
      split
      · rename_i he; simp [he]
      · rename_i hne
        exact ⟨fun hc => absurd (hid ▸ hc) ((hu'.2 hL).2 p), fun hc => absurd hc hne⟩

theorem keeps_createSession (s : Session) (hid : s.id = ⟨t⟩) {l : Seen} {w : World} (hu : Unborn L t l w) :
    Keeps may L t (createSession s) (fun _ _ _ => True) l w := by
  unfold createSession
  refine (keeps_lockPlayer hid _ hu).seq fun locked l₁ w₁ h₁ => ?_
  cases locked with
  | false => exact (keeps_quiet stable_true rfl trivial).seq fun _ _ _ _ => trivial
  | true =>
    obtain ⟨hh, ho⟩ := h₁ rfl
    refine (keeps_allocateSession hh ho).seq fun r l₂ w₂ _ => ?_
    cases r with
    | some r => trivial
    | none =>
      unfold hostsUnavailable
      exact (keeps_releasePlayer stable_true (fun _ _ _ _ => trivial) s trivial (fun _ => .inr hid)).seq
        fun _ _ _ _ => trivial

theorem keeps_postSessions (roomId : RoomId) (playerId : PlayerId) (request : SessionRequest) {l : Seen} {w : World}
    (hu : Unborn L t l w) : Keeps may L t (postSessions ⟨t⟩ roomId playerId request) (fun _ _ _ => True) l w := by
  unfold postSessions
  refine (keeps_call stable_unborn .dateNow hu).seq fun createdAt l₁ w₁ h₁ => ?_
  dsimp only
  refine (keeps_createSession _ (by rfl) h₁).tryCatch (fun _ _ _ h => h) fun l₂ w₂ _ => ?_
  refine Safe.seq (P := fun _ _ _ => True) ?_ fun _ _ _ _ => trivial
  exact (keeps_releasePlayer stable_true (fun _ _ _ _ => trivial) _ trivial fun _ => .inr (by rfl)).tryCatch
    (fun _ _ _ h => h) fun _ _ _ => trivial

/-- **Every handler keeps the discipline's invariants, whatever the others do.** -/
theorem safe_program (r : Request) {w : World} (config : Config) (hr : Rely L t (World.init config) w) :
    Safe (concurrent may) (disciplined L) (Inv L) (Rely L) t (r.program t) Ended {} w := by
  have hu : Unborn L t {} w := ⟨rfl, fun hL =>
    ⟨(hr.own hL rfl).1, fun p hc => by cases ((hr.own hL rfl).2 p).1 hc⟩⟩
  cases r with
  | post playerId request => exact (keeps_postSessions _ playerId request hu).ended.discard
  | delete sessionId playerId => exact (keeps_deleteSession sessionId playerId _ w).ended.discard
  | event hostId e => exact (keeps_handleHostEvent hostId e _ w).ended
  | presence p => exact (keeps_postPresence p _ w).ended.discard
  | control hostId connected => exact (keeps_handleControlConnection hostId connected _ w).ended
  | expireSessions =>
    exact (keeps_call stable_true .dateNow trivial).seq fun now l₁ w₁ _ =>
      (keeps_quiet stable_true rfl trivial).seq fun ids l₂ w₂ _ =>
        safe_forM (fun id l w => (keeps_expireSession id l w).ended) ids l₂ w₂
  | expirePreparations =>
    exact (keeps_call stable_true .dateNow trivial).seq fun now l₁ w₁ _ =>
      (keeps_quiet stable_true rfl trivial).seq fun ids l₂ w₂ _ =>
        safe_forM (fun id l w => (keeps_expirePreparation id l w).ended) ids l₂ w₂
  | expireDisconnectedHosts =>
    exact (keeps_call stable_true .dateNow trivial).seq fun now l₁ w₁ _ =>
      (keeps_quiet stable_true rfl trivial).seq fun ids l₂ w₂ _ =>
        safe_forM (fun id l w => (keeps_expireDisconnectedHost id l w).ended) ids l₂ w₂

/-- **The invariants hold after every disciplined interleaving.** -/
theorem inv_of_reach {config : Config} {p : Pool sig World Seen} (hL : L → ∀ e, may e → ∀ q, e ≠ .expirePlayer q)
    (h : Reach (concurrent may) (disciplined L) (World.init config) p) : Inv L p.world := by
  have h₀ : Inv L (World.init config) := by
    refine ⟨⟨?_, ?_, ?_, trivial⟩, fun _ => ⟨?_, ?_, ?_⟩⟩ <;>
      simp [World.init, World.lease, World.session, World.player, Keys.get, newest]
  refine (good_of_reach (fun u w => Rely.refl L u w) (fun _ _ _ _ => Rely.trans) ?_ ?_ h₀ h).inv
  · rintro n p ⟨r, rfl⟩ w _ hr
    exact safe_program r config hr
  · intro e w he hI
    have hq : Quiet L w (w.ambient e) := quiet_ambient (fun hl => hL hl e he) w
    exact ⟨hq.inv hI, fun u => hq.rely u⟩

end Market
end CloudGaming
