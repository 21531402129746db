import CloudGaming.Market.Edges
import Mathlib.Data.Finset.Card
/-!
# Mindful — a session record lists the hosts the session was tried on

A retry passes over the hosts that the record lists, and every claim stores the record with its host added.  With handlers
one at a time the record of a live session lists every host that was claimed for it (`Mindful`), so no host is claimed for
a session twice.  As in `Edges`, the proof follows the handlers command by command, whatever commands Redis rejects.
-/
namespace CloudGaming
namespace Market

open Async Redis

/-! ## What the history says -/

/-- The hosts that were claimed for a session, newest first. -/
def claimedFor : List Obs → SessionId → List HostId
  | [], _ => []
  | .claimed h id :: tr, S => if id = S then h :: claimedFor tr S else claimedFor tr S
  | _ :: tr, S => claimedFor tr S

/-- The host that was claimed for a session last, until it is released or the session is saved as preparing. -/
def pendingFor : List Obs → SessionId → Option HostId
  | [], _ => none
  | .claimed h id :: tr, S => if id = S then some h else pendingFor tr S
  | .released _ id :: tr, S => if id = S then none else pendingFor tr S
  | .wrote s :: tr, S => if s.id = S ∧ s.state = .preparing then none else pendingFor tr S
  | _ :: tr, S => pendingFor tr S

/-- **The hosts a session was allocated to**, newest first: claimed for it, and then it was saved as preparing. -/
def allocated : List Obs → SessionId → List HostId
  | [], _ => []
  | .wrote s :: tr, S =>
    if s.id = S ∧ s.state = .preparing then (pendingFor tr S).toList ++ allocated tr S else allocated tr S
  | _ :: tr, S => allocated tr S

/-- The hosts that ever existed: those that announced themselves. -/
def registered : List Obs → Finset HostId
  | [] => ∅
  | .presence h _ :: tr => insert h (registered tr)
  | _ :: tr => registered tr

theorem sublist_claimedFor (tr : List Obs) (S : SessionId) :
    ((pendingFor tr S).toList ++ allocated tr S).Sublist (claimedFor tr S) := by
  induction tr with
  | nil => exact .slnil
  | cons o tr ih =>
    have htail : (allocated tr S).Sublist (claimedFor tr S) := (List.sublist_append_right _ _).trans ih
    cases o with
    | claimed h id =>
      unfold pendingFor allocated claimedFor
      split
      · exact htail.cons_cons h
      · exact ih
    | released h id =>
      unfold pendingFor allocated claimedFor
      split
      · exact htail
      · exact ih
    | wrote s =>
      unfold pendingFor allocated claimedFor
      split
      · exact ih
      · exact ih
    | _ => exact ih

/-- A host a session is allocated to was claimed for it, once for each time. -/
theorem allocated_sublist (tr : List Obs) (S : SessionId) : (allocated tr S).Sublist (claimedFor tr S) :=
  (List.sublist_append_right _ _).trans (sublist_claimedFor tr S)

/-! ## The invariant -/

/-- **What handlers one at a time keep**: the record of a live session lists the hosts that were claimed for it, each of
them once, and all of them announced themselves. -/
structure Mindful (w : World) : Prop where
  remembered : ∀ S s, w.session S = some s → s.state.terminal = false → ∀ h ∈ claimedFor w.trace S, h ∈ s.attemptedHostIds
  drawn : ∀ S, w.session S ≠ none ∨ claimedFor w.trace S ≠ [] → S.uuid < w.nextUuid
  distinct : ∀ S, (claimedFor w.trace S).Nodup
  claimed : ∀ S, ∀ h ∈ claimedFor w.trace S, h ∈ registered w.trace
  leased : ∀ h S, w.lease h = some S → h ∈ claimedFor w.trace S
  hosted : ∀ h, w.hosts.get h ≠ none → h ∈ registered w.trace
  listed : ∀ g, (w.idle g).Nodup

/-- A change that claims no host and stores no record. -/
structure Claimless (w w' : World) : Prop where
  silent : Silent w w'
  claimed : claimedFor w'.trace = claimedFor w.trace
  announced : registered w.trace ⊆ registered w'.trace
  lease : ∀ h S, w'.lease h = some S → w.lease h = some S
  host : ∀ h, w'.hosts.get h ≠ none → w.hosts.get h ≠ none ∨ h ∈ registered w'.trace

section claimless
variable {w w' : World}

theorem Claimless.mindful (h : Claimless w w') (hI : Mindful w) : Mindful w' where
  remembered S s hs hl := by
    rw [h.claimed]
    exact hI.remembered S s (h.silent.session S s hs) hl
  drawn S hS := by
    rw [h.claimed] at hS
    refine Nat.lt_of_lt_of_le (hI.drawn S (hS.imp_left fun hs => ?_)) h.silent.nextUuid
    obtain ⟨s, hs⟩ := Option.ne_none_iff_exists'.1 hs
    rw [h.silent.session S s hs]
    exact Option.some_ne_none s
  distinct := by rw [h.claimed]; exact hI.distinct
  claimed S k hk := by
    rw [h.claimed] at hk
    exact h.announced (hI.claimed S k hk)
  leased k S hl := by
    rw [h.claimed]
    exact hI.leased k S (h.lease k S hl)
  hosted k hk := by
    rcases h.host k hk with hk | hk
    · exact h.announced (hI.hosted k hk)
    · exact hk
  listed := h.silent.listed hI.listed

/-- A change of neither the history nor the leases nor the hosts. -/
theorem Claimless.of_same (hs : Silent w w') (ht : w'.trace = w.trace) (hl : w'.leases = w.leases)
    (hh : w'.hosts = w.hosts) : Claimless w w' := by
  refine ⟨hs, by rw [ht], by rw [ht], fun h S h' => ?_, fun h h' => .inl ?_⟩
  · rwa [World.lease, hl] at h'
  · rwa [hh] at h'

end claimless

section commands
variable (w : World)

theorem claimless_release (h : HostId) (id : SessionId) : Claimless w (w.release h id) where
  silent := silent_release w h id
  claimed := by
    rcases trace_release w (S := id) h with ht | ht
    · rw [ht]
    · rw [ht]
      rfl
  announced := by
    rcases trace_release w (S := id) h with ht | ht
    · rw [ht]
    · rw [ht]
      exact Finset.Subset.refl _
  lease k S hl := lease_of_release w hl
  host k hk := by
    refine .inl ?_
    unfold World.release at hk
    split at hk
    · split at hk
      · exact hk
      · rename_i r hr
        by_cases he : k = h
        · rw [he, hr]
          exact Option.some_ne_none r
        · rwa [Keys.get_set_of_ne _ _ _ he] at hk
    · exact hk

theorem claimless_presence (p : Presence) (lastSeenAt : Nat) (hp : p.hostId ∈ registered w.trace) :
    Claimless w (w.presence p lastSeenAt) where
  silent := silent_presence w p lastSeenAt
  claimed := rfl
  announced := Finset.Subset.refl _
  lease _ _ hl := hl
  host k hk := by
    by_cases he : k = p.hostId
    · exact .inr (he ▸ hp)
    · refine .inl ?_
      rwa [World.presence, Keys.get_set_of_ne _ _ _ he] at hk

theorem claimless_exec {c : Cmd} (hc : c.storing = false)
    (hp : ∀ p now, c = .presence p now → p.hostId ∈ registered w.trace) : Claimless w (exec c w).2 := by
  have hs := silent_exec w hc
  cases c with
  | setSession | claim => cases hc
  | release h id =>
    cases h with
    | none => exact .of_same hs rfl rfl rfl
    | some h => exact claimless_release w h id
  | presence p now => exact claimless_presence w p now (hp p now rfl)
  | lockPlayer p id seconds =>
    refine .of_same hs ?_ ?_ ?_ <;>
      · simp only [exec, World.lockPlayer]
        split <;> rfl
  | _ => exact .of_same hs rfl rfl rfl

theorem claimless_call (o : Call) : Claimless w (call o w).2 := by
  have hs := silent_call w o
  cases o with
  | dateNow | connected => exact .of_same hs rfl rfl rfl
  | send h c =>
    cases h with
    | none => exact .of_same hs rfl rfl rfl
    | some h =>
      by_cases hd : w.deliverable h = true
      · rw [call_send_some hd c] at hs ⊢
        cases c with
        | prepare => exact ⟨hs, rfl, Finset.Subset.refl _, fun _ _ h => h, fun _ h => .inl h⟩
        | stop => exact .of_same hs rfl rfl rfl
      · rw [Bool.not_eq_true] at hd
        rw [call_send_none hd c] at hs ⊢
        exact .of_same hs rfl rfl rfl

theorem claimless_ambient (a : Ambient) : Claimless w (w.ambient a) := by
  have hs := silent_ambient w a
  cases a with
  | expireHost h =>
    refine ⟨hs, rfl, Finset.Subset.refl _, fun _ _ h => h, fun k hk => .inl fun hn => hk ?_⟩
    by_cases he : k = h
    · subst he
      exact Keys.get_del_self ..
    · exact (Keys.get_del_of_ne _ he).trans hn
  | expireLease h =>
    refine ⟨hs, rfl, Finset.Subset.refl _, fun k S hl => ?_, fun _ h => .inl h⟩
    by_cases he : k = h
    · subst he
      rw [World.lease, World.ambient, Keys.get_del_self] at hl
      cases hl
    · rwa [World.lease, World.ambient, Keys.get_del_of_ne _ he] at hl
  | reorder g ids =>
    refine .of_same hs ?_ ?_ ?_ <;>
      · simp only [World.ambient]
        split <;> rfl
  | _ => exact .of_same hs rfl rfl rfl

theorem claimless_elapse (millis : Nat) : Claimless w (w.elapse millis) := by
  refine ⟨silent_elapse w millis, rfl, Finset.Subset.refl _, fun h S hl => ?_, fun h hh => .inl ?_⟩
  · exact Keys.get_sweep_of_some (m := w.leases) (t := w.now + millis) hl
  · obtain ⟨r, hr⟩ := Option.ne_none_iff_exists'.1 hh
    rw [Keys.get_sweep_of_some (m := w.hosts) (t := w.now + millis) hr]
    exact Option.some_ne_none r

theorem claimless_arrived (r : Request) : Claimless w (w.arrived r) := by
  have hs := silent_arrived w r
  cases r with
  | event h e => exact ⟨hs, rfl, Finset.Subset.refl _, fun _ _ h => h, fun _ h => .inl h⟩
  | presence p => exact ⟨hs, rfl, Finset.subset_insert _ _, fun _ _ h => h, fun _ h => .inl h⟩
  | _ => exact .of_same hs rfl rfl rfl

end commands

/-! ## Storing a record -/

/-- The hosts claimed for the session are among those `attempted`. -/
structure Covered (s : Session) (attempted : List HostId) (w : World) : Prop where
  drawn : s.id.uuid < w.nextUuid
  hosts : ∀ h ∈ claimedFor w.trace s.id, h ∈ attempted

/-- The program, alone, keeps the invariant and returns with `P`, whatever commands are rejected. -/
abbrev Minds {α : Type} (p : Js α) (P : α → World → Prop) (w : World) : Prop :=
  Safe alone anyCommand Mindful (fun u w w' => u = 0 → w' = w) 0 p (Returns fun a _ => P a) () w

/-- What changes that claim no host and store no record leave true. -/
def Enduring (P : World → Prop) : Prop := ∀ w w', Claimless w w' → P w → P w'

theorem enduring_covered (s : Session) (attempted : List HostId) : Enduring (Covered s attempted) :=
  fun _ _ hq h => ⟨Nat.lt_of_lt_of_le h.drawn hq.silent.nextUuid, by rw [hq.claimed]; exact h.hosts⟩

/-- What a handler knows of a session it has read: while it is live, its record covers the hosts claimed for it. -/
structure Read (s : Session) (w : World) : Prop where
  drawn : s.id.uuid < w.nextUuid
  covered : s.state.terminal = false → Covered s s.attemptedHostIds w

theorem enduring_read (s : Session) : Enduring (Read s) := fun w w' hq h =>
  ⟨Nat.lt_of_lt_of_le h.drawn hq.silent.nextUuid, fun hl => enduring_covered s _ w w' hq (h.covered hl)⟩

/-- The watch over what is claimed. -/
def minding : Watch where
  Inv := Mindful
  Quiet := Claimless
  Live s w := Read s w ∧ s.state.terminal = false
  inv_quiet h hI := h.mindful hI
  quiet_exec w c hc := by
    apply claimless_exec
    · cases c <;> first | rfl | cases hc
    · rintro p now rfl
      cases hc
  quiet_call := claimless_call
  live_quiet s w w' hq h := ⟨enduring_read s w w' hq h.1, h.2⟩
  live_session {s w} hI hs hl := by
    have hd : s.id.uuid < w.nextUuid := hI.drawn s.id (.inl (by rw [hs]; exact Option.some_ne_none s))
    exact ⟨⟨hd, fun hl => ⟨hd, hI.remembered s.id s hs hl⟩⟩, hl⟩

section minds
variable {w w' : World} {s : Session}

/-- **A record is stored that covers the hosts claimed for its session**, unless the session is over. -/
theorem mindful_write (hI : Mindful w) (hs : s.id.uuid < w.nextUuid)
    (hc : s.state.terminal = false → ∀ h ∈ claimedFor w.trace s.id, h ∈ s.attemptedHostIds) : Mindful (w.write s) where
  remembered S t ht hl := by
    rw [session_write w s] at ht
    split at ht
    · rename_i he
      cases ht
      rw [he]
      exact hc hl
    · exact hI.remembered S t ht hl
  drawn S hS := by
    by_cases he : S = s.id
    · rw [he]; exact hs
    · rw [session_write w s, if_neg he] at hS
      exact hI.drawn S hS
  distinct := hI.distinct
  claimed := hI.claimed
  leased := hI.leased
  hosted := hI.hosted
  listed := hI.listed

theorem claimedFor_reserve (w : World) (h : HostId) (r : {r : HostRecord // r.hostId = h}) (a : Session) (S : SessionId) :
    claimedFor (w.reserve h r a).trace S = if a.id = S then h :: claimedFor w.trace S else claimedFor w.trace S := rfl

/-- **A host is claimed that was not claimed for the session before**, and the record that is stored lists it. -/
theorem mindful_reserve (hI : Mindful w) {h : HostId} {g : GameId} {r : {r : HostRecord // r.hostId = h}}
    (hr : w.claimable h g = some r) {a : Session} (hs : a.id.uuid < w.nextUuid) (hnew : h ∉ claimedFor w.trace a.id)
    (hc : ∀ k ∈ h :: claimedFor w.trace a.id, k ∈ a.attemptedHostIds) : Mindful (w.reserve h r a) where
  remembered S t ht hl := by
    rw [session_reserve] at ht
    rw [claimedFor_reserve]
    split at ht
    · rename_i he
      cases ht
      rw [he, if_pos rfl]
      exact hc
    · rename_i he
      rw [if_neg (Ne.symm he)]
      exact hI.remembered S t ht hl
  drawn S hS := by
    by_cases he : S = a.id
    · rw [he]; exact hs
    · rw [session_reserve, if_neg he, claimedFor_reserve, if_neg (Ne.symm he)] at hS
      exact hI.drawn S hS
  distinct S := by
    rw [claimedFor_reserve]
    split
    · rename_i he
      exact List.nodup_cons.2 ⟨he ▸ hnew, hI.distinct S⟩
    · exact hI.distinct S
  claimed S k hk := by
    rw [claimedFor_reserve] at hk
    split at hk
    · rcases List.mem_cons.1 hk with rfl | hk
      · refine hI.hosted k ?_
        rw [(claimable_eq_some.1 hr).1]
        exact Option.some_ne_none r
      · exact hI.claimed S k hk
    · exact hI.claimed S k hk
  leased k S hl := by
    rw [claimedFor_reserve]
    by_cases he : k = h
    · subst he
      rw [lease_reserve_self, Option.some.injEq] at hl
      rw [if_pos hl]
      exact List.mem_cons_self
    · rw [lease_reserve_of_ne w h r a he] at hl
      have hmem := hI.leased k S hl
      split
      · exact List.mem_cons_of_mem h hmem
      · exact hmem
  hosted k hk := by
    by_cases he : k = h
    · subst he
      refine hI.hosted k ?_
      rw [(claimable_eq_some.1 hr).1]
      exact Option.some_ne_none r
    · refine hI.hosted k ?_
      rwa [World.reserve, World.write, Keys.get_set_of_ne _ _ _ he] at hk
  listed g := nodup_delist w hI.listed h r.1.games g

theorem minds_saveSession (s : Session) (hd : s.id.uuid < w.nextUuid)
    (hc : s.state.terminal = false → Covered s s.attemptedHostIds w) : Minds (saveSession s) (fun _ _ => True) w := by
  have hP : Enduring fun w => s.id.uuid < w.nextUuid ∧ (s.state.terminal = false → Covered s s.attemptedHostIds w) :=
    fun w w' hq h => ⟨Nat.lt_of_lt_of_le h.1 hq.silent.nextUuid, fun hl => enduring_covered s _ w w' hq (h.2 hl)⟩
  unfold saveSession
  refine (minding.invoked .dateNow hP ⟨hd, hc⟩).seq fun n _ w₁ h₁ => ?_
  dsimp only
  refine Safe.seq (P := fun _ _ _ => True) (safe_send fun w' hr hI => ⟨trivial, fun _ => ?_⟩) fun _ _ w₂ _ => ?_
  · obtain rfl := hr rfl
    exact ⟨mindful_write (s := { s with updatedAt := n }) hI h₁.1 fun hl => (h₁.2 hl).hosts,
      fun u hu h0 => absurd h0 hu, trivial, trivial⟩
  · refine (minding.quiet rfl minding.stable_true trivial).seq fun _ _ w₃ _ => ?_
    exact (minding.quiet rfl minding.stable_true trivial).seq fun _ _ _ _ => trivial

/-! ## Allocation -/

theorem minds_claim {attempted : List HostId} {h : HostId} (hw : Covered s attempted w) (hnew : h ∉ attempted) :
    Minds (await (.claim h (allocatedTo s (sadd attempted h) h))) (fun _ => Covered s (sadd attempted h)) w := by
  refine safe_send fun w' hr hI => ⟨trivial, fun _ => ?_⟩
  obtain rfl := hr rfl
  obtain ⟨a, ha⟩ : ∃ a, a = allocatedTo s (sadd attempted h) h := ⟨_, rfl⟩
  rw [← ha]
  have hid : a.id = s.id := by rw [ha]; rfl
  have hsub : ∀ k ∈ claimedFor w'.trace s.id, k ∈ sadd attempted h := fun k hk => mem_sadd.2 (.inl (hw.hosts k hk))
  change Mindful (exec (.claim h a) w').2 ∧ _
  cases hc : w'.claimable h a.gameId with
  | none =>
    rw [show alone.machine.exec (.claim h a) w' = _ from exec_claim_none hc, exec_claim_none hc]
    exact ⟨hI, fun u hu h0 => absurd h0 hu, ⟨hw.drawn, hsub⟩, trivial⟩
  | some r =>
    have hcons : ∀ k ∈ h :: claimedFor w'.trace s.id, k ∈ sadd attempted h := by
      intro k hk
      rcases List.mem_cons.1 hk with rfl | hk
      · exact mem_sadd.2 (.inr rfl)
      · exact hsub k hk
    rw [show alone.machine.exec (.claim h a) w' = _ from exec_claim_some hc, exec_claim_some hc]
    refine ⟨mindful_reserve hI hc (by rw [hid]; exact hw.drawn) (by rw [hid]; exact fun hk => hnew (hw.hosts h hk)) ?_,
      fun u hu h0 => absurd h0 hu, ⟨hw.drawn, ?_⟩, trivial⟩
    · rw [hid, ha]
      exact hcons
    · dsimp only
      rw [claimedFor_reserve, if_pos hid]
      exact hcons

/-- The host is prepared, or is released again. -/
theorem minds_prepareOn {attempted : List HostId} (host : HostRecord) (hw : Covered s attempted w) :
    Minds (prepareOn s attempted host) (fun r w' => r = none → Covered s attempted w') w := by
  have hP := enduring_covered s attempted
  unfold prepareOn
  refine (minding.invoked .dateNow hP hw).seq fun now _ w₁ h₁ => ?_
  dsimp only
  refine (minding.invoked _ hP h₁).seq fun commandId _ w₂ h₂ => ?_
  split
  · refine (minding.quiet rfl hP h₂).seq fun _ _ w₃ h₃ => ?_
    exact fun _ => h₃
  · refine (minds_saveSession { allocatedTo s attempted host.hostId with
        state := .preparing, commandId := commandId, prepareDeadlineAt := some (now + prepareMillis) } h₂.drawn
      fun _ => ⟨h₂.drawn, h₂.hosts⟩).seq fun r _ w₃ _ => ?_
    exact (minding.quiet rfl minding.stable_true trivial).seq fun _ _ _ _ h => by cases h

/-- **The candidate loop**: every candidate is a host the session was not tried on. -/
theorem minds_claimFirst : ∀ (candidates : List HostRecord) (attempted : List HostId) {w : World},
    (candidates.map HostRecord.hostId).Nodup → (∀ x ∈ candidates, x.hostId ∉ attempted) → Covered s attempted w →
    Minds (claimFirst s attempted candidates) (fun r w' => r = none → s.id.uuid < w'.nextUuid) w
  | [], _, _, _, _, hw => fun _ => hw.drawn
  | host :: candidates, attempted, w, hnd, hnew, hw => by
    obtain ⟨hfirst, hnd⟩ := List.nodup_cons.1 hnd
    have hnew' := untried_of_cons hfirst hnew
    unfold claimFirst
    dsimp only
    refine (minds_claim hw (hnew host List.mem_cons_self)).seq fun claimed _ w₁ h₁ => ?_
    split
    · exact minds_claimFirst candidates _ hnd hnew' h₁
    · refine (minds_prepareOn host h₁).seq fun r _ w₂ h₂ => ?_
      cases r with
      | some a => exact fun h => absurd h (Option.some_ne_none a)
      | none => exact minds_claimFirst candidates _ hnd hnew' (h₂ rfl)

theorem minds_allocateSession (hw : Covered s s.attemptedHostIds w) :
    Minds (allocateSession s) (fun r w' => r = none → s.id.uuid < w'.nextUuid) w := by
  unfold allocateSession
  refine Safe.seq (P := fun ids _ w' => ids.Nodup ∧ Covered s s.attemptedHostIds w')
    (safe_send fun w' hr hI => ⟨trivial, fun _ => ?_⟩) fun ids _ w₁ h₁ => ?_
  · obtain rfl := hr rfl
    exact ⟨hI, fun u hu h0 => absurd h0 hu, ⟨hI.listed s.gameId, hw⟩, trivial⟩
  dsimp only
  split
  · exact fun _ => h₁.2.drawn
  obtain ⟨eligible, he⟩ : ∃ eligible, eligible = ids.filter (· ∉ s.attemptedHostIds) := ⟨_, rfl⟩
  rw [← he]
  refine Safe.seq (P := fun records _ w' => (∃ w'' : World, records = eligible.map w''.host) ∧
      Covered s s.attemptedHostIds w') (safe_send fun w' hr hI => ⟨trivial, fun _ => ?_⟩) fun records _ w₂ h₂ => ?_
  · obtain rfl := hr rfl
    exact ⟨hI, fun u hu h0 => absurd h0 hu, ⟨⟨w', rfl⟩, h₁.2⟩, trivial⟩
  obtain ⟨⟨w₀, hrec⟩, hw₂⟩ := h₂
  refine (minding.invoked .connected (enduring_covered s _) hw₂).seq fun connected _ w₃ h₃ => ?_
  obtain ⟨hnd, hnew⟩ := rankCandidates_hosts (s := s) connected hrec (by rw [he]; exact h₁.1.filter _)
    fun h hh => by rw [he] at hh; simpa using (List.mem_filter.1 hh).2
  exact minds_claimFirst _ _ hnd hnew h₃

/-! ## The handlers -/

/-- The copy of a record that a handler has read is stored, its state changed. -/
theorem minds_saveCopy (s' : Session) (h : Read s w) (hid : s'.id = s.id) (ha : s'.attemptedHostIds = s.attemptedHostIds)
    (hl : s'.state.terminal = false → s.state.terminal = false) : Minds (saveSession s') (fun _ _ => True) w := by
  refine minds_saveSession s' (by rw [hid]; exact h.drawn) fun ht => ?_
  obtain ⟨hd, hc⟩ := h.covered (hl ht)
  exact ⟨by rw [hid]; exact hd, by rw [hid, ha]; exact hc⟩

theorem minds_failSession (hd : s.id.uuid < w.nextUuid) (code : String) :
    Minds (failSession s code) (fun _ _ => True) w := by
  have hP : Enduring fun w => s.id.uuid < w.nextUuid := fun w w' hq h => Nat.lt_of_lt_of_le h hq.silent.nextUuid
  unfold failSession
  refine (minding.invoked .dateNow hP hd).seq fun now _ w₁ h₁ => ?_
  dsimp only
  refine (minding.released hP h₁).seq fun _ _ w₂ h₂ => ?_
  exact minds_saveSession { s with state := .failed, failureCode := some code, endedAt := some now } h₂ fun hl => by cases hl

theorem minds_failOrRetrySession (h : Read s w) (hl : s.state.terminal = false) (code : String) :
    Minds (failOrRetrySession s code) (fun _ _ => True) w := by
  unfold failOrRetrySession
  refine (minding.quiet rfl (enduring_read s) h).seq fun _ _ w₁ h₁ => ?_
  refine (minding.quiet rfl (enduring_read s) h₁).seq fun _ _ w₂ h₂ => ?_
  refine (minding.quiet rfl (enduring_read s) h₂).seq fun _ _ w₃ h₃ => ?_
  split
  · exact minds_failSession h₃.drawn code
  · obtain ⟨hd, hc⟩ := h₃.covered hl
    refine (minds_allocateSession (s := s.retried code) ⟨hd, hc⟩).seq fun r _ w₄ h₄ => ?_
    cases r with
    | some a => trivial
    | none => exact minds_failSession (s := s.retried code) (h₄ rfl) code

theorem passes_minding : minding.Passes where
  copy {s s' w} h hr := by
    obtain ⟨h, hl⟩ : Read s w ∧ s.state.terminal = false := h
    -- a copy keeps the hosts its record lists
    cases hr with
    | same => exact minds_saveCopy s h rfl rfl fun _ => hl
    | _ => exact minds_saveCopy _ h rfl rfl fun _ => hl
  retry code h := minds_failOrRetrySession h.1 h.2 code

theorem minds_postSessions {n : Nat} (hn : claimedFor w.trace ⟨n⟩ = []) (hu : n < w.nextUuid) (playerId : PlayerId)
    (request : SessionRequest) : Minds (postSessions ⟨n⟩ ⟨n⟩ playerId request) (fun _ _ => True) w := by
  refine minding.postSessions_keeps (P := fun w => claimedFor w.trace ⟨n⟩ = [] ∧ n < w.nextUuid)
    (fun w w' hq h => ⟨by rw [hq.claimed]; exact h.1, Nat.lt_of_lt_of_le h.2 hq.silent.nextUuid⟩)
    ⟨hn, hu⟩ playerId request ?_
  rintro createdAt w₁ h₁
  have hw : Covered (newSession ⟨n⟩ ⟨n⟩ createdAt playerId request) [] w₁ := by
    refine ⟨h₁.2, fun h hh => ?_⟩
    rw [show claimedFor w₁.trace (newSession ⟨n⟩ ⟨n⟩ createdAt playerId request).id = [] from h₁.1] at hh
    cases hh
  exact (minds_allocateSession hw).returns fun _ _ _ _ => trivial

theorem minds_postPresence (presence : Presence) (hp : presence.hostId ∈ registered w.trace) :
    Minds (postPresence presence) (fun _ _ => True) w := by
  refine minding.postPresence_keeps (P := fun w => presence.hostId ∈ registered w.trace) (fun w w' hq h => hq.announced h)
    hp presence fun now w₁ h₁ => ?_
  refine safe_send fun w' hr hI => ⟨trivial, fun _ => ?_⟩
  obtain rfl := hr rfl
  exact ⟨(claimless_presence w' presence now h₁).mindful hI, fun u hu h0 => absurd h0 hu, trivial, trivial⟩

/-- **Every handler claims hosts for a session only where they were not claimed for it before**, when no other runs. -/
theorem minds_program (hI : Mindful w) (r : Request) :
    Minds (r.program w.nextUuid) (fun _ _ => True) (w.arrived r) := by
  refine passes_minding.program r ?_ ?_
  · rintro playerId request rfl
    refine minds_postSessions ?_ (Nat.lt_succ_self _) playerId request
    by_contra hc
    exact Nat.lt_irrefl _ (hI.drawn ⟨w.nextUuid⟩ (.inr hc))
  · rintro p rfl
    exact minds_postPresence p (Finset.mem_insert_self _ _)

end minds

/-! ## Runs -/

theorem mindful_serve {w : World} (hI : Mindful w) (r : Request) : Mindful (w.serve r) := by
  have h : Mindful ((r.program w.nextUuid).runFaulty machine (fun _ => .answered) 0 (w.arrived r)).world :=
    ((minds_program hI r).runFaulty (fun _ _ => rfl) (fun _ _ _ => trivial) (fun _ => .answered) 0
      ((claimless_arrived w r).mindful hI)).1
  rwa [(Prog.runFaulty_answered machine (r.program w.nextUuid) 0 (w.arrived r)).2] at h

theorem mindful_handle {w : World} (hI : Mindful w) (i : Input) : Mindful (w.handle i) := by
  have ambient : ∀ a, Mindful (w.ambient a) := fun a => (claimless_ambient w a).mindful hI
  cases i with
  | request r => exact mindful_serve hI r
  | connect h => exact mindful_serve (ambient _) _
  | disconnect h =>
    simp only [World.handle]
    split
    · exact mindful_serve (ambient _) _
    · exact hI
  | ambient a => exact ambient a
  | elapse millis => exact (claimless_elapse w millis).mindful hI

theorem mindful_init (config : Config) : Mindful (World.init config) := by
  refine ⟨?_, ?_, fun _ => List.nodup_nil, ?_, ?_, ?_, fun _ => List.nodup_nil⟩ <;>
    simp [World.init, World.session, World.lease, Keys.get, claimedFor]

end Market
end CloudGaming
