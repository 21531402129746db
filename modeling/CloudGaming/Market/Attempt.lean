import CloudGaming.Market.Races
/-!
# Attempt — one candidate of the allocation loop

A candidate whose claim succeeds and whose `session.prepare` is refused is released again: the lease is gone, the host is
idle as before, and the session is left stored as reserved (`World.attempt`).
-/
namespace CloudGaming
namespace Market

open Async Redis

namespace World

/-- Whether `CLAIM_SCRIPT` takes the host for the game. -/
def claims (w : World) (g : GameId) (h : HostId) : Bool := (w.claimable h g).isSome

/-- The host is claimed for the session record `s` and released again. -/
def attempt (w : World) (h : HostId) (r : {r : HostRecord // r.hostId = h}) (s : Session) : World :=
  (w.reserve h r s).release h s.id

end World

section attempt
variable (w : World) {h : HostId} {g : GameId} {r : {r : HostRecord // r.hostId = h}}

theorem attempt_eq (h : HostId) (r : {r : HostRecord // r.hostId = h}) (s : Session) :
    w.attempt h r s = { w.reserve h r s with
      hosts := (w.reserve h r s).hosts.set h ⟨{ r.1 with state := .idle, sessionId := none }, r.2⟩
        (w.now + w.config.hostTtlSeconds * 1000)
      leases := (w.reserve h r s).leases.del h
      idle := World.enlist (w.reserve h r s).idle h r.1.games
      trace := .released h s.id :: .wrote s :: .claimed h s.id :: w.trace } := by
  have hl := lease_reserve_self w h r s
  have hh : (w.reserve h r s).hosts.get h = some ⟨{ r.1 with state := .reserved, sessionId := some s.id }, r.2⟩ := by
    simp [World.reserve, World.write]
  unfold World.attempt World.release
  rw [if_pos hl, hh]
  rfl

/-- The lease is gone: no other session held one on a host that was claimed. -/
theorem leases_attempt (hr : w.claimable h g = some r) (s : Session) : (w.attempt h r s).leases = w.leases := by
  have hn : w.leases h = none := Keys.get_eq_none.1 (claimable_eq_some.1 hr).2.1
  rw [attempt_eq]
  exact Keys.del_set w.leases s.id _ hn

theorem session_attempt (s : Session) (id : SessionId) :
    (w.attempt h r s).session id = if id = s.id then some s else w.session id := by
  rw [attempt_eq]
  exact session_reserve w h r s id

/-- An attempt touches only the host record, the idle sets, the session record and the history. -/
theorem attempt_frame (s : Session) :
    (w.attempt h r s).players = w.players ∧ (w.attempt h r s).prepareDeadlines = w.prepareDeadlines ∧
    (w.attempt h r s).sessionDeadlines = w.sessionDeadlines ∧
    (w.attempt h r s).disconnectDeadlines = w.disconnectDeadlines ∧ (w.attempt h r s).clients = w.clients ∧
    (w.attempt h r s).now = w.now ∧ (w.attempt h r s).config = w.config ∧ (w.attempt h r s).nextUuid = w.nextUuid := by
  rw [attempt_eq]
  exact ⟨rfl, rfl, rfl, rfl, rfl, rfl, rfl, rfl⟩

/-- **An attempt claims no host for good**: what could be claimed before can be claimed after. -/
theorem claims_attempt (hr : w.claimable h g = some r) (s : Session) (g' : GameId) (h' : HostId) :
    (w.attempt h r s).claims g' h' = w.claims g' h' := by
  obtain ⟨hh, hl, hst, -⟩ := claimable_eq_some.1 hr
  have hlease : (w.attempt h r s).lease = w.lease := by
    funext k; simp only [World.lease, leases_attempt w hr]
  by_cases hne : h' = h
  · subst hne
    have hget : (w.attempt h' r s).hosts.get h' = some ⟨{ r.1 with state := .idle, sessionId := none }, r.2⟩ := by
      simp [attempt_eq]
    simp [World.claims, World.claimable, hlease, hl, hh, hget, hst, HostRecord.offers]
  · have hget : (w.attempt h r s).hosts.get h' = w.hosts.get h' := by
      simp [attempt_eq, World.reserve, World.write, Keys.get_set_of_ne _ _ _ hne]
    simp only [World.claims, World.claimable, hlease, hget]

theorem deliverable_attempt (s : Session) : (w.attempt h r s).deliverable = w.deliverable := by
  funext k; simp only [World.deliverable, (attempt_frame w s).2.2.2.2.1]

end attempt

section claim
variable {w : World} {h : HostId} {s : Session} (attempted : List HostId)

theorem exec_claim_refused (hr : w.claimable h s.gameId = none) :
    machine.exec (.claim h (allocatedTo s attempted h)) w = (none, w) := by
  change exec (.claim h (allocatedTo s attempted h)) w = (none, w)
  simp only [exec, allocatedTo, hr]

theorem exec_claim_granted {r : {r : HostRecord // r.hostId = h}} (hr : w.claimable h s.gameId = some r) :
    machine.exec (.claim h (allocatedTo s attempted h)) w =
      (some { r.1 with state := .reserved, sessionId := some s.id }, w.reserve h r (allocatedTo s attempted h)) := by
  change exec (.claim h (allocatedTo s attempted h)) w = _
  simp only [exec, allocatedTo, hr]

end claim

end Market
end CloudGaming
