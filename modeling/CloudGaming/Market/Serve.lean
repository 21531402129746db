import CloudGaming.Market.Create
/-!
# Serve — what each function of the matchmaker does alone

The world a function leaves when it runs to completion and every command is answered, in terms of the transformations of
`Store`.  The candidate loop leaves the world of its refused attempts (`Tries`), or of a delivered prepare on top of them
(`Delivers`).
-/
namespace CloudGaming
namespace Market

open Async Redis

namespace World

/-- The record `saveSession` stores. -/
def stamped (w : World) (s : Session) : Session := { s with updatedAt := w.now }

def save (w : World) (s : Session) : World := w.write (w.stamped s)

def releaseHost (w : World) : Option HostId → SessionId → World
  | none, _ => w
  | some h, id => w.release h id

def releasePlayer (w : World) (s : Session) : World :=
  if w.player s.playerId = some s.id then w.unlockPlayer s.playerId else w

/-- Both deadlines of the session are removed. -/
def untimed (w : World) (id : SessionId) : World :=
  { w with prepareDeadlines := w.prepareDeadlines.zrem id, sessionDeadlines := w.sessionDeadlines.zrem id }

/-- `controlGateway.send`. -/
def sendTo (w : World) : Option HostId → Command → World
  | none, _ => w
  | some h, c => if w.deliverable h then w.dispatch h c else w

def failed (w : World) (s : Session) (code : String) : Session :=
  { s with state := .failed, failureCode := some code, endedAt := some w.now }

def fail (w : World) (s : Session) (code : String) : World := (w.releasePlayer (w.failed s code)).save (w.failed s code)

/-- The record of a session whose prepare was delivered to `h`. -/
def preparing (w : World) (s : Session) (attempted : List HostId) (h : HostId) : Session :=
  { allocatedTo s attempted h with
    state := .preparing, commandId := some ⟨w.nextUuid⟩, prepareDeadlineAt := some (w.now + prepareMillis),
    updatedAt := w.now }

/-- Host `h`, whose record is `r`, is claimed and takes the prepare; `host` is the record the candidate was read as. -/
def deliver (w : World) (s : Session) (attempted : List HostId) (host : HostRecord)
    (r : {r : HostRecord // r.hostId = host.hostId}) : World :=
  let w₁ := ((w.reserve host.hostId r (allocatedTo s attempted host.hostId)).dispatch host.hostId
    (prepareCommand s host (w.now + prepareMillis))).write (w.preparing s attempted host.hostId)
  { w₁ with prepareDeadlines := w₁.prepareDeadlines.zadd s.id (w.now + prepareMillis) }

end World

/-! ## The functions the handlers share -/

section run
variable (w : World)

theorem run_saveSession (s : Session) : (saveSession s).run machine w = (some (w.stamped s), w.save s) := rfl

theorem run_loadSession (id : SessionId) : (loadSession id).run machine w = (some (w.session id), w) := rfl

theorem run_releaseHost (h : Option HostId) (id : SessionId) :
    ∃ b, (releaseHost h id).run machine w = (some b, w.releaseHost h id) := by
  cases h with
  | none => exact ⟨_, rfl⟩
  | some h => exact ⟨_, rfl⟩

theorem run_releasePlayer (s : Session) : (releasePlayer s).run machine w = (some (), w.releasePlayer s) := by
  unfold releasePlayer World.releasePlayer
  rw [Prog.run_send_bind, show machine.exec (.getPlayer s.playerId) w = (w.player s.playerId, w) from rfl]
  split <;> rfl

theorem run_send (h : Option HostId) (c : Command) :
    ∃ r, (invoke (.send h c)).run machine w = (some r, w.sendTo h c) := by
  cases h with
  | none => exact ⟨none, rfl⟩
  | some h =>
    by_cases hd : w.deliverable h = true
    · exact ⟨some ⟨w.nextUuid⟩, by
        rw [Prog.run_invoke, show machine.call (.send (some h) c) w = _ from call_send_some hd c]; simp [World.sendTo, hd]⟩
    · exact ⟨none, by
        rw [Bool.not_eq_true] at hd
        rw [Prog.run_invoke, show machine.call (.send (some h) c) w = _ from call_send_none hd c]; simp [World.sendTo, hd]⟩

theorem run_failSession (s : Session) (code : String) :
    ∃ s', (failSession s code).run machine w = (some s', w.fail s code) := by
  unfold failSession
  rw [Prog.run_invoke_bind]
  dsimp only
  rw [Prog.run_bind_some machine (run_releasePlayer _ _)]
  exact ⟨_, run_saveSession _ _⟩

end run

/-! ## The candidate loop -/

/-- The refused attempts of the loop. -/
inductive Tries (s : Session) : World → World → Prop
  | refl (w : World) : Tries s w w
  | attempt {w w' : World} {h : HostId} {r : {r : HostRecord // r.hostId = h}} (attempted : List HostId)
      (hmem : h ∈ attempted) (hr : w.claimable h s.gameId = some r) (hd : w.deliverable h = false)
      (rest : Tries s (w.attempt h r (allocatedTo s attempted h)) w') : Tries s w w'

/-- The prepare of `s` is delivered to a host it was not tried on before; `a` is the record stored. -/
structure Delivers (s : Session) (w : World) (a : Session) (w' : World) : Prop where
  deliver : ∃ attempted host r, w.claimable host.hostId s.gameId = some r ∧ w.deliverable host.hostId = true ∧
    host.hostId ∉ s.attemptedHostIds ∧ host.hostId ∈ attempted ∧ (∀ h ∈ s.attemptedHostIds, h ∈ attempted) ∧
    a = w.preparing s attempted host.hostId ∧ w' = w.deliver s attempted host r

/-- How the loop ends. -/
inductive Allocates (s : Session) (w : World) : Option Session → World → Prop
  | refused {w' : World} (ht : Tries s w w') : Allocates s w none w'
  | delivered {w₁ w' : World} {a : Session} (ht : Tries s w w₁) (hd : Delivers s w₁ a w') : Allocates s w (some a) w'

theorem Allocates.attempt {s : Session} {w w' : World} {h : HostId} {r : {r : HostRecord // r.hostId = h}} {o : Option Session}
    (attempted : List HostId) (hmem : h ∈ attempted) (hr : w.claimable h s.gameId = some r) (hd : w.deliverable h = false)
    (ha : Allocates s (w.attempt h r (allocatedTo s attempted h)) o w') : Allocates s w o w' := by
  cases ha with
  | refused ht => exact .refused (.attempt attempted hmem hr hd ht)
  | delivered ht hd' => exact .delivered (.attempt attempted hmem hr hd ht) hd'

section loop
variable {s : Session}

theorem run_prepareOn_taken {w : World} {host : HostRecord} {r : {r : HostRecord // r.hostId = host.hostId}}
    (hd : w.deliverable host.hostId = true) (attempted : List HostId) :
    (prepareOn s attempted host).run machine (w.reserve host.hostId r (allocatedTo s attempted host.hostId)) =
      (some (some (w.preparing s attempted host.hostId)), w.deliver s attempted host r) := by
  have hc : machine.call (.send (some host.hostId) (prepareCommand s host (w.now + prepareMillis)))
      (w.reserve host.hostId r (allocatedTo s attempted host.hostId)) = _ :=
    call_send_some (w := w.reserve host.hostId r (allocatedTo s attempted host.hostId)) hd _
  unfold prepareOn
  rw [Prog.run_invoke_bind]
  dsimp only
  rw [Prog.run_invoke_bind, show machine.call .dateNow (w.reserve host.hostId r (allocatedTo s attempted host.hostId)) =
    (w.now, w.reserve host.hostId r (allocatedTo s attempted host.hostId)) from rfl, hc, if_neg (by simp)]
  rfl

theorem run_prepareOn_refused {w : World} {host : HostRecord} {r : {r : HostRecord // r.hostId = host.hostId}}
    (hd : w.deliverable host.hostId = false) (attempted : List HostId) :
    (prepareOn s attempted host).run machine (w.reserve host.hostId r (allocatedTo s attempted host.hostId)) =
      (some none, w.attempt host.hostId r (allocatedTo s attempted host.hostId)) := by
  have hc : machine.call (.send (some host.hostId) (prepareCommand s host (w.now + prepareMillis)))
      (w.reserve host.hostId r (allocatedTo s attempted host.hostId)) = _ :=
    call_send_none (w := w.reserve host.hostId r (allocatedTo s attempted host.hostId)) hd _
  unfold prepareOn
  rw [Prog.run_invoke_bind]
  dsimp only
  rw [Prog.run_invoke_bind, show machine.call .dateNow (w.reserve host.hostId r (allocatedTo s attempted host.hostId)) =
    (w.now, w.reserve host.hostId r (allocatedTo s attempted host.hostId)) from rfl, hc, if_pos (by simp)]
  rfl

theorem run_claimFirst : ∀ (hosts : List HostRecord) (attempted : List HostId) (w : World),
    (∀ x ∈ hosts, x.hostId ∉ s.attemptedHostIds) → (∀ h ∈ s.attemptedHostIds, h ∈ attempted) →
    ∃ o w', (claimFirst s attempted hosts).run machine w = (some o, w') ∧ Allocates s w o w'
  | [], _, w, _, _ => ⟨none, w, rfl, .refused (.refl w)⟩
  | host :: hosts, attempted, w, hnew, hsub => by
    have hnew' : ∀ x ∈ hosts, x.hostId ∉ s.attemptedHostIds := fun x hx => hnew x (List.mem_cons_of_mem _ hx)
    have hsub' : ∀ h ∈ s.attemptedHostIds, h ∈ sadd attempted host.hostId := fun h hh => mem_sadd.2 (.inl (hsub h hh))
    unfold claimFirst
    dsimp only
    rw [Prog.run_send_bind]
    cases hr : w.claimable host.hostId s.gameId with
    | none =>
      rw [exec_claim_refused _ hr, if_pos (by simp)]
      exact run_claimFirst hosts _ w hnew' hsub'
    | some r =>
      rw [exec_claim_granted _ hr, if_neg (by simp)]
      by_cases hd : w.deliverable host.hostId = true
      · rw [Prog.run_bind_some machine (run_prepareOn_taken hd _)]
        refine ⟨_, _, rfl, .delivered (.refl w) ⟨_, host, r, hr, hd, hnew host List.mem_cons_self, mem_sadd.2 (.inr rfl), hsub', rfl, rfl⟩⟩
      · rw [Bool.not_eq_true] at hd
        rw [Prog.run_bind_some machine (run_prepareOn_refused hd _)]
        obtain ⟨o, w', h, ha⟩ := run_claimFirst hosts (sadd attempted host.hostId)
          (w.attempt host.hostId r (allocatedTo s (sadd attempted host.hostId) host.hostId)) hnew' hsub'
        exact ⟨o, w', h, ha.attempt _ (mem_sadd.2 (.inr rfl)) hr hd⟩

end loop

end Market
end CloudGaming
