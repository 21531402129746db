import CloudGaming.Market.Serve
/-!
# View — one session seen alone

`World.view` is what the store holds of one session: its record, the hosts that lease it and until when, its two
deadlines, the greetings and the commands about it in the sockets, and the hosts that were told to prepare it and have
not reported since.  `Frame` says that a change is about one session: every other session keeps its view.
-/
namespace CloudGaming
namespace Market

open Async Redis

/-- What a packet is to a session. -/
inductive Mail where
  | ready | prepare | stop
  deriving DecidableEq, Repr

def Packet.mail (id : SessionId) : Packet → Option Mail
  | .ready _ => some .ready
  | .command _ (.prepare id' ..) => if id' = id then some .prepare else none
  | .command _ (.stop id' _) => if id' = id then some .stop else none

/-- Whether an event from the host tells that it does not run the session. -/
def HostEvent.clears (id : SessionId) (e : HostEvent) : Prop :=
  match e.type with
  | .ended | .failed => e.sessionId = some id
  | .hello => e.sessionId ≠ some id
  | _ => False

instance (id : SessionId) (e : HostEvent) : Decidable (e.clears id) :=
  match h : e.type with
  | .ended | .failed => decidable_of_iff (e.sessionId = some id) (by simp [HostEvent.clears, h])
  | .hello => decidable_of_iff (e.sessionId ≠ some id) (by simp [HostEvent.clears, h])
  | .launchAck | .gameReady | .streamConnected => isFalse (by simp [HostEvent.clears, h])

/-- A prepare of the session was handed to the host's socket, and nothing the host reported since tells that the host
does not run it. -/
def Unheard : List Obs → HostId → SessionId → Prop
  | [], _, _ => False
  | .prepared h' id' :: tr, h, id => h' = h ∧ id' = id ∨ Unheard tr h id
  | .heard h' e :: tr, h, id => Unheard tr h id ∧ ¬(h' = h ∧ e.clears id)
  | .presence h' state :: tr, h, id => Unheard tr h id ∧ ¬(h' = h ∧ state = .idle)
  | _ :: tr, h, id => Unheard tr h id

instance decidableUnheard : (tr : List Obs) → (h : HostId) → (id : SessionId) → Decidable (Unheard tr h id)
  | [], _, _ => isFalse fun hu => hu
  | .prepared h' id' :: tr, h, id => @instDecidableOr (h' = h ∧ id' = id) _ _ (decidableUnheard tr h id)
  | .heard h' e :: tr, h, id => @instDecidableAnd _ (¬(h' = h ∧ e.clears id)) (decidableUnheard tr h id) _
  | .presence h' state :: tr, h, id => @instDecidableAnd _ (¬(h' = h ∧ state = .idle)) (decidableUnheard tr h id) _
  | .wrote _ :: tr, h, id | .claimed .. :: tr, h, id | .released .. :: tr, h, id => decidableUnheard tr h id

/-- What the store holds of one session. -/
@[ext] structure View where
  record : Option Session
  lease : HostId → Option Nat
  prepareAt : Option Nat
  endsAt : Option Nat
  mail : HostId → List Mail
  unheard : HostId → Prop

namespace World

def outbox (w : World) (h : HostId) : List Packet := (w.clients h).elim [] Socket.outbox

def view (w : World) (id : SessionId) : View where
  record := w.session id
  lease h := (w.leases h).bind fun e => if e.val = id then some e.expireAt else none
  prepareAt := w.prepareDeadlines.score id
  endsAt := w.sessionDeadlines.score id
  mail h := (w.outbox h).filterMap (Packet.mail id)
  unheard h := Unheard w.trace h id

end World

theorem view_lease_eq {w : World} {id : SessionId} {h : HostId} :
    ((w.view id).lease h).isSome = true ↔ w.lease h = some id := by
  unfold World.view World.lease Keys.get
  cases hl : w.leases h with
  | none => simp [hl]
  | some e => by_cases he : e.val = id <;> simp [hl, he]

theorem view_lease_none {w : World} {id : SessionId} {h : HostId} : (w.view id).lease h = none ↔ w.lease h ≠ some id := by
  rw [ne_eq, ← view_lease_eq]
  cases (w.view id).lease h <;> simp

/-! ## What the transformations do to a view -/

namespace View

/-- Nothing of the session is leased, scheduled or prepared. -/
structure Unborn (v : View) : Prop where
  record : v.record = none
  lease : ∀ h, v.lease h = none
  prepareAt : v.prepareAt = none
  endsAt : v.endsAt = none
  mail : ∀ h, .prepare ∉ v.mail h
  unheard : ∀ h, ¬v.unheard h

/-- `controlGateway.send` of a `session.stop`. -/
def stop (v : View) (deliverable : HostId → Bool) : Option HostId → View
  | none => v
  | some h => if deliverable h then { v with mail := Function.update v.mail h (v.mail h ++ [.stop]) } else v

def untimed (v : View) : View := { v with prepareAt := none, endsAt := none }

def freed (v : View) (h : Option HostId) : View := { v with lease := fun k => if h = some k then none else v.lease k }

/-- The host is released and both deadlines are removed. -/
def drop (v : View) (h : Option HostId) : View := (v.freed h).untimed

/-- The prepare is delivered: the host is leased until 300 seconds past the duration, and has not reported yet. -/
def deliver (v : View) (s : Session) (attempted : List HostId) (h : HostId) (c : CommandId) (now : Nat) : View where
  record := some { allocatedTo s attempted h with
    state := .preparing, commandId := some c, prepareDeadlineAt := some (now + prepareMillis), updatedAt := now }
  lease := Function.update v.lease h (some (now + (s.durationSeconds + 300) * 1000))
  prepareAt := some (now + prepareMillis)
  endsAt := v.endsAt
  mail := Function.update v.mail h (v.mail h ++ [.prepare])
  unheard := Function.update v.unheard h True

end View

/-! ## One session changes, the others stay -/

namespace World

/-- The disconnect deadline of the host is over. -/
def late (w : World) (h : HostId) : Prop := ∃ n, w.disconnectDeadlines.score h = some n ∧ n ≤ w.now

end World

/-- An observation about session `S`; a host it was granted was leased to no other session in `w`. -/
def Obs.within (S : SessionId) (w : World) : Obs → Prop
  | .wrote s => s.id = S
  | .claimed h id => id = S ∧ ∀ id', id' ≠ S → w.lease h ≠ some id'
  | .released _ id | .prepared _ id => id = S
  | .heard .. | .presence .. => False

/-- What a change that is about session `S` leaves: the other sessions, the clock and the sockets. -/
structure Frame (S : SessionId) (w w' : World) : Prop where
  view : ∀ id, id ≠ S → w'.view id = w.view id
  now : w'.now = w.now
  connected : w'.connected = w.connected
  deliverable : w'.deliverable = w.deliverable
  nextUuid : w.nextUuid ≤ w'.nextUuid
  disconnectDeadlines : w'.disconnectDeadlines = w.disconnectDeadlines
  history : ∃ ext, w'.trace = ext ++ w.trace ∧ ∀ o ∈ ext, o.within S w

/-- A change that is about no session. -/
structure Still (w w' : World) : Prop where
  view : ∀ id, w'.view id = w.view id
  now : w'.now = w.now
  connected : w'.connected = w.connected
  deliverable : w'.deliverable = w.deliverable
  nextUuid : w.nextUuid ≤ w'.nextUuid
  late : ∀ h, w'.late h → w.late h
  history : w'.trace = w.trace

section frame
variable {S : SessionId} {w w' w'' : World}

theorem Frame.refl (S : SessionId) (w : World) : Frame S w w :=
  ⟨fun _ _ => rfl, rfl, rfl, rfl, Nat.le_refl _, rfl, [], rfl, by simp⟩

theorem Obs.within_mono {o : Obs} (hv : ∀ id, id ≠ S → w'.view id = w.view id) (h : o.within S w') : o.within S w := by
  cases o with
  | claimed h id =>
    obtain ⟨hid, hl⟩ := h
    refine ⟨hid, fun id' hne => view_lease_none.1 ?_⟩
    rw [← hv id' hne]
    exact view_lease_none.2 (hl id' hne)
  | _ => exact h

theorem Frame.trans (h : Frame S w w') (h' : Frame S w' w'') : Frame S w w'' where
  view id hne := (h'.view id hne).trans (h.view id hne)
  now := h'.now.trans h.now
  connected := h'.connected.trans h.connected
  deliverable := h'.deliverable.trans h.deliverable
  nextUuid := Nat.le_trans h.nextUuid h'.nextUuid
  disconnectDeadlines := h'.disconnectDeadlines.trans h.disconnectDeadlines
  history := by
    obtain ⟨ext, ht, ho⟩ := h.history
    obtain ⟨ext', ht', ho'⟩ := h'.history
    refine ⟨ext' ++ ext, by rw [ht', ht, List.append_assoc], fun o hmem => ?_⟩
    rcases List.mem_append.1 hmem with hmem | hmem
    · exact Obs.within_mono h.view (ho' o hmem)
    · exact ho o hmem

/-- A change that leaves the sockets alone. -/
theorem Frame.of_clients (hv : ∀ id, id ≠ S → w'.view id = w.view id) (hc : w'.clients = w.clients) (hn : w'.now = w.now)
    (hu : w.nextUuid ≤ w'.nextUuid) (hd : w'.disconnectDeadlines = w.disconnectDeadlines)
    (ht : ∃ ext, w'.trace = ext ++ w.trace ∧ ∀ o ∈ ext, o.within S w) : Frame S w w' where
  view := hv
  now := hn
  connected := by funext k; simp only [World.connected, hc]
  deliverable := by funext k; simp only [World.deliverable, hc]
  nextUuid := hu
  disconnectDeadlines := hd
  history := ht

theorem Frame.late (h : Frame S w w') (k : HostId) : w'.late k ↔ w.late k := by
  simp only [World.late, h.disconnectDeadlines, h.now]

end frame

section views
variable (w : World) {S id : SessionId}

theorem view_write (s : Session) : (w.write s).view s.id = { w.view s.id with record := some s } :=
  View.ext (session_write_self w s) rfl rfl rfl rfl rfl

theorem frame_write (s : Session) : Frame s.id w (w.write s) :=
  .of_clients (fun _ h => View.ext (session_write_of_ne w s h) rfl rfl rfl rfl rfl) rfl rfl (Nat.le_refl _) rfl
    ⟨[.wrote s], rfl, by simp [Obs.within]⟩

/-! Leases -/

theorem trace_release (h : HostId) : (w.release h S).trace = w.trace ∨ (w.release h S).trace = .released h S :: w.trace := by
  unfold World.release
  split
  · split <;> exact .inr rfl
  · exact .inl rfl

theorem unheard_release (h k : HostId) : Unheard (w.release h S).trace k id = Unheard w.trace k id := by
  rcases trace_release w (S := S) h with ht | ht <;> rw [ht]
  rfl

theorem view_release (h : HostId) : (w.release h S).view S = (w.view S).freed (some h) := by
  obtain ⟨hs, -, hp, hd, -, hc, -⟩ := release_frame w h S
  refine View.ext ?_ ?_ ?_ ?_ ?_ ?_
  · simp only [World.view, World.session, hs, View.freed]
  · funext k
    by_cases hk : k = h
    · subst hk
      simp only [View.freed, if_true]
      exact view_lease_none.2 (lease_release_self w k S)
    · simp only [View.freed, Option.some.injEq, Ne.symm hk, if_false]
      by_cases heq : w.lease h = some S
      · simp only [World.view, leases_release w heq, Keys.del_of_ne _ hk]
      · rw [release_of_ne w heq]
  · simp only [World.view, hp, View.freed]
  · simp only [World.view, hd, View.freed]
  · funext k; simp only [World.view, World.outbox, hc, View.freed]
  · funext k; exact unheard_release w h k

theorem frame_release (h : HostId) : Frame S w (w.release h S) := by
  obtain ⟨hs, -, hp, hd, hdd, hc, hn, -, hu⟩ := release_frame w h S
  refine .of_clients (fun id hne => View.ext ?_ ?_ ?_ ?_ ?_ ?_) hc hn (Nat.le_of_eq hu.symm) hdd ?_
  · simp only [World.view, World.session, hs]
  · funext k
    by_cases heq : w.lease h = some S
    · by_cases hk : k = h
      · subst hk
        have : w.lease k ≠ some id := by rw [heq]; simpa using hne.symm
        rw [view_lease_none.2 this]
        exact view_lease_none.2 fun hl => by rw [World.lease, leases_release w heq, Keys.get_del_self] at hl; cases hl
      · simp only [World.view, leases_release w heq, Keys.del_of_ne _ hk]
    · rw [release_of_ne w heq]
  · simp only [World.view, hp]
  · simp only [World.view, hd]
  · funext k; simp only [World.view, World.outbox, hc]
  · funext k; exact unheard_release w h k
  · rcases trace_release w (S := S) h with ht | ht
    · exact ⟨[], ht, by simp⟩
    · exact ⟨[.released h S], ht, by simp [Obs.within]⟩

theorem view_releaseHost (h : Option HostId) : (w.releaseHost h S).view S = (w.view S).freed h := by
  cases h with
  | none => exact View.ext rfl (by funext k; simp [World.releaseHost, View.freed]) rfl rfl rfl rfl
  | some h => exact view_release w h

theorem frame_releaseHost (h : Option HostId) : Frame S w (w.releaseHost h S) := by
  cases h with
  | none => exact .refl S w
  | some h => exact frame_release w h

theorem trace_attempt {h : HostId} {r : {r : HostRecord // r.hostId = h}} (s : Session) :
    (w.attempt h r s).trace = .released h s.id :: .wrote s :: .claimed h s.id :: w.trace := by rw [attempt_eq]

/-- A host that is claimed is leased to nobody. -/
theorem lease_claimed {h : HostId} {g : GameId} {r : {r : HostRecord // r.hostId = h}} (hr : w.claimable h g = some r)
    (id : SessionId) : w.lease h ≠ some id := by
  rw [(claimable_eq_some.1 hr).2.1]; nofun

theorem view_attempt {h : HostId} {g : GameId} {r : {r : HostRecord // r.hostId = h}} (hr : w.claimable h g = some r)
    (s : Session) : (w.attempt h r s).view s.id = { w.view s.id with record := some s } := by
  obtain ⟨-, hp, hd, -, hc, -⟩ := attempt_frame w (r := r) s
  refine View.ext (by simp only [World.view, session_attempt, if_true]) ?_ ?_ ?_ ?_ ?_
  · simp only [World.view, leases_attempt w hr]
  · simp only [World.view, hp]
  · simp only [World.view, hd]
  · funext k; simp only [World.view, World.outbox, hc]
  · funext k; simp only [World.view, trace_attempt]; rfl

theorem frame_attempt {h : HostId} {g : GameId} {r : {r : HostRecord // r.hostId = h}} (hr : w.claimable h g = some r)
    (s : Session) : Frame s.id w (w.attempt h r s) := by
  obtain ⟨-, hp, hd, hdd, hc, hn, -, hu⟩ := attempt_frame w (r := r) s
  refine .of_clients (fun id hne => View.ext ?_ ?_ ?_ ?_ ?_ ?_) hc hn (Nat.le_of_eq hu.symm) hdd
    ⟨[_, _, _], trace_attempt w s, ?_⟩
  · simp only [World.view, session_attempt, if_neg hne]
  · simp only [World.view, leases_attempt w hr]
  · simp only [World.view, hp]
  · simp only [World.view, hd]
  · funext k; simp only [World.view, World.outbox, hc]
  · funext k; simp only [World.view, trace_attempt]; rfl
  · simp [Obs.within, lease_claimed w hr]

/-! Deadlines and player locks -/

theorem frame_deadlines {P D : ZSet SessionId} (hp : ∀ id, id ≠ S → P.score id = w.prepareDeadlines.score id)
    (hd : ∀ id, id ≠ S → D.score id = w.sessionDeadlines.score id) :
    Frame S w { w with prepareDeadlines := P, sessionDeadlines := D } :=
  .of_clients (fun id h => View.ext rfl rfl (hp id h) (hd id h) rfl rfl) rfl rfl (Nat.le_refl _) rfl ⟨[], rfl, by simp⟩

theorem view_untimed : (w.untimed S).view S = (w.view S).untimed := by
  simp [World.untimed, World.view, View.untimed, World.session, World.outbox]

theorem frame_untimed : Frame S w (w.untimed S) :=
  frame_deadlines w (fun _ h => ZSet.score_zrem_of_ne _ h) fun _ h => ZSet.score_zrem_of_ne _ h

theorem view_releasePlayer (s : Session) : (w.releasePlayer s).view id = w.view id := by
  unfold World.releasePlayer
  split <;> rfl

theorem frame_releasePlayer (s : Session) : Frame S w (w.releasePlayer s) := by
  unfold World.releasePlayer
  split
  · exact .of_clients (fun _ _ => rfl) rfl rfl (Nat.le_refl _) rfl ⟨[], rfl, by simp⟩
  · exact .refl S w

/-! Sockets -/

theorem outbox_dispatch {h : HostId} (hd : w.deliverable h = true) (c : Command) (k : HostId) :
    (w.dispatch h c).outbox k = w.outbox k ++ if k = h then [.command ⟨w.nextUuid⟩ c] else [] := by
  have hsome : (w.clients h).isSome := by
    unfold World.deliverable at hd
    cases hc : w.clients h with
    | none => rw [hc] at hd; cases hd
    | some s => rfl
  have hclients : (w.dispatch h c).clients = Function.update w.clients h
      ((w.clients h).map fun s => { s with outbox := s.outbox ++ [.command ⟨w.nextUuid⟩ c] }) := by cases c <;> rfl
  obtain ⟨s, hs⟩ := Option.isSome_iff_exists.1 hsome
  unfold World.outbox
  rw [hclients]
  by_cases hk : k = h
  · subst hk; simp [hs]
  · simp [hk]

theorem connected_dispatch (h : HostId) (c : Command) : (w.dispatch h c).connected = w.connected := by
  funext k
  have hclients : (w.dispatch h c).clients = Function.update w.clients h
      ((w.clients h).map fun s => { s with outbox := s.outbox ++ [.command ⟨w.nextUuid⟩ c] }) := by cases c <;> rfl
  unfold World.connected
  rw [hclients]
  by_cases hk : k = h
  · subst hk; cases w.clients k <;> simp
  · simp [hk]

theorem deliverable_dispatch (h : HostId) (c : Command) : (w.dispatch h c).deliverable = w.deliverable := by
  funext k
  have hclients : (w.dispatch h c).clients = Function.update w.clients h
      ((w.clients h).map fun s => { s with outbox := s.outbox ++ [.command ⟨w.nextUuid⟩ c] }) := by cases c <;> rfl
  unfold World.deliverable
  rw [hclients]
  by_cases hk : k = h
  · subst hk; cases w.clients k <;> simp
  · simp [hk]

theorem mail_dispatch {h : HostId} (hd : w.deliverable h = true) (c : Command) (id : SessionId) :
    ((w.dispatch h c).view id).mail = Function.update (w.view id).mail h
      ((w.view id).mail h ++ (Packet.mail id (.command ⟨w.nextUuid⟩ c)).toList) := by
  funext k
  simp only [World.view, outbox_dispatch w hd]
  by_cases hk : k = h
  · subst hk
    simp only [if_true, Function.update_self, List.filterMap_append]
    cases hm : Packet.mail id (.command ⟨w.nextUuid⟩ c) <;> simp [hm]
  · simp [hk]

theorem view_sendTo_stop (h : Option HostId) (reason : String) :
    (w.sendTo h (.stop S reason)).view S = (w.view S).stop w.deliverable h := by
  cases h with
  | none => rfl
  | some h =>
    unfold World.sendTo View.stop
    dsimp only
    split
    · rename_i hd
      exact View.ext rfl rfl rfl rfl (by rw [mail_dispatch w hd]; simp [Packet.mail]) rfl
    · rfl

theorem frame_sendTo_stop (h : Option HostId) (reason : String) : Frame S w (w.sendTo h (.stop S reason)) := by
  cases h with
  | none => exact .refl S w
  | some h =>
    unfold World.sendTo
    dsimp only
    split
    · rename_i hd
      refine ⟨fun id hne => View.ext rfl rfl rfl rfl ?_ rfl, rfl, connected_dispatch w h _, deliverable_dispatch w h _,
        Nat.le_succ _, rfl, [], rfl, by simp⟩
      rw [mail_dispatch w hd]
      have hm : Packet.mail id (.command ⟨w.nextUuid⟩ (.stop S reason)) = none := by simp [Packet.mail, hne.symm]
      rw [hm]; simp
    · exact .refl S w

/-! Deliveries -/

theorem deliver_eq (s : Session) (attempted : List HostId) (host : HostRecord)
    (r : {r : HostRecord // r.hostId = host.hostId}) :
    (w.deliver s attempted host r).leases = w.leases.set host.hostId s.id (w.now + (s.durationSeconds + 300) * 1000) ∧
    (w.deliver s attempted host r).prepareDeadlines = w.prepareDeadlines.zadd s.id (w.now + prepareMillis) ∧
    (w.deliver s attempted host r).sessionDeadlines = w.sessionDeadlines ∧
    (w.deliver s attempted host r).disconnectDeadlines = w.disconnectDeadlines ∧
    (w.deliver s attempted host r).clients = (w.dispatch host.hostId (prepareCommand s host (w.now + prepareMillis))).clients ∧
    (w.deliver s attempted host r).now = w.now ∧
    (w.deliver s attempted host r).nextUuid = w.nextUuid + 1 ∧
    (w.deliver s attempted host r).trace = .wrote (w.preparing s attempted host.hostId) :: .prepared host.hostId s.id ::
      .wrote (allocatedTo s attempted host.hostId) :: .claimed host.hostId s.id :: w.trace :=
  ⟨rfl, rfl, rfl, rfl, rfl, rfl, rfl, rfl⟩

theorem session_deliver (s : Session) (attempted : List HostId) (host : HostRecord)
    (r : {r : HostRecord // r.hostId = host.hostId}) (id : SessionId) :
    (w.deliver s attempted host r).session id = if id = s.id then some (w.preparing s attempted host.hostId) else w.session id := by
  change (World.write _ _).session id = _
  rw [session_write, show (w.preparing s attempted host.hostId).id = s.id from rfl]
  split
  · rfl
  · rename_i hne
    exact (session_reserve w _ r _ id).trans (if_neg hne)

theorem view_deliver {s : Session} {host : HostRecord} {r : {r : HostRecord // r.hostId = host.hostId}}
    (hd : w.deliverable host.hostId = true) (attempted : List HostId) :
    (w.deliver s attempted host r).view s.id = (w.view s.id).deliver s attempted host.hostId ⟨w.nextUuid⟩ w.now := by
  obtain ⟨hl, hp, hs, -, hc, -, -, ht⟩ := deliver_eq w s attempted host r
  refine View.ext ?_ ?_ ?_ ?_ ?_ ?_
  · exact (session_deliver w s attempted host r s.id).trans (if_pos rfl)
  · funext k
    simp only [World.view, hl, View.deliver]
    by_cases hk : k = host.hostId
    · subst hk; simp
    · simp [Keys.set_of_ne _ _ _ hk, hk]
  · simp [World.view, hp, View.deliver]
  · simp only [World.view, hs, View.deliver]
  · have hm := mail_dispatch w hd (prepareCommand s host (w.now + prepareMillis)) s.id
    have hmail : Packet.mail s.id (.command ⟨w.nextUuid⟩ (prepareCommand s host (w.now + prepareMillis))) = some .prepare := by
      simp [Packet.mail, prepareCommand]
    rw [hmail] at hm
    funext k
    simpa only [World.view, World.outbox, hc, View.deliver, Option.toList_some] using congrFun hm k
  · funext k
    simp only [World.view, ht, View.deliver, Unheard]
    by_cases hk : k = host.hostId
    · subst hk; simp
    · simp [hk, Ne.symm hk]

theorem frame_deliver {s : Session} {host : HostRecord} {r : {r : HostRecord // r.hostId = host.hostId}}
    (hr : w.claimable host.hostId s.gameId = some r) (hd : w.deliverable host.hostId = true) (attempted : List HostId) :
    Frame s.id w (w.deliver s attempted host r) := by
  obtain ⟨hl, hp, hs, hdd, hc, hn, hu, ht⟩ := deliver_eq w s attempted host r
  refine ⟨fun id hne => View.ext ?_ ?_ ?_ ?_ ?_ ?_, hn, ?_, ?_, by omega, hdd, ⟨[_, _, _, _], ht, ?_⟩⟩
  · exact (session_deliver w s attempted host r id).trans (if_neg hne)
  · funext k
    by_cases hk : k = host.hostId
    · subst hk
      rw [view_lease_none.2 (lease_claimed w hr id)]
      exact view_lease_none.2 (by rw [World.lease, hl, Keys.get_set_self]; simpa using hne.symm)
    · simp only [World.view, hl, Keys.set_of_ne _ _ _ hk]
  · simp only [World.view, hp, ZSet.score_zadd_of_ne _ _ hne]
  · simp only [World.view, hs]
  · have hm := mail_dispatch w hd (prepareCommand s host (w.now + prepareMillis)) id
    have hmail : Packet.mail id (.command ⟨w.nextUuid⟩ (prepareCommand s host (w.now + prepareMillis))) = none := by
      simp [Packet.mail, prepareCommand, hne.symm]
    rw [hmail] at hm
    funext k
    simpa [World.view, World.outbox, hc] using congrFun hm k
  · funext k
    simp [World.view, ht, Unheard, hne.symm]
  · rw [← connected_dispatch w host.hostId (prepareCommand s host (w.now + prepareMillis))]
    funext k; simp only [World.connected, hc]
  · rw [← deliverable_dispatch w host.hostId (prepareCommand s host (w.now + prepareMillis))]
    funext k; simp only [World.deliverable, hc]
  · simp [Obs.within, lease_claimed w hr, World.preparing, allocatedTo]

end views

/-! Refused attempts -/

theorem frame_tries {s : Session} {w w' : World} (ht : Tries s w w') : Frame s.id w w' := by
  induction ht with
  | refl w => exact .refl _ w
  | attempt attempted hmem hr hd rest ih => exact (frame_attempt _ hr (allocatedTo s attempted _)).trans ih

/-- The refused attempts leave the record of the last one. -/
theorem view_tries {s : Session} {w w' : World} (ht : Tries s w w') : w' = w ∨
    ∃ attempted h, h ∈ attempted ∧ w'.view s.id = { w.view s.id with record := some (allocatedTo s attempted h) } := by
  induction ht with
  | refl w => exact .inl rfl
  | @attempt w w' h r attempted hmem hr hd rest ih =>
    have hv := view_attempt w hr (allocatedTo s attempted h)
    rw [show (allocatedTo s attempted h).id = s.id from rfl] at hv
    rcases ih with rfl | ⟨attempted', h', hmem', ih⟩
    · exact .inr ⟨attempted, h, hmem, hv⟩
    · exact .inr ⟨attempted', h', hmem', by rw [ih, hv]⟩

end Market
end CloudGaming
