import CloudGaming.Market.Traffic
/-!
# Grace — the deadline of a disconnected host

A leased host without a socket keeps its deadline, unless a poll or a late handler removes the deadline of a newer
disconnect, or a lost update revives the session of a lease nobody watches any more.
-/
namespace CloudGaming
namespace Market

open Async

variable {α : Type} {h : HostId} {id : SessionId}

/-! ## What a move leaves -/

/-- The session is stored, and not terminal. -/
def Alive (w : World) (id : SessionId) : Prop := ∃ s, w.session id = some s ∧ s.state.terminal = false

/-- The host holds the lease of a session that is not terminal. -/
structure Leases (w : World) (h : HostId) (id : SessionId) : Prop where
  lease : w.lease h = some id
  alive : Alive w id

/-- The command stores a record of the session that is not terminal. -/
def Revives (w : World) (id : SessionId) : Cmd → Prop
  | .setSession s => s.id = id ∧ s.state.terminal = false
  | .claim h s => s.id = id ∧ (w.claimable h s.gameId).isSome
  | _ => False

variable {w : World} {c : Cmd}

theorem Leases.of_eq {w' : World} (hl : Leases w' h id) (hleases : w'.leases = w.leases)
    (hsessions : w'.sessions = w.sessions) : Leases w h id := by
  obtain ⟨hlease, s, hs, ht⟩ := hl
  unfold World.lease at hlease
  unfold World.session at hs
  rw [hleases] at hlease
  rw [hsessions] at hs
  exact ⟨hlease, s, hs, ht⟩

theorem alive_write {s : Session} (ha : Alive (w.write s) id) : Alive w id ∨ s.id = id ∧ s.state.terminal = false := by
  obtain ⟨s', hs', ht⟩ := ha
  rw [session_write] at hs'
  split at hs'
  · rename_i heq
    obtain rfl := Option.some.inj hs'
    exact .inr ⟨heq.symm, ht⟩
  · exact .inl ⟨s', hs', ht⟩

/-- A lease of a live session was one before, or the command revives the session, or claims the host for it. -/
theorem leases_exec (c : Cmd) (hl : Leases (exec c w).2 h id) :
    Leases w h id ∨ (w.lease h = some id ∧ Revives w id c) ∨
      ∃ s, c = .claim h s ∧ s.id = id ∧ (w.claimable h s.gameId).isSome := by
  obtain ⟨hlease, halive⟩ := hl
  cases c with
  | setSession s =>
    rcases alive_write halive with ha | hr
    · exact .inl ⟨hlease, ha⟩
    · exact .inr (.inl ⟨hlease, hr⟩)
  | claim k s =>
    cases hc : w.claimable k s.gameId with
    | none =>
      rw [exec_claim_none hc] at hlease halive
      exact .inl ⟨hlease, halive⟩
    | some r =>
      rw [exec_claim_some hc] at hlease halive
      by_cases hk : h = k
      · subst hk
        have hid : s.id = id := Option.some.inj ((lease_reserve_self w h r s).symm.trans hlease)
        exact .inr (.inr ⟨s, rfl, hid, by rw [hc]; rfl⟩)
      · rw [lease_reserve_of_ne w k r s hk] at hlease
        rcases alive_write halive with ha | hr
        · exact .inl ⟨hlease, ha⟩
        · exact .inr (.inl ⟨hlease, hr.1, by rw [hc]; rfl⟩)
  | release o id' =>
    cases o with
    | none => exact .inl ⟨hlease, halive⟩
    | some k =>
      refine .inl ⟨lease_of_release w hlease, ?_⟩
      obtain ⟨s, hs, ht⟩ := halive
      refine ⟨s, ?_, ht⟩
      have hsessions := (release_frame w k id').1
      unfold World.session at hs ⊢
      rwa [show (exec (.release (some k) id') w).2.sessions = w.sessions from hsessions] at hs
  | lockPlayer p id' seconds =>
    have hlock : (w.lockPlayer p id' seconds).leases = w.leases ∧ (w.lockPlayer p id' seconds).sessions = w.sessions := by
      unfold World.lockPlayer
      split <;> exact ⟨rfl, rfl⟩
    exact .inl (Leases.of_eq ⟨hlease, halive⟩ hlock.1 hlock.2)
  | _ => exact .inl ⟨hlease, halive⟩

theorem clients_exec (c : Cmd) (w : World) : (exec c w).2.clients = w.clients := by
  cases c with
  | claim k s =>
    cases hc : w.claimable k s.gameId with
    | none => rw [exec_claim_none hc]
    | some r => rw [exec_claim_some hc]; rfl
  | release o id' =>
    cases o with
    | none => rfl
    | some k => exact (release_frame w k id').2.2.2.2.2.1
  | lockPlayer p id' seconds =>
    show (w.lockPlayer p id' seconds).clients = w.clients
    unfold World.lockPlayer
    split <;> rfl
  | _ => rfl

/-- A deadline is there unless it is removed. -/
theorem score_exec (c : Cmd) (hs : (w.disconnectDeadlines.score h).isSome) :
    ((exec c w).2.disconnectDeadlines.score h).isSome ∨ c = .remDisconnectDeadline h := by
  cases c with
  | claim k s =>
    cases hc : w.claimable k s.gameId with
    | none => rw [exec_claim_none hc]; exact .inl hs
    | some r => rw [exec_claim_some hc]; exact .inl hs
  | release o id' =>
    cases o with
    | none => exact .inl hs
    | some k =>
      rw [show (exec (.release (some k) id') w).2.disconnectDeadlines = w.disconnectDeadlines from
        (release_frame w k id').2.2.2.2.1]
      exact .inl hs
  | lockPlayer p id' seconds =>
    have hlock : (w.lockPlayer p id' seconds).disconnectDeadlines = w.disconnectDeadlines := by
      unfold World.lockPlayer
      split <;> rfl
    rw [show (exec (.lockPlayer p id' seconds) w).2.disconnectDeadlines = w.disconnectDeadlines from hlock]
    exact .inl hs
  | addDisconnectDeadline k n =>
    by_cases hk : h = k
    · subst hk
      exact .inl (by rw [show (exec (.addDisconnectDeadline h n) w).2.disconnectDeadlines.score h = some n from
        Redis.ZSet.score_zadd_self ..]; rfl)
    · rw [show (exec (.addDisconnectDeadline k n) w).2.disconnectDeadlines.score h = _ from
        Redis.ZSet.score_zadd_of_ne _ n hk]
      exact .inl hs
  | remDisconnectDeadline k =>
    by_cases hk : h = k
    · subst hk
      exact .inr rfl
    · rw [show (exec (.remDisconnectDeadline k) w).2.disconnectDeadlines.score h = _ from
        Redis.ZSet.score_zrem_of_ne _ hk]
      exact .inl hs
  | _ => exact .inl hs

/-- What the synchronous code leaves as it is. -/
structure Same (w w' : World) : Prop where
  leases : w'.leases = w.leases
  sessions : w'.sessions = w.sessions
  deadlines : w'.disconnectDeadlines = w.disconnectDeadlines
  clients : ∀ h, (w'.clients h).isSome = (w.clients h).isSome

theorem Same.refl (w : World) : Same w w := ⟨rfl, rfl, rfl, fun _ => rfl⟩

theorem Same.trans {a b c : World} (h₁ : Same a b) (h₂ : Same b c) : Same a c :=
  ⟨h₂.leases.trans h₁.leases, h₂.sessions.trans h₁.sessions, h₂.deadlines.trans h₁.deadlines,
    fun h => (h₂.clients h).trans (h₁.clients h)⟩

theorem same_dispatch (w : World) (h : HostId) (c : Command) : Same w (w.dispatch h c) := by
  have hclients : ∀ k, ((Function.update w.clients h
      ((w.clients h).map fun s => { s with outbox := s.outbox ++ [.command ⟨w.nextUuid⟩ c] })) k).isSome =
        (w.clients k).isSome := fun k => by
    by_cases hk : k = h
    · subst hk
      rw [Function.update_self, Option.isSome_map]
    · rw [Function.update_of_ne hk]
  cases c with
  | prepare => exact ⟨rfl, rfl, rfl, hclients⟩
  | stop => exact ⟨rfl, rfl, rfl, hclients⟩

theorem same_call (o : Call) (w : World) : Same w (call o w).2 := by
  cases o with
  | dateNow | connected => exact .refl w
  | send k c =>
    cases k with
    | none => exact .refl w
    | some k =>
      cases hd : w.deliverable k with
      | true => rw [call_send_some hd]; exact same_dispatch w k c
      | false => rw [call_send_none hd]; exact .refl w

theorem same_settle (p : Js α) (w : World) : Same w (p.settle machine w).2 := by
  induction p generalizing w with
  | call o k ih => exact (same_call o w).trans (ih _ _)
  | _ => exact .refl w

theorem proper_settle {p : Js α} (hp : Proper p) (w : World) : Proper (p.settle machine w).1 := by
  induction p generalizing w with
  | call o k ih => exact ih _ (hp _) _
  | _ => exact hp

theorem owes_settle {p : Js α} (ho : Owes h p) (w : World) : Owes h (p.settle machine w).1 := by
  induction p generalizing w with
  | call o k ih =>
    cases o with
    | dateNow => exact ih _ (ho _) _
    | connected | send => exact ho.elim
  | _ => exact ho

theorem clients_of_deliverable (hd : w.deliverable h = true) : (w.clients h).isSome := by
  unfold World.deliverable at hd
  cases hc : w.clients h with
  | none => rw [hc] at hd; cases hd
  | some socket => rfl

/-- **A claimed host whose prepare is handed over has a socket.** -/
theorem unsettled_settle {p : Js α} (hu : Unsettled h id p) (w : World) :
    Unsettled h id (p.settle machine w).1 ∨ (w.clients h).isSome := by
  induction p generalizing w with
  | call o k ih =>
    cases o with
    | dateNow => exact ih _ (hu _) _
    | connected => exact hu.elim
    | send o c =>
      cases o with
      | none => exact hu.elim
      | some k' =>
        obtain ⟨rfl, hu⟩ := hu
        cases hd : w.deliverable k' with
        | true =>
          exact .inr (clients_of_deliverable hd)
        | false =>
          show Unsettled k' id (Prog.settle machine (k (call (.send (some k') c) w).1) (call (.send (some k') c) w).2).1 ∨ _
          rw [call_send_none hd]
          exact ih _ hu w
  | _ => exact .inl hu

/-! ## The invariant -/

/-- A handler in progress gives the host a deadline, or releases it. -/
def InHand (ts : List (Async.Thread sig Seen)) (h : HostId) (id : SessionId) : Prop := ∃ t ∈ ts, Engaged h id t.prog

def Watched (p : Room) (h : HostId) (id : SessionId) : Prop :=
  (p.world.clients h).isSome ∨ (p.world.disconnectDeadlines.score h).isSome ∨ InHand p.threads h id

/-- A deadline is removed only where nobody needs it: its host has a socket again, or leases no live session, or is in
hand.  A session is revived only where no host leases it. -/
def harmless : Gate
  | .remDisconnectDeadline h, p => ∀ id, Leases p.world h id → (p.world.disconnectDeadlines.score h).isSome →
      (p.world.clients h).isSome ∨ InHand p.threads h id
  | c, p => ∀ id, Revives p.world id c → Alive p.world id ∨ ∀ h, p.world.lease h ≠ some id

structure Attended (p : Room) : Prop where
  watched : ∀ h id, Leases p.world h id → Watched p h id
  proper : ∀ t ∈ p.threads, Proper t.prog

variable {ts : List (Async.Thread sig Seen)} {i : Nat} {u v : Async.Thread sig Seen}

theorem inHand_append (he : InHand ts h id) (v : Async.Thread sig Seen) : InHand (ts ++ [v]) h id := by
  obtain ⟨t, ht, he⟩ := he
  exact ⟨t, List.mem_append_left _ ht, he⟩

/-- A step of thread `i` leaves the other threads as they are. -/
theorem inHand_set (hi : ts[i]? = some u) (he : InHand ts h id) : InHand (ts.set i v) h id ∨ Engaged h id u.prog := by
  obtain ⟨t, ht, he⟩ := he
  obtain ⟨j, hj⟩ := List.mem_iff_getElem?.1 ht
  by_cases hij : i = j
  · subst hij
    obtain rfl := Option.some.inj (hi.symm.trans hj)
    exact .inr he
  · refine .inl ⟨t, List.mem_iff_getElem?.2 ⟨j, ?_⟩, he⟩
    rwa [List.getElem?_set_ne hij]

theorem mem_set_self (hi : ts[i]? = some u) : v ∈ ts.set i v := by
  refine List.mem_iff_getElem?.2 ⟨i, ?_⟩
  rw [List.getElem?_set_self (List.getElem?_eq_some_iff.1 hi).1]

theorem proper_set (hp : ∀ t ∈ ts, Proper t.prog) (hv : Proper v.prog) : ∀ t ∈ ts.set i v, Proper t.prog := by
  intro t ht
  rcases List.mem_or_eq_of_mem_set ht with ht | rfl
  · exact hp t ht
  · exact hv

/-- The command of an engaged handler adds the deadline, or ends the lease. -/
theorem engaged_exec {k : Option c.Reply → Js Unit} (he : Engaged h id (Prog.await (σ := sig) c k)) :
    ((exec c w).2.disconnectDeadlines.score h).isSome ∨ ¬Leases (exec c w).2 h id := by
  rcases he with ho | hu
  · cases c with
    | addDisconnectDeadline h' n =>
      obtain rfl : h' = h := ho
      exact .inl (by rw [show (exec (.addDisconnectDeadline h' n) w).2.disconnectDeadlines.score h' = some n from
        Redis.ZSet.score_zadd_self ..]; rfl)
    | _ => exact ho.elim
  · cases c with
    | release o id' =>
      cases o with
      | none => exact hu.elim
      | some h' =>
        obtain ⟨rfl, rfl⟩ := hu
        exact .inr fun hl => lease_release_self w h' id' hl.lease
    | _ => exact hu.elim

/-- The lease was there, and alive, before a harmless command, unless the command is the claim. -/
theorem leases_of_harmless (hg : harmless c ⟨w, ts⟩) (hl : Leases (exec c w).2 h id) :
    Leases w h id ∨ ∃ s, c = .claim h s ∧ s.id = id ∧ (w.claimable h s.gameId).isSome := by
  rcases leases_exec c hl with hl | ⟨hlease, hr⟩ | hc
  · exact .inl hl
  · have hcond : Alive w id ∨ ∀ h, w.lease h ≠ some id := by
      cases c with
      | remDisconnectDeadline => exact hr.elim
      | _ => exact hg id hr
    rcases hcond with ha | hno
    · exact .inl ⟨hlease, ha⟩
    · exact absurd hlease (hno h)
  · exact .inr hc

theorem attended_exec {k : Option c.Reply → Js Unit} {l : Seen} (ha : Attended ⟨w, ts⟩)
    (hi : ts[i]? = some ⟨.await c k, l⟩) (hg : harmless c ⟨w, ts⟩) :
    Attended ⟨(exec c w).2, ts.set i ⟨k (some (exec c w).1), noteSeen c w l⟩⟩ := by
  have hproper := ha.proper _ (List.mem_of_getElem? hi)
  refine ⟨fun h id hl => ?_, proper_set ha.proper (proper_await hproper _)⟩
  have hhand : InHand ts h id → Watched ⟨(exec c w).2, ts.set i ⟨k (some (exec c w).1), noteSeen c w l⟩⟩ h id := by
    intro he
    rcases inHand_set hi he with he | he
    · exact .inr (.inr he)
    · rcases engaged_exec he with hs | hno
      · exact .inr (.inl hs)
      · exact absurd hl hno
  rcases leases_of_harmless hg hl with hbefore | ⟨s, rfl, rfl, hc⟩
  · rcases ha.watched h id hbefore with hclients | hscore | he
    · exact .inl (by rw [clients_exec]; exact hclients)
    · rcases score_exec c hscore with hs | rfl
      · exact .inr (.inl hs)
      · rcases hg id hbefore hscore with hclients | he
        · exact .inl (by rw [clients_exec]; exact hclients)
        · exact hhand he
    · exact hhand he
  · obtain ⟨r, hr⟩ := Option.isSome_iff_exists.1 hc
    refine .inr (.inr ⟨_, mem_set_self hi, .inr ?_⟩)
    rw [exec_claim_some hr]
    exact hproper.2 _

theorem attended_resume {p : Js Unit} {l : Seen} (ha : Attended ⟨w, ts⟩) (hi : ts[i]? = some ⟨p, l⟩) :
    Attended ⟨(p.settle machine w).2, ts.set i ⟨(p.settle machine w).1, l⟩⟩ := by
  have hsame := same_settle p w
  have hproper := ha.proper _ (List.mem_of_getElem? hi)
  refine ⟨fun h id hl => ?_, proper_set ha.proper (proper_settle hproper w)⟩
  have hsocket : (w.clients h).isSome → Watched ⟨(p.settle machine w).2, ts.set i ⟨(p.settle machine w).1, l⟩⟩ h id :=
    fun hc => .inl ((hsame.clients h).trans hc)
  rcases ha.watched h id (hl.of_eq hsame.leases hsame.sessions) with hclients | hscore | he
  · exact hsocket hclients
  · exact .inr (.inl (by rw [hsame.deadlines]; exact hscore))
  · rcases inHand_set hi he with he | he
    · exact .inr (.inr he)
    · rcases he with ho | hu
      · exact .inr (.inr ⟨_, mem_set_self hi, .inl (owes_settle ho w)⟩)
      · rcases unsettled_settle hu w with hu | hclients
        · exact .inr (.inr ⟨_, mem_set_self hi, .inr hu⟩)
        · exact hsocket hclients

theorem isSome_update_map {clients : HostId → Option Socket} (f : Socket → Socket) (k h : HostId) :
    (Function.update clients k ((clients k).map f) h).isSome = (clients h).isSome := by
  by_cases hk : h = k
  · subst hk
    rw [Function.update_self, Option.isSome_map]
  · rw [Function.update_of_ne hk]

theorem deadlines_ambient (w : World) (e : Ambient) : (w.ambient e).disconnectDeadlines = w.disconnectDeadlines := by
  cases e with
  | reorder g ids => unfold World.ambient; dsimp only; split <;> rfl
  | _ => rfl

theorem clients_ambient (w : World) {e : Ambient} (he : e.isSocket = false) (h : HostId) :
    ((w.ambient e).clients h).isSome = (w.clients h).isSome := by
  cases e with
  | accept | closed => cases he
  | closing k => exact isSome_update_map _ k h
  | congest k b => exact isSome_update_map _ k h
  | reorder g ids => unfold World.ambient; dsimp only; split <;> rfl
  | _ => rfl

theorem leases_ambient {e : Ambient} (hl : Leases (w.ambient e) h id) : Leases w h id := by
  cases e with
  | expireLease k =>
    obtain ⟨hlease, halive⟩ := hl
    refine ⟨?_, halive⟩
    by_cases hk : h = k
    · subst hk
      exact absurd ((Redis.Keys.get_del_self ..).symm.trans hlease) nofun
    · exact (Redis.Keys.get_del_of_ne _ hk).symm.trans hlease
  | expireSession k =>
    obtain ⟨hlease, s, hs, ht⟩ := hl
    refine ⟨hlease, s, ?_, ht⟩
    unfold World.session World.ambient at hs
    dsimp only at hs
    by_cases hk : id = k
    · subst hk
      rw [Redis.Keys.get_del_self] at hs
      cases hs
    · rwa [Redis.Keys.get_del_of_ne _ hk] at hs
  | reorder g ids =>
    refine hl.of_eq ?_ ?_ <;> (unfold World.ambient; dsimp only; split <;> rfl)
  | _ => exact hl.of_eq rfl rfl

/-- What happens around the handlers grants no lease, and takes no socket away unannounced. -/
theorem watched_around {p : Room} (ha : Attended p) {e : Ambient} (he : e.isSocket = false)
    (hl : Leases (p.world.ambient e) h id) : Watched ⟨p.world.ambient e, p.threads⟩ h id := by
  rcases ha.watched h id (leases_ambient hl) with hclients | hscore | he'
  · exact .inl ((clients_ambient p.world he h).trans hclients)
  · exact .inr (.inl (by rw [deadlines_ambient]; exact hscore))
  · exact .inr (.inr he')

/-- A thread that starts leaves the others as they are. -/
theorem attended_append {p : Room} {w : World} (ha : Attended p) (hv : Proper v.prog)
    (hw : ∀ h id, Leases w h id → Watched ⟨w, p.threads⟩ h id ∨ Engaged h id v.prog) :
    Attended ⟨w, p.threads ++ [v]⟩ := by
  refine ⟨fun h id hl => ?_, fun t ht => ?_⟩
  · rcases hw h id hl with (hclients | hscore | he) | he
    · exact .inl hclients
    · exact .inr (.inl hscore)
    · exact .inr (.inr (inHand_append he v))
    · exact .inr (.inr ⟨v, List.mem_append_right _ List.mem_cons_self, he⟩)
  · rcases List.mem_append.1 ht with ht | ht
    · exact ha.proper t ht
    · obtain rfl := List.mem_singleton.1 ht
      exact hv

/-- **Every harmless move leaves a leased host attended.** -/
theorem attended_move {p q : Room} (ha : Attended p) (hm : Move harmless p q) : Attended q := by
  cases hm with
  | start r hr => exact attended_append ha (proper_program r _) fun h id hl => .inl (ha.watched h id hl)
  | connect k =>
    refine attended_append ha (proper_program (.control k true) p.threads.length) fun h id hl => .inl ?_
    rcases ha.watched h id (leases_ambient hl) with hclients | hscore | he
    · refine .inl ?_
      show (Function.update p.world.clients k (some ⟨true, false, [.ready k]⟩) h).isSome = true
      by_cases hk : h = k
      · subst hk
        rw [Function.update_self]
        rfl
      · rw [Function.update_of_ne hk]
        exact hclients
    · exact .inr (.inl hscore)
    · exact .inr (.inr he)
  | disconnect k hc =>
    refine attended_append ha (proper_program (.control k false) p.threads.length) fun h id hl => ?_
    by_cases hk : h = k
    · subst hk
      exact .inr (.inl fun _ => rfl)
    · refine .inl ?_
      rcases ha.watched h id (leases_ambient hl) with hclients | hscore | he
      · refine .inl ?_
        show (Function.update p.world.clients k none h).isSome = true
        rw [Function.update_of_ne hk]
        exact hclients
      · exact .inr (.inl hscore)
      · exact .inr (.inr he)
  | around e he => exact ⟨fun h id hl => watched_around ha he hl, ha.proper⟩
  | exec i hi hg => exact attended_exec ha hi hg
  | resume i hi => exact attended_resume ha hi

theorem attended_of_traffic {config : Config} {p : Room} (h : Traffic harmless config p) : Attended p := by
  induction h with
  | refl => exact ⟨fun h id hl => absurd hl.lease nofun, nofun⟩
  | tail _ hm ih => exact attended_move ih hm

/-- The socket of the host is gone and the gateway has been told: neither a handler of it nor its close is pending. -/
structure Abandoned (p : Room) (h : HostId) (id : SessionId) : Prop where
  disconnected : p.world.connected h = false
  closed : ∀ socket, p.world.clients h = some socket → socket.isOpen = true
  idle : ∀ t ∈ p.threads, ¬Engaged h id t.prog

/-- The deadline of an abandoned host that leases a session which is not terminal is there. -/
def DeadlineKept (p : Room) : Prop :=
  ∀ h id s, p.world.lease h = some id → p.world.session id = some s → s.state.terminal = false → Abandoned p h id →
    (p.world.disconnectDeadlines.score h).isSome

/-- **Where every move is harmless, no disconnect deadline is lost.** -/
theorem deadlineKept_of_traffic (config : Config) (p : Room) (h : Traffic harmless config p) : DeadlineKept p := by
  intro h' id s hlease hs ht hgone
  rcases (attended_of_traffic h).watched h' id ⟨hlease, s, hs, ht⟩ with hclients | hscore | ⟨t, hmem, he⟩
  · obtain ⟨socket, hsocket⟩ := Option.isSome_iff_exists.1 hclients
    have hopen := hgone.closed socket hsocket
    have hno := hgone.disconnected
    unfold World.connected at hno
    rw [hsocket] at hno
    exact absurd (hopen.symm.trans hno) nofun
  · exact hscore
  · exact absurd he (hgone.idle t hmem)

/-! ## Runs -/

inductive Deed where
  | connect (h : HostId)
  | disconnect (h : HostId)
  | begin (r : Request)
  | around (e : Ambient)
  | go (i : Nat)

/-- What a deed makes of the pool; where there is no such move it makes nothing. -/
def deed (p : Room) : Deed → Room
  | .connect h =>
    ⟨p.world.ambient (.accept h), p.threads ++ [⟨(Request.control h true).program p.threads.length, {}⟩]⟩
  | .disconnect h =>
    if (p.world.clients h).isSome then
      ⟨p.world.ambient (.closed h), p.threads ++ [⟨(Request.control h false).program p.threads.length, {}⟩]⟩
    else p
  | .begin r => if r.isControl then p else ⟨p.world, p.threads ++ [⟨r.program p.threads.length, {}⟩]⟩
  | .around e => if e.isSocket then p else ⟨p.world.ambient e, p.threads⟩
  | .go i => p.go (concurrent anything) i

/-- What the deed executes meets the gate. -/
def DeedKept (g : Gate) (p : Room) : Deed → Prop
  | .go i => ∀ c k l, p.threads[i]? = some ⟨.await c k, l⟩ → g c p
  | _ => True

theorem move_deed {g : Gate} (p : Room) (t : Deed) (hk : DeedKept g p t) :
    Relation.ReflTransGen (Move g) p (deed p t) := by
  cases t with
  | connect h => exact .single (.connect h)
  | disconnect h =>
    unfold deed
    dsimp only
    split
    · rename_i hc
      exact .single (.disconnect h hc)
    · exact .refl
  | begin r =>
    unfold deed
    dsimp only
    split
    · exact .refl
    · rename_i hr
      exact .single (.start r (Bool.eq_false_iff.2 hr))
  | around e =>
    unfold deed
    dsimp only
    split
    · exact .refl
    · rename_i he
      exact .single (.around e (Bool.eq_false_iff.2 he))
  | go i =>
    unfold deed Pool.go
    dsimp only
    split
    · rename_i c k l hi
      exact .single (.exec i hi (hk c k l hi))
    · rename_i o k l hi
      exact .single (.resume i hi)
    · exact .refl

theorem traffic_any (config : Config) (ts : List Deed) :
    Traffic anyMove config (ts.foldl deed ⟨World.init config, []⟩) := by
  have hrun : ∀ (ts : List Deed) (p : Room), Relation.ReflTransGen (Move anyMove) p (ts.foldl deed p) := by
    intro ts
    induction ts with
    | nil => exact fun p => .refl
    | cons t ts ih =>
      refine fun p => (move_deed p t ?_).trans (ih _)
      cases t with
      | go i => exact fun _ _ _ _ => trivial
      | _ => trivial
  exact hrun ts _

/-- A check that a command which claims no host is harmless. -/
def isHarmless (p : Room) : Cmd → Bool
  | .remDisconnectDeadline h => (p.world.disconnectDeadlines.score h).isNone || (p.world.clients h).isSome
  | .setSession s => s.state.terminal || (p.world.session s.id).any fun s => !s.state.terminal
  | .claim .. => false
  | _ => true

theorem harmless_of_isHarmless {p : Room} (hc : isHarmless p c = true) : harmless c p := by
  cases c with
  | remDisconnectDeadline h =>
    intro id _ hs
    rcases Bool.or_eq_true_iff.1 hc with hn | hclients
    · rw [Option.isNone_iff_eq_none.1 hn] at hs
      cases hs
    · exact .inl hclients
  | setSession s =>
    rintro id ⟨rfl, ht⟩
    rcases Bool.or_eq_true_iff.1 hc with hterminal | ha
    · exact absurd (ht.symm.trans hterminal) nofun
    · cases hs : p.world.session s.id with
      | none => rw [hs] at ha; cases ha
      | some s' => rw [hs] at ha; exact .inl ⟨s', hs, by simpa using ha⟩
  | claim => cases hc
  | _ => exact fun id hr => hr.elim

theorem harmless_of_unleased {p : Room} (hno : ∀ h, p.world.lease h = none) (c : Cmd) : harmless c p := by
  have hne : ∀ h id, p.world.lease h ≠ some id := fun h id => by rw [hno h]; nofun
  cases c with
  | remDisconnectDeadline h => exact fun id hl => absurd hl.lease (hne h id)
  | _ => exact fun id _ => .inr fun h => hne h id

/-- Every command of the deeds passes the check. -/
def deedsKept : List Deed → Room → Bool
  | [], _ => true
  | t :: ts, p =>
    (match t with
      | .go i => match p.threads[i]? with
        | some ⟨.await c _, _⟩ => isHarmless p c
        | _ => true
      | _ => true) && deedsKept ts (deed p t)

theorem moves_of_deedsKept : ∀ (ts : List Deed) (p : Room), deedsKept ts p = true →
    Relation.ReflTransGen (Move harmless) p (ts.foldl deed p)
  | [], _, _ => .refl
  | t :: ts, p, h => by
    obtain ⟨ht, hts⟩ := Bool.and_eq_true_iff.1 h
    refine (move_deed p t ?_).trans (moves_of_deedsKept ts _ hts)
    cases t with
    | go i =>
      intro c k l hi
      dsimp only at ht
      rw [hi] at ht
      exact harmless_of_isHarmless ht
    | _ => trivial

def hasEnded : Js Unit → Bool
  | .ret _ | .throw => true
  | _ => false

theorem not_engaged_of_hasEnded {p : Js Unit} (hp : hasEnded p = true) : ¬Engaged h id p := by
  cases p with
  | ret a => rintro (he | he) <;> exact he
  | throw => rintro (he | he) <;> exact he
  | await => cases hp
  | call => cases hp

section latePoll

def steps (i n : Nat) : List Deed := List.replicate n (.go i)

def emptyRoom : Room := ⟨World.init ⟨60⟩, []⟩

/-- Host 0 connects and announces itself, and a player is about to claim it. -/
def claiming : List Deed :=
  [.connect ⟨0⟩] ++ steps 0 1 ++ [.begin (.presence (samplePresence ⟨0⟩ .idle))] ++ steps 1 3 ++
    [.begin (.post ⟨"player"⟩ sampleRequest)] ++ steps 2 5

/-- The player gets the host, which disconnects. -/
def gone : List Deed := steps 2 20 ++ [.disconnect ⟨0⟩] ++ steps 3 2

theorem unleased_claiming (h : HostId) : (claiming.foldl deed emptyRoom).world.lease h = none := rfl

theorem traffic_gone : Traffic harmless ⟨60⟩ (gone.foldl deed (deed (claiming.foldl deed emptyRoom) (.go 2))) := by
  have hclaiming := moves_of_deedsKept claiming emptyRoom (by decide +kernel)
  have hclaim := move_deed (g := harmless) (claiming.foldl deed emptyRoom) (.go 2) fun c _ _ _ =>
    harmless_of_unleased unleased_claiming c
  have hgone := moves_of_deedsKept gone (deed (claiming.foldl deed emptyRoom) (.go 2)) (by decide +kernel)
  exact (hclaiming.trans hclaim).trans hgone

theorem deadlineKept_gone : DeadlineKept (gone.foldl deed (deed (claiming.foldl deed emptyRoom) (.go 2))) :=
  deadlineKept_of_traffic ⟨60⟩ _ traffic_gone

/-- After 30 seconds the poll has failed the session of the host and is about to remove its deadline.  The host
reconnects, another player gets it, and it disconnects again: the poll removes the new deadline. -/
def latePoll : List Deed :=
  claiming ++ steps 2 1 ++ gone ++ [.around (.advance 30000), .begin .expireDisconnectedHosts] ++ steps 4 16 ++
    [.connect ⟨0⟩] ++ steps 5 1 ++ [.begin (.post ⟨"other"⟩ sampleRequest)] ++ steps 6 20 ++
    [.disconnect ⟨0⟩] ++ steps 7 2 ++ steps 4 20

def lost : Room := latePoll.foldl deed emptyRoom

theorem traffic_lost : Traffic anyMove ⟨60⟩ lost := traffic_any ⟨60⟩ latePoll

/-- **A poll removes the deadline of a newer disconnect.** -/
theorem not_deadlineKept_latePoll : ¬∀ (config : Config) (p : Room), Traffic anyMove config p → DeadlineKept p := by
  intro hall
  have hkept := hall ⟨60⟩ lost traffic_lost
  obtain ⟨s, hs, ht⟩ : ∃ s, lost.world.session ⟨6⟩ = some s ∧ s.state.terminal = false := by
    have hsome : (lost.world.session ⟨6⟩).any (fun s => !s.state.terminal) = true := by
      decide +kernel
    cases hs : lost.world.session ⟨6⟩ with
    | none => rw [hs] at hsome; cases hsome
    | some s => rw [hs] at hsome; exact ⟨s, rfl, by simpa using hsome⟩
  have hended : lost.threads.all (fun t => hasEnded t.prog) = true := by decide +kernel
  have hgone : Abandoned lost ⟨0⟩ ⟨6⟩ := by
    refine ⟨by decide +kernel, fun socket hsocket => ?_, fun t ht => ?_⟩
    · have hnone : (lost.world.clients ⟨0⟩).isNone = true := by decide +kernel
      rw [hsocket] at hnone
      cases hnone
    · exact not_engaged_of_hasEnded (List.all_eq_true.1 hended t ht)
  have hdeadline := hkept ⟨0⟩ ⟨6⟩ s (by decide +kernel) hs ht hgone
  have hlost : (lost.world.disconnectDeadlines.score ⟨0⟩).isSome = false := by decide +kernel
  exact absurd (hlost.symm.trans hdeadline) nofun

end latePoll

end Market
end CloudGaming
