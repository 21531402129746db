import CloudGaming.Market.Races
/-!
# Traffic — the matchmaker with its control sockets

A control socket that is accepted starts a handler that removes the disconnect deadline of its host, one that closes
starts a handler that adds it.  A handler that claims a host is unsettled until it has handed over the prepare or
released the host (`Proper`).
-/
namespace CloudGaming
namespace Market

open Async

abbrev Room := Pool sig World Seen

/-- The handlers of the control sockets start with their sockets only. -/
def Request.isControl : Request → Bool
  | .control .. => true
  | _ => false

/-- What happens around the handlers, the comings and goings of sockets apart. -/
def Ambient.isSocket : Ambient → Bool
  | .accept _ | .closed _ => true
  | _ => false

/-- What the pool demands of a command that takes effect. -/
abbrev Gate := Cmd → Room → Prop

/-- A step of the matchmaker: as in the interleaved system, where every command is answered, and a socket that is
accepted or closed starts its handler at once. -/
inductive Move (g : Gate) : Room → Room → Prop
  | start {p} (r : Request) (hr : r.isControl = false) :
      Move g p ⟨p.world, p.threads ++ [⟨r.program p.threads.length, {}⟩]⟩
  | connect {p} (h : HostId) :
      Move g p ⟨p.world.ambient (.accept h), p.threads ++ [⟨(Request.control h true).program p.threads.length, {}⟩]⟩
  | disconnect {p} (h : HostId) (hc : (p.world.clients h).isSome) :
      Move g p ⟨p.world.ambient (.closed h), p.threads ++ [⟨(Request.control h false).program p.threads.length, {}⟩]⟩
  | around {p} (e : Ambient) (he : e.isSocket = false) : Move g p ⟨p.world.ambient e, p.threads⟩
  | exec {w ts} (i : Nat) {c k l} (hi : ts[i]? = some ⟨.await c k, l⟩) (hg : g c ⟨w, ts⟩) :
      Move g ⟨w, ts⟩ ⟨(exec c w).2, ts.set i ⟨k (some (exec c w).1), noteSeen c w l⟩⟩
  | resume {w ts} (i : Nat) {o k l} (hi : ts[i]? = some ⟨.call o k, l⟩) :
      Move g ⟨w, ts⟩ ⟨((Prog.call o k).settle machine w).2, ts.set i ⟨((Prog.call o k).settle machine w).1, l⟩⟩

/-- The pools the matchmaker reaches from the emptyRoom store. -/
def Traffic (g : Gate) (config : Config) (p : Room) : Prop :=
  Relation.ReflTransGen (Move g) ⟨World.init config, []⟩ p

def anyMove : Gate := fun _ _ => True

/-- **A move is made of steps of the interleaved system.** -/
theorem steps_of_move {g : Gate} {p q : Room} (h : Move g p q) :
    Relation.ReflTransGen (Step (concurrent anything) anyCommand) p q := by
  cases h with
  | start r hr => exact .single (.start _ ⟨r, rfl⟩)
  | connect h =>
    refine .head (.ambient (.accept h) trivial) (.single ?_)
    exact .start _ ⟨.control h true, rfl⟩
  | disconnect h hc =>
    refine .head (.ambient (.closed h) trivial) (.single ?_)
    exact .start _ ⟨.control h false, rfl⟩
  | around e he => exact .single (.ambient e trivial)
  | exec i hi hg => exact .single (.exec i hi trivial)
  | resume i hi => exact .single (.resume i hi)

/-! ## Handlers in progress -/

variable {α β : Type} {h : HostId} {id : SessionId}

/-- The handler is about to add the deadline of the host. -/
def Owes (h : HostId) : Js α → Prop
  | .await (.addDisconnectDeadline h' _) _ => h' = h
  | .call .dateNow k => ∀ n, Owes h (k n)
  | _ => False

/-- The handler has claimed the host for the session: it has yet to hand over the prepare, and releases the host where
the gateway does not take it. -/
def Unsettled (h : HostId) (id : SessionId) : Js α → Prop
  | .await (.release (some h') id') _ => h' = h ∧ id' = id
  | .call .dateNow k => ∀ n, Unsettled h id (k n)
  | .call (.send (some h') _) k => h' = h ∧ Unsettled h id (k none)
  | _ => False

def Engaged (h : HostId) (id : SessionId) (p : Js α) : Prop := Owes h p ∨ Unsettled h id p

/-- A handler that claims a host is unsettled from then on. -/
def Proper : Js α → Prop
  | .await (.claim h s) k => (∀ r, Proper (k r)) ∧ ∀ r, Unsettled h s.id (k (some (some r)))
  | .await _ k => ∀ r, Proper (k r)
  | .call _ k => ∀ a, Proper (k a)
  | _ => True

theorem Unsettled.graft {p : Js α} (f : α → Js β) (q : Js β) (hu : Unsettled h id p) : Unsettled h id (p.graft f q) := by
  induction p with
  | ret a => exact hu.elim
  | throw => exact hu.elim
  | await c k _ =>
    cases c with
    | release o id' =>
      cases o with
      | none => exact hu.elim
      | some h' => exact hu
    | _ => exact hu.elim
  | call o k ih =>
    cases o with
    | dateNow => exact fun n => ih n (hu n)
    | send o c =>
      cases o with
      | none => exact hu.elim
      | some h' => exact ⟨hu.1, ih none hu.2⟩
    | connected => exact hu.elim

theorem Unsettled.bind {p : Js α} (f : α → Js β) (hu : Unsettled h id p) : Unsettled h id (p >>= f) := by
  rw [Prog.bind_eq_graft]
  exact hu.graft f Prog.throw

theorem Unsettled.tryCatch {p : Js α} (q : Js α) (hu : Unsettled h id p) : Unsettled h id (p.tryCatch q) := by
  rw [Prog.tryCatch_eq_graft]
  exact hu.graft Prog.ret q

theorem proper_await {c : Cmd} {k : Option c.Reply → Js α} (hp : Proper (Prog.await (σ := sig) c k)) :
    ∀ r, Proper (k r) := by
  cases c with
  | claim h s => exact hp.1
  | _ => exact hp

theorem Proper.graft {p : Js α} {f : α → Js β} {q : Js β} (hp : Proper p) (hf : ∀ a, Proper (f a)) (hq : Proper q) :
    Proper (p.graft f q) := by
  induction p with
  | ret a => exact hf a
  | throw => exact hq
  | await c k ih =>
    have hk := fun r => ih r (proper_await hp r)
    cases c with
    | claim h s => exact ⟨hk, fun r => (hp.2 r).graft f q⟩
    | _ => exact hk
  | call o k ih => exact fun a => ih a (hp a)

theorem Proper.bind {p : Js α} {f : α → Js β} (hp : Proper p) (hf : ∀ a, Proper (f a)) : Proper (p >>= f) := by
  rw [Prog.bind_eq_graft]
  exact hp.graft hf trivial

theorem Proper.tryCatch {p q : Js α} (hp : Proper p) (hq : Proper q) : Proper (p.tryCatch q) := by
  rw [Prog.tryCatch_eq_graft]
  exact hp.graft (fun _ => trivial) hq

theorem proper_forM {f : α → Js Unit} (hf : ∀ a, Proper (f a)) : ∀ as : List α, Proper (as.forM f)
  | [] => trivial
  | a :: as => (hf a).bind fun _ => proper_forM hf as

def Cmd.claims : Cmd → Bool
  | claim .. => true
  | _ => false

theorem proper_send {c : Cmd} (hc : c.claims = false) : Proper (await c) := by
  have hk : ∀ r : Option c.Reply, Proper (r.elim (Prog.throw (σ := sig)) Prog.ret) := fun r => by cases r <;> trivial
  cases c with
  | claim h s => cases hc
  | _ => exact hk

theorem proper_invoke (o : Call) : Proper (invoke o) := fun _ => trivial

/-! ### The handlers are proper -/

theorem proper_saveSession (session : Session) : Proper (saveSession session) := by
  refine (proper_invoke _).bind fun _ => (proper_send rfl).bind fun _ => ?_
  exact (proper_send rfl).bind fun _ => (proper_send rfl).bind fun _ => trivial

theorem proper_releasePlayer (session : Session) : Proper (releasePlayer session) := by
  refine (proper_send rfl).bind fun holder => ?_
  split
  · exact proper_send rfl
  · trivial

theorem proper_prepareOn (session : Session) (attempted : List HostId) (host : HostRecord) :
    Proper (prepareOn session attempted host) := by
  refine (proper_invoke _).bind fun now => (proper_invoke _).bind fun commandId => ?_
  split
  · exact (proper_send rfl).bind fun _ => trivial
  · exact (proper_saveSession _).bind fun _ => (proper_send rfl).bind fun _ => trivial

theorem unsettled_prepareOn (session : Session) (attempted : List HostId) (host : HostRecord) :
    Unsettled host.hostId session.id (prepareOn session attempted host) := fun _ => ⟨rfl, rfl, rfl⟩

/-- **A host that is claimed is handed the prepare, or released.** -/
theorem proper_claimFirst (session : Session) : ∀ (attempted : List HostId) (candidates : List HostRecord),
    Proper (claimFirst session attempted candidates)
  | _, [] => trivial
  | attempted, host :: candidates => by
    have hnext : ∀ attempted, Proper (claimFirst session attempted candidates) := fun attempted =>
      proper_claimFirst session attempted candidates
    refine ⟨fun r => ?_, fun r => (unsettled_prepareOn session _ host).bind _⟩
    cases r with
    | none => trivial
    | some claimed =>
      cases claimed with
      | none => exact hnext _
      | some r =>
        refine (proper_prepareOn session _ host).bind fun prepared => ?_
        cases prepared with
        | none => exact hnext _
        | some allocated => trivial

theorem proper_allocateSession (session : Session) : Proper (allocateSession session) := by
  refine (proper_send rfl).bind fun ids => ?_
  dsimp only
  split
  · trivial
  · exact (proper_send rfl).bind fun _ => (proper_invoke _).bind fun _ => proper_claimFirst session _ _

theorem proper_failSession (session : Session) (code : String) : Proper (failSession session code) :=
  (proper_invoke _).bind fun _ => (proper_releasePlayer _).bind fun _ => proper_saveSession _

theorem proper_failOrRetrySession (session : Session) (code : String) : Proper (failOrRetrySession session code) := by
  refine (proper_send rfl).bind fun _ => (proper_send rfl).bind fun _ => (proper_send rfl).bind fun _ => ?_
  split
  · exact proper_failSession session code
  · refine (proper_allocateSession _).bind fun replacement => ?_
    split
    · trivial
    · exact proper_failSession _ code

theorem proper_handleControlConnection (hostId : HostId) (connected : Bool) :
    Proper (handleControlConnection hostId connected) := by
  cases connected with
  | true => exact proper_send rfl
  | false => exact (proper_invoke _).bind fun _ => proper_send rfl

theorem proper_handleHello (hostId : HostId) (event : HostEvent) : Proper (handleHello hostId event) := by
  refine (proper_send rfl).bind fun leasedSessionId => ?_
  split
  · split
    · exact (proper_invoke _).bind fun _ => trivial
    · trivial
  · refine (proper_send rfl).bind fun leasedSession => ?_
    split
    · split
      · exact (proper_failOrRetrySession _ _).bind fun _ => trivial
      · trivial
    · trivial
  · trivial

theorem proper_handleSessionEvent (hostId : HostId) (event : HostEvent) (session : Session) :
    Proper (handleSessionEvent hostId event session) := by
  unfold handleSessionEvent
  split
  · trivial
  · exact (proper_saveSession _).bind fun _ => trivial
  · split
    · exact (proper_send rfl).bind fun _ => (proper_saveSession _).bind fun _ => trivial
    · exact (proper_saveSession _).bind fun _ => trivial
  · split
    · refine (proper_invoke _).bind fun _ => (proper_send rfl).bind fun _ => ?_
      exact (proper_saveSession _).bind fun _ => trivial
    · exact (proper_saveSession _).bind fun _ => trivial
  · exact (proper_failOrRetrySession _ _).bind fun _ => trivial
  · refine (proper_invoke _).bind fun _ => (proper_send rfl).bind fun _ => (proper_send rfl).bind fun _ => ?_
    refine (proper_send rfl).bind fun _ => (proper_releasePlayer _).bind fun _ => ?_
    exact (proper_saveSession _).bind fun _ => trivial

theorem proper_handleHostEvent (hostId : HostId) (event : HostEvent) : Proper (handleHostEvent hostId event) := by
  unfold handleHostEvent
  split
  · exact proper_handleHello hostId event
  split
  · trivial
  · refine (proper_send rfl).bind fun session => ?_
    split
    · trivial
    · split
      · trivial
      · exact proper_handleSessionEvent hostId event _

theorem proper_postSessions (id : SessionId) (roomId : RoomId) (playerId : PlayerId) (request : SessionRequest) :
    Proper (postSessions id roomId playerId request) := by
  refine (proper_invoke _).bind fun createdAt => Proper.tryCatch ?_ ?_
  · refine (proper_send rfl).bind fun locked => ?_
    split
    · exact (proper_send rfl).bind fun _ => trivial
    · refine (proper_allocateSession _).bind fun allocated => ?_
      split
      · trivial
      · exact (proper_releasePlayer _).bind fun _ => trivial
  · refine Proper.bind ((proper_releasePlayer _).tryCatch ?_) fun _ => trivial
    exact (trivial : Proper (pure () : Js Unit))

theorem proper_deleteSession (sessionId : SessionId) (playerId : Option PlayerId) :
    Proper (deleteSession sessionId playerId) := by
  refine (proper_send rfl).bind fun session => ?_
  split
  · trivial
  split
  · trivial
  split
  · trivial
  · refine (proper_invoke _).bind fun _ => (proper_releasePlayer _).bind fun _ => ?_
    exact (proper_saveSession _).bind fun _ => trivial

theorem proper_postPresence (presence : Presence) : Proper (postPresence presence) := by
  refine Proper.tryCatch ?_ trivial
  exact (proper_send rfl).bind fun _ => (proper_invoke _).bind fun _ => (proper_send rfl).bind fun _ => trivial

theorem proper_expireSession (id : SessionId) : Proper (expireSession id) := by
  refine Proper.bind ((proper_send rfl).bind fun session => ?_) fun _ => proper_send rfl
  split
  · split
    · exact (proper_invoke _).bind fun _ => (proper_saveSession _).bind fun _ => trivial
    · trivial
  · trivial

theorem proper_expirePreparation (id : SessionId) : Proper (expirePreparation id) := by
  refine (proper_send rfl).bind fun session => ?_
  split
  · split
    · exact (proper_invoke _).bind fun _ => (proper_failOrRetrySession _ _).bind fun _ => trivial
    · exact proper_send rfl
  · exact proper_send rfl

theorem proper_expireDisconnectedHost (hostId : HostId) : Proper (expireDisconnectedHost hostId) := by
  refine Proper.bind ((proper_invoke _).bind fun connected => ?_) fun _ => proper_send rfl
  split
  · refine (proper_send rfl).bind fun leased => ?_
    split
    · trivial
    · refine (proper_send rfl).bind fun session => ?_
      split
      · split
        · exact (proper_failOrRetrySession _ _).bind fun _ => trivial
        · trivial
      · trivial
  · trivial

theorem proper_program (r : Request) (n : Nat) : Proper (r.program n) := by
  cases r with
  | post playerId request => exact (proper_postSessions _ _ playerId request).bind fun _ => trivial
  | delete sessionId playerId => exact (proper_deleteSession sessionId playerId).bind fun _ => trivial
  | event hostId e => exact proper_handleHostEvent hostId e
  | presence p => exact (proper_postPresence p).bind fun _ => trivial
  | control hostId connected => exact proper_handleControlConnection hostId connected
  | expireSessions =>
    exact (proper_invoke _).bind fun _ => (proper_send rfl).bind fun ids => proper_forM proper_expireSession ids
  | expirePreparations =>
    exact (proper_invoke _).bind fun _ => (proper_send rfl).bind fun ids => proper_forM proper_expirePreparation ids
  | expireDisconnectedHosts =>
    refine (proper_invoke _).bind fun _ => (proper_send rfl).bind fun ids => ?_
    exact proper_forM proper_expireDisconnectedHost ids

end Market
end CloudGaming
