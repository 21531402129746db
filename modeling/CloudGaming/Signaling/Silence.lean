import CloudGaming.Signaling.Network
/-!
# Silence — what the other instances do not hear

An envelope is sent on only while its sender holds a lease.  A client that leaves loses its lease before the notice of its
disconnect is published, and a client that is replaced loses it to its successor: neither the notices nor the messages of
a replaced client ever pass (`Calm`).  So nobody is told of a disconnect (`notified_iff`), and a replaced client is heard
exactly by the connections of its own instance (`muted_iff`).
-/
namespace CloudGaming
namespace Signaling

open Redis Async

/-! ## Leases that are gone -/

theorem live_luaJoin {now ttl capacity : Nat} {x : Client} {db : Rooms} {c : String}
    (h : (luaJoin now ttl capacity x db).2.live c = true) : db.live c = true ∨ c = x.id := by
  have henter : ∀ d, (enter now ttl capacity x d).2.live c = true → d.live c = true ∨ c = x.id := by
    intro d hd
    obtain ⟨-, he⟩ | ⟨-, he⟩ := enter_cases now ttl capacity x d <;> rw [he] at hd
    · exact .inl hd
    · exact live_seat.1 hd
  obtain ⟨-, he⟩ | ⟨-, d, ht, ⟨v, -, -, he⟩ | ⟨v, e, -, -, he⟩ | ⟨-, he⟩⟩ := luaJoin_cases now ttl capacity x db <;>
    rw [he] at h
  · exact .inl h
  · rw [ht.live] at h
    exact .inl h
  · refine (henter _ h).imp_left fun hl => ?_
    rw [← ht.live]
    exact (live_evict.1 hl).1
  · refine (henter _ h).imp_left fun hl => ?_
    rwa [ht.live] at hl

theorem live_luaLeave {x : Client} {db : Rooms} {c : String} (h : (luaLeave x db).2.live c = true) :
    db.live c = true ∧ c ≠ x.id := by
  simp only [luaLeave] at h
  split at h
  · exact live_evict.1 h
  · exact live_evict.1 h

/-- A client that has joined and has no lease any more. -/
structure Gone (s : Clocked) (c : String) : Prop where
  dead : s.db.live c = false
  known : s.roster.fresh c = false

namespace Gone

variable {ttl capacity : Nat} {s s' : Clocked} {c : String}

theorem of_live (h : Gone s c) (hl : s'.db.live c = true → s.db.live c = true)
    (hj : ∀ x ∈ s.roster.joined, x ∈ s'.roster.joined) : Gone s' c := by
  constructor
  · cases hd : s'.db.live c with
    | false => rfl
    | true => exact absurd (hl hd) (by simp [h.dead])
  · have hk := h.known
    rw [← Bool.not_eq_true, fresh_iff] at hk ⊢
    exact fun hall => hk fun x hx => hall x (hj x hx)

theorem joined_join (x : Client) (code : Int) (ro : Roster) :
    ∀ y ∈ ro.joined, y ∈ (if 1 ≤ code then ro.join x else ro).joined := by
  intro y hy
  split
  · exact List.mem_cons_of_mem _ hy
  · exact hy

/-- **A lease that is gone does not come back.** -/
theorem step (h : Gone s c) {m : Move} (hs : s.step ttl capacity m = some s') : Gone s' c := by
  cases m with
  | join x =>
    simp only [Clocked.step] at hs
    split at hs
    · rename_i hx
      cases hs
      refine h.of_live (fun hl => (live_luaJoin hl).resolve_right ?_) (joined_join x _ _)
      rintro rfl
      rw [h.known] at hx
      cases hx
    · cases hs
  | leave x =>
    simp only [Clocked.step] at hs
    split at hs
    · cases hs
      exact h.of_live (fun hl => (live_luaLeave hl).1) fun _ hy => hy
    · cases hs
  | heartbeat x =>
    simp only [Clocked.step] at hs
    split at hs
    · cases hs
      exact h.of_live (fun hl => by rwa [live_refresh] at hl) fun _ hy => hy
    · cases hs
  | elapse t =>
    simp only [Clocked.step] at hs
    split at hs
    · cases hs
      refine h.of_live (fun hl => ?_) fun _ hy => hy
      simp only [Rooms.live, Option.isSome_iff_exists] at hl ⊢
      obtain ⟨l, hl⟩ := hl
      exact ⟨l, (leases_sweep.1 hl).1⟩
    · cases hs

/-- A client that leaves has lost its lease. -/
theorem of_leave {x : Client} (hs : s.step ttl capacity (.leave x) = some s') : Gone s' x.id := by
  simp only [Clocked.step] at hs
  split at hs
  · rename_i hx
    cases hs
    constructor
    · cases hd : (luaLeave x s.db).2.live x.id with
      | false => rfl
      | true => exact absurd rfl (live_luaLeave hd).2
    · rw [← Bool.not_eq_true, fresh_iff]
      exact fun hall => hall x hx rfl
  · cases hs

end Gone

/-- A client that is replaced has lost its lease to its successor. -/
theorem gone_replaced {ttl capacity : Nat} {s s' : Clocked} {x : Client} (h : s.Sound ttl capacity)
    (hs : s.step ttl capacity (.join x) = some s')
    (hcode : 1 ≤ (luaJoin s.now ttl capacity x s.db).1) {v c : String} {o : String}
    (hv : s.db.roles.get (x.room, x.role) = some v) (hm : matchRole v = some (o, c)) : Gone s' c := by
  simp only [Clocked.step] at hs
  split at hs
  · rename_i hx
    cases hs
    obtain ⟨y, hy, -, -, hp⟩ := h.seated.holder hv hm
    obtain ⟨-, rfl⟩ := Prod.mk.inj hp
    have hne : y.id ≠ x.id := fresh_iff.1 hx y hy
    constructor
    · cases hd : (luaJoin s.now ttl capacity x s.db).2.live y.id with
      | false => rfl
      | true =>
        exfalso
        obtain ⟨hm', -⟩ | ⟨-, d, -, ⟨v', -, -, he⟩ | ⟨v', c', hv', hr, he⟩ | ⟨hv', -⟩⟩ :=
          luaJoin_cases s.now ttl capacity x s.db
        · obtain ⟨z, hz, hzid, -⟩ := h.seated.known _ _ hm'
          exact fresh_iff.1 hx z hz hzid
        · rw [he] at hcode
          simp at hcode
        · rw [hv, Option.some.injEq] at hv'
          subst hv'
          rw [hm, Option.some.injEq, Prod.mk.injEq] at hr
          obtain ⟨-, rfl⟩ := hr
          rw [he] at hd
          obtain ⟨-, hen⟩ | ⟨-, hen⟩ := enter_cases s.now ttl capacity x (evict x.room y.id d) <;> rw [hen] at hd
          · exact absurd rfl (live_evict.1 hd).2
          · rcases live_seat.1 hd with hl | hl
            · exact absurd rfl (live_evict.1 hl).2
            · exact hne hl
        · rw [hv] at hv'
          cases hv'
    · rw [← Bool.not_eq_true, fresh_iff]
      exact fun hall => hall y (List.mem_cons_of_mem _ hy) rfl
  · cases hs

/-! ## What is on its way -/

namespace Network

/-- The sender of a message that is not to pass has lost its lease. -/
def Hushed (s : Network) (late : Bool) (e : Envelope) : Prop :=
  late = true ∨ SignalingMessageSchema e.data = false → Gone s.clock e.senderId

/-- A message of a replaced client, which the connection `n` still has. -/
def Muffled (s : Network) (late : Bool) (n : Nat) : Prop :=
  late = true → ∃ ws : Socket, s.sockets[n]? = some ws ∧ Gone s.clock ws.clientId

def CalmTask (s : Network) : Task → Prop
  | .setup _ | .leave .. => True
  | .ask n _ data late | .limit n _ data late => SignalingMessageSchema data = true ∧ s.Muffled late n
  | .publish _ e late | .arrive _ _ e late => s.Hushed late e
  | .read _ _ e leaseOwner _ late =>
    s.Hushed late e ∧ ∀ l, leaseOwner = some l → late = true ∨ SignalingMessageSchema e.data = false → l = none

structure Calm (ttl capacity : Nat) (s : Network) : Prop where
  sound : s.clock.Sound ttl capacity
  replaced : ∀ c ∈ s.replaced, Gone s.clock c
  tasks : ∀ t ∈ s.tasks, s.CalmTask t
  sent : ∀ d ∈ s.sent, SignalingMessageSchema d.data = true

/-- Leases that are gone stay so, and the connections keep their clients. -/
structure Later (s s' : Network) : Prop where
  gone : ∀ c, Gone s.clock c → Gone s'.clock c
  client : ∀ (n : Nat) (ws : Socket), s.sockets[n]? = some ws →
    ∃ ws' : Socket, s'.sockets[n]? = some ws' ∧ ws'.clientId = ws.clientId

section later
variable {s s' : Network} {t : Task}

theorem Later.of_map (hc : s'.clock = s.clock) (f : Nat → Socket → Socket) (hf : ∀ n ws, (f n ws).clientId = ws.clientId)
    (hs : ∀ n : Nat, s'.sockets[n]? = (s.sockets[n]?).map (f n)) : Later s s' where
  gone := fun c h => by rwa [hc]
  client := fun n ws h => ⟨f n ws, by rw [hs, h]; rfl, hf n ws⟩

theorem Later.of_eq (hc : s'.clock = s.clock) (hs : s'.sockets = s.sockets) : Later s s' :=
  Later.of_map hc (fun _ ws => ws) (fun _ _ => rfl) fun n => by rw [hs]; simp

theorem Later.update (n : Nat) (f : Socket → Socket) (hf : ∀ ws, (f ws).clientId = ws.clientId)
    (hc : s'.clock = s.clock) (hs : s'.sockets = s.sockets.modify n f) : Later s s' := by
  refine Later.of_map hc (fun m ws => if n = m then f ws else ws) (fun m ws => ?_) fun m => ?_
  · split
    · exact hf ws
    · rfl
  · rw [hs, List.getElem?_modify]
    rfl

theorem Later.clocked (hg : ∀ c, Gone s.clock c → Gone s'.clock c) (hs : s'.sockets = s.sockets) : Later s s' where
  gone := hg
  client := fun n ws h => ⟨ws, by rwa [hs], rfl⟩

theorem Hushed.later {late : Bool} {e : Envelope} (h : s.Hushed late e) (hl : Later s s') : s'.Hushed late e :=
  fun hq => hl.gone _ (h hq)

theorem Muffled.later {late : Bool} {n : Nat} (h : s.Muffled late n) (hl : Later s s') : s'.Muffled late n := by
  intro hq
  obtain ⟨ws, hws, hg⟩ := h hq
  obtain ⟨ws', hws', hid⟩ := hl.client n ws hws
  exact ⟨ws', hws', by rw [hid]; exact hl.gone _ hg⟩

theorem CalmTask.later (h : s.CalmTask t) (hl : Later s s') : s'.CalmTask t := by
  cases t with
  | setup n => trivial
  | leave n b => trivial
  | ask n sid data late => exact ⟨h.1, h.2.later hl⟩
  | limit n sid data late => exact ⟨h.1, h.2.later hl⟩
  | publish r e late => exact Hushed.later h hl
  | arrive sv r e late => exact Hushed.later h hl
  | read sv r e l ro late => exact ⟨h.1.later hl, h.2⟩

end later

variable {cfg : Config} {servers : List Uuid} {ttl capacity : Nat} {s s' : Network}

/-- What a step does to the rest: the deliveries it makes, and the notices it owes. -/
structure Advance (ttl capacity : Nat) (s s' : Network) (new : List Delivery) (owes : List (Nat × Nat)) : Prop where
  later : Later s s'
  sound : s'.clock.Sound ttl capacity
  replaced : ∀ c ∈ s'.replaced, c ∈ s.replaced ∨ Gone s'.clock c
  tasks : ∀ t ∈ s'.tasks, t ∈ s.tasks ∨ s'.CalmTask t
  sent : s'.sent = s.sent ++ new
  valid : ∀ d ∈ new, SignalingMessageSchema d.data = true
  owed : s'.owed = s.owed ++ owes

theorem Advance.calm {new : List Delivery} {owes : List (Nat × Nat)} (ha : Advance ttl capacity s s' new owes)
    (h : s.Calm ttl capacity) : s'.Calm ttl capacity where
  sound := ha.sound
  replaced := fun c hc => (ha.replaced c hc).elim (fun hc => ha.later.gone c (h.replaced c hc)) id
  tasks := fun t htm => (ha.tasks t htm).elim (fun htm => (h.tasks t htm).later ha.later) id
  sent := fun d hd => by
    rw [ha.sent, List.mem_append] at hd
    exact hd.elim (h.sent d) (ha.valid d)

/-- A step that sends nothing and leaves the keys alone. -/
theorem Advance.silent (h : s.Calm ttl capacity) (hl : Later s s') (hc : s'.clock = s.clock)
    (hr : s'.replaced = s.replaced) (ht : ∀ t ∈ s'.tasks, t ∈ s.tasks ∨ s'.CalmTask t) (hs : s'.sent = s.sent)
    (ho : s'.owed = s.owed) : Advance ttl capacity s s' [] [] where
  later := hl
  sound := by rw [hc]; exact h.sound
  replaced := fun c hm => .inl (hr ▸ hm)
  tasks := ht
  sent := by rw [hs, List.append_nil]
  valid := by simp
  owed := by rw [ho, List.append_nil]

theorem mem_next {k : Nat} {ts : List Task} {t : Task} (h : t ∈ (s.next k ts).tasks) : t ∈ s.tasks ∨ t ∈ ts :=
  (List.mem_append.1 h).imp_left List.mem_of_mem_eraseIdx

theorem mem_appended {ts us : List Task} {t : Task} (hu : ∀ t ∈ us, s'.CalmTask t) (h : t ∈ ts ++ us) :
    t ∈ ts ∨ s'.CalmTask t := (List.mem_append.1 h).imp_right (hu t)

/-- A handler goes on without sending anything. -/
theorem advance_next (h : s.Calm ttl capacity) (k : Nat) {ts : List Task} (ht : ∀ t ∈ ts, s.CalmTask t) :
    Advance ttl capacity s (s.next k ts) [] [] :=
  .silent h (.of_eq rfl rfl) rfl rfl (fun t hm => (mem_next hm).imp_right (ht t)) rfl rfl

/-- The state of one connection changes. -/
theorem advance_update (h : s.Calm ttl capacity) (n : Nat) (f : Socket → Socket)
    (hf : ∀ ws, (f ws).clientId = ws.clientId) : Advance ttl capacity s (s.update n f) [] [] :=
  .silent h (.update n f hf rfl rfl) rfl rfl (fun _ hm => .inl hm) rfl rfl

theorem advance_tasks (h : s.Calm ttl capacity) {ts : List Task} (ht : ∀ t ∈ ts, s.CalmTask t) :
    Advance ttl capacity s { s with tasks := s.tasks ++ ts } [] [] :=
  .silent h (.of_eq rfl rfl) rfl rfl (fun _ hm => mem_appended (fun t hu => ht t hu) hm) rfl rfl

/-- The connection goes, and its leave is due. -/
theorem advance_going (h : s.Calm ttl capacity) (n : Nat) (notify : Bool) (f : Socket → Socket)
    (hf : ∀ ws, (f ws).clientId = ws.clientId) :
    Advance ttl capacity s { (s.update n f) with tasks := s.tasks ++ [.leave n notify] } [] [] :=
  .silent h (.update n f hf rfl rfl) rfl rfl (fun _ hm => mem_appended (by simp [CalmTask]) hm) rfl rfl

theorem Advance.trans {s₁ s₂ : Network} {new₁ new₂ : List Delivery} {owes₁ owes₂ : List (Nat × Nat)}
    (h : Advance ttl capacity s s₁ new₁ owes₁) (h' : Advance ttl capacity s₁ s₂ new₂ owes₂) :
    Advance ttl capacity s s₂ (new₁ ++ new₂) (owes₁ ++ owes₂) where
  later := {
    gone := fun c hc => h'.later.gone c (h.later.gone c hc)
    client := fun n ws hn => by
      obtain ⟨ws₁, hn₁, he₁⟩ := h.later.client n ws hn
      obtain ⟨ws₂, hn₂, he₂⟩ := h'.later.client n ws₁ hn₁
      exact ⟨ws₂, hn₂, he₂.trans he₁⟩ }
  sound := h'.sound
  replaced := fun c hc => (h'.replaced c hc).elim
    (fun hc => (h.replaced c hc).imp_right (h'.later.gone c)) .inr
  tasks := fun t ht => (h'.tasks t ht).elim
    (fun ht => (h.tasks t ht).imp_right fun hq => hq.later h'.later) .inr
  sent := by rw [h'.sent, h.sent, List.append_assoc]
  valid := fun d hd => (List.mem_append.1 hd).elim (h.valid d) (h'.valid d)
  owed := by rw [h'.owed, h.owed, List.append_assoc]

/-! ## The steps -/

theorem advance_joinRoom (h : s.Calm cfg.roomTtlSeconds cfg.roomCapacity) {ws : Socket}
    (hs : s.joinRoom cfg ws = some s') : Advance cfg.roomTtlSeconds cfg.roomCapacity s s' [] [] := by
  simp only [joinRoom, Option.map_eq_some_iff] at hs
  obtain ⟨clock, hc, hs⟩ := hs
  have hg : ∀ c, Gone s.clock c → Gone clock c := fun c hgone => hgone.step hc
  have hsound := h.sound.step hc
  split at hs
  · rename_i hcode
    subst hs
    refine ⟨⟨hg, fun n w hn => ⟨w, ?_, rfl⟩⟩, hsound, fun c hm => ?_, fun t hm => ?_, by simp, by simp, by simp⟩
    · rw [List.getElem?_append_left (List.getElem?_eq_some_iff.1 hn).1]
      exact hn
    · refine (List.mem_append.1 hm).imp_right fun hm => ?_
      simp only [replaces] at hm
      split at hm
      · rename_i o e hread
        obtain ⟨v, hv, hr⟩ := Option.bind_eq_some_iff.1 hread
        rw [List.mem_singleton] at hm
        rw [hm]
        exact gone_replaced h.sound hc hcode hv hr
      · cases hm
    · refine (List.mem_append.1 hm).imp_right fun hm => ?_
      rw [List.mem_singleton] at hm
      subst hm
      trivial
  · subst hs
    exact ⟨.clocked hg rfl, hsound, fun c hm => .inl hm, fun t hm => .inl hm, by simp, by simp, by simp⟩

theorem clientId_closeReplaced (ws existing : Socket) : (closeReplaced ws existing).clientId = existing.clientId := by
  unfold closeReplaced
  split <;> rfl

theorem clientId_shed (cfg : Config) (server : Uuid) (room : String) (e : Envelope) (client : Socket) :
    (shed cfg server room e client).clientId = client.clientId := by
  unfold shed
  split <;> rfl

theorem advance_setup (h : s.Calm ttl capacity) (k n : Nat) (ws : Socket) :
    Advance ttl capacity s (s.setup k n ws) [] [] := by
  unfold setup
  split
  · refine .silent h ?_ rfl rfl (fun t hm => (mem_next hm).imp_right (by simp)) rfl rfl
    refine Later.of_map rfl (fun m w => if n = m then { closeReplaced ws w with registered := true }
      else closeReplaced ws w) (fun m w => ?_) fun m => ?_
    · split
      · exact clientId_closeReplaced ws w
      · exact clientId_closeReplaced ws w
    · rw [List.getElem?_modify, List.getElem?_map, Option.map_eq_map, Option.map_map]
      rfl
  · refine advance_next h k fun t ht => ?_
    rw [List.mem_singleton] at ht
    subst ht
    trivial

theorem advance_receive (h : s.Calm ttl capacity) {n : Nat} {ws : Socket} (hn : s.sockets[n]? = some ws) (tokens : Bool)
    (frame : Frame) : Advance ttl capacity s (s.receive cfg n tokens frame ws) [] [] := by
  have hmuffled : s.Muffled (s.replaced.contains ws.clientId) n := fun hl =>
    ⟨ws, hn, h.replaced _ (by simpa using hl)⟩
  unfold receive
  simp only
  split
  · exact .silent h (.of_eq rfl rfl) rfl rfl (fun _ hm => .inl hm) rfl rfl
  · exact .silent h (.of_eq rfl rfl) rfl rfl (fun _ hm => .inl hm) rfl rfl
  · exact advance_update h n _ fun _ => rfl
  · rename_i sid data hv
    have hacc : Accepted cfg ws (some sid) data := accepted_of_screen (.inr ⟨sid, rfl, hv⟩)
    refine advance_tasks h fun t ht => ?_
    rw [List.mem_singleton] at ht
    subst ht
    exact ⟨hacc.valid, hmuffled⟩
  · rename_i sid data hv
    have hacc : Accepted cfg ws sid data := accepted_of_screen (.inl hv)
    split
    · have hu := advance_update h n (fun ws => { ws with currentSessionId := sid }) fun _ => rfl
      refine hu.trans (advance_tasks (hu.calm h) fun t ht => ?_)
      rw [List.mem_singleton] at ht
      subst ht
      exact ⟨hacc.valid, hmuffled.later hu.later⟩
    · refine advance_tasks h fun t ht => ?_
      rw [List.mem_singleton] at ht
      subst ht
      exact ⟨hacc.valid, hmuffled⟩

theorem advance_answer (h : s.Calm ttl capacity) {k n : Nat} {sid : String} {data : Json} {late : Bool}
    (ht : s.CalmTask (.ask n sid data late)) (ws : Socket) :
    Advance ttl capacity s (s.answer k n sid data late ws) [] [] := by
  unfold answer
  split
  · have hu := advance_update h n (fun ws => { ws with currentSessionId := some sid }) fun _ => rfl
    refine hu.trans (advance_next (hu.calm h) k fun t htm => ?_)
    rw [List.mem_singleton] at htm
    subst htm
    exact ⟨ht.1, ht.2.later hu.later⟩
  · exact advance_next h k (by simp)

/-- What the local fan-out delivers. -/
theorem advance_fanOut (h : s.Calm ttl capacity) {k n : Nat} {sid : Option String} {data : Json} {late : Bool}
    (ht : s.CalmTask (.limit n sid data late)) {ws : Socket} (hn : s.sockets[n]? = some ws) :
    Advance ttl capacity s (s.fanOut cfg k n sid data late ws)
      ((s.localReceivers cfg n ws sid).map fun m => ⟨m, ws.clientId, data, late⟩) [] where
  later := .of_eq rfl rfl
  sound := h.sound
  replaced := fun _ hm => .inl hm
  tasks := by
    intro t hm
    refine (mem_next hm).imp_right fun hm => ?_
    rw [List.mem_singleton] at hm
    subst hm
    rintro (hl | hd)
    · obtain ⟨w, hw, hg⟩ := ht.2 hl
      rw [hn, Option.some.injEq] at hw
      subst hw
      exact hg
    · exact absurd ht.1 (Bool.eq_false_iff.1 hd)
  sent := rfl
  valid := by
    intro d hd
    obtain ⟨m, -, rfl⟩ := List.mem_map.1 hd
    exact ht.1
  owed := by simp [fanOut, next]

/-- **Only messages of live senders that are no notices are relayed.** -/
theorem advance_relay (h : s.Calm ttl capacity) {k : Nat} {server : Uuid} {room : String} {e : Envelope}
    {leaseOwner roleOwner : Option String} {late : Bool}
    (ht : s.CalmTask (.read server room e (some leaseOwner) (some roleOwner) late)) :
    ∃ new, Advance ttl capacity s (s.relay cfg k server room e leaseOwner roleOwner late) new [] ∧
      ∀ d ∈ new, d.late = false := by
  unfold relay
  split
  · rename_i hv
    have hlease : leaseOwner ≠ none := by
      rintro rfl
      unfold Envelope.vouched at hv
      split at hv
      · cases hv
      · simp at hv
    have hpass : ¬ (late = true ∨ SignalingMessageSchema e.data = false) := fun hq => hlease (ht.2 _ rfl hq)
    rw [not_or, Bool.not_eq_true, Bool.not_eq_false] at hpass
    refine ⟨_, ⟨?_, h.sound, fun _ hm => .inl hm, fun t hm => (mem_next hm).imp_right (by simp), rfl, ?_, ?_⟩, ?_⟩
    · refine Later.of_map rfl (fun _ w => shed cfg server room e w) (fun _ w => clientId_shed cfg server room e w)
        fun m => ?_
      rw [List.getElem?_map]
    · intro d hd
      obtain ⟨m, -, rfl⟩ := List.mem_map.1 hd
      exact hpass.2
    · simp [next]
    · intro d hd
      obtain ⟨m, -, rfl⟩ := List.mem_map.1 hd
      exact hpass.1
  · exact ⟨[], advance_next h k (by simp), by simp⟩

/-- The notices that a handler comes to owe when it resumes. -/
def owes (cfg : Config) (s : Network) : Task → List (Nat × Nat)
  | .leave n true =>
    match s.sockets[n]? with
    | some ws =>
      match disconnectSessionId ws with
      | some sid => (s.remaining cfg n ws sid).map (n, ·)
      | none => []
    | none => []
  | _ => []

/-- The connections that a message of a replaced client is handed to when its handler resumes. -/
def overheard (cfg : Config) (s : Network) (allowed : Bool) : Task → List Nat
  | .limit n sid _ true =>
    match s.sockets[n]? with
    | some ws => if allowed then s.localReceivers cfg n ws sid else []
    | none => []
  | _ => []

theorem advance_leaveRoom (h : s.Calm cfg.roomTtlSeconds cfg.roomCapacity) {k n : Nat} {notify : Bool} {ws : Socket}
    (hn : s.sockets[n]? = some ws) (hs : s.leaveRoom cfg k n notify ws = some s') :
    Advance cfg.roomTtlSeconds cfg.roomCapacity s s' [] (owes cfg s (.leave n notify)) := by
  simp only [leaveRoom, Option.map_eq_some_iff] at hs
  obtain ⟨clock, hc, hs⟩ := hs
  have hg : ∀ c, Gone s.clock c → Gone clock c := fun c hgone => hgone.step hc
  have hsound := h.sound.step hc
  have hquiet : ∀ {s'}, { (s.next k []) with clock } = s' →
      Advance cfg.roomTtlSeconds cfg.roomCapacity s s' [] [] := by
    rintro _ rfl
    exact ⟨.clocked hg rfl, hsound, fun _ hm => .inl hm, fun t hm => (mem_next hm).imp_right (by simp),
      by simp [next], by simp, by simp [next]⟩
  cases notify with
  | false => exact hquiet hs
  | true =>
    cases hsid : disconnectSessionId ws with
    | none =>
      simp only [hsid] at hs
      have howes : owes cfg s (.leave n true) = [] := by simp [owes, hn, hsid]
      rw [howes]
      exact hquiet hs
    | some sid =>
      simp only [hsid] at hs
      subst hs
      refine ⟨.clocked hg rfl, hsound, fun _ hm => .inl hm, fun t hm => ?_, by simp [next], by simp, ?_⟩
      · refine (mem_next hm).imp_right fun hm => ?_
        rw [List.mem_singleton] at hm
        subst hm
        exact fun _ => Gone.of_leave hc
      · simp [owes, hn, hsid]

/-- A handler that resumes owes the notices of `owes`, and hands late messages to `overheard` only. -/
theorem advance_resume (h : s.Calm cfg.roomTtlSeconds cfg.roomCapacity) {k : Nat} {allowed : Bool} {t : Task}
    (ht : s.CalmTask t) (hs : s.resume cfg servers k allowed t = some s') :
    ∃ new, Advance cfg.roomTtlSeconds cfg.roomCapacity s s' new (owes cfg s t) ∧
      ((∀ d ∈ new, d.late = false) ↔ overheard cfg s allowed t = []) := by
  cases t with
  | setup n =>
    obtain ⟨ws, hn, rfl⟩ := Option.map_eq_some_iff.1 hs
    exact ⟨[], advance_setup h k n ws, by simp [overheard]⟩
  | ask n sid data late =>
    obtain ⟨ws, hn, rfl⟩ := Option.map_eq_some_iff.1 hs
    exact ⟨[], advance_answer h ht ws, by simp [overheard]⟩
  | limit n sid data late =>
    obtain ⟨ws, hn, rfl⟩ := Option.map_eq_some_iff.1 hs
    cases allowed with
    | false =>
      refine ⟨[], advance_next h k (by simp), ?_⟩
      cases late <;> simp [overheard, hn]
    | true =>
      refine ⟨_, advance_fanOut h ht hn, ?_⟩
      cases late with
      | false => simp [overheard]
      | true => simp [overheard, hn, List.eq_nil_iff_forall_not_mem]
  | publish r e late =>
    obtain rfl := Option.some.inj hs
    refine ⟨[], advance_next h k fun t htm => ?_, by simp [overheard]⟩
    obtain ⟨server, -, rfl⟩ := List.mem_map.1 htm
    exact ht
  | arrive sv r e late =>
    obtain rfl := Option.some.inj hs
    refine ⟨[], ?_, by simp [overheard]⟩
    split
    · refine advance_next h k fun t htm => ?_
      rw [List.mem_singleton] at htm
      subst htm
      exact ⟨ht, by simp⟩
    · exact advance_next h k (by simp)
  | read sv r e leaseOwner roleOwner late =>
    cases leaseOwner with
    | none =>
      obtain rfl := Option.some.inj hs
      refine ⟨[], advance_next h k fun t htm => ?_, by simp [overheard]⟩
      rw [List.mem_singleton] at htm
      subst htm
      refine ⟨ht.1, fun l hl hq => ?_⟩
      obtain rfl := Option.some.inj hl
      have hdead := (ht.1 hq).dead
      rw [Keys.get_eq_none]
      simpa [Rooms.live] using hdead
    | some leaseOwner =>
      cases roleOwner with
      | none =>
        obtain rfl := Option.some.inj hs
        refine ⟨[], advance_next h k fun t htm => ?_, by simp [overheard]⟩
        rw [List.mem_singleton] at htm
        subst htm
        exact ht
      | some roleOwner =>
        obtain rfl := Option.some.inj hs
        obtain ⟨new, hnew, hlate⟩ := advance_relay h (k := k) ht
        exact ⟨new, hnew, fun _ => rfl, fun _ => hlate⟩
  | leave n notify =>
    obtain ⟨ws, hn, hs⟩ := Option.bind_eq_some_iff.1 hs
    exact ⟨[], advance_leaveRoom h hn hs, by simp [overheard]⟩

/-- What a step comes to owe, and whom it lets a replaced client be heard by. -/
def newlyOwed (cfg : Config) (s : Network) : Happening → List (Nat × Nat)
  | .task k _ => ((s.tasks[k]?).map (owes cfg s)).getD []
  | _ => []

def newlyHeard (cfg : Config) (s : Network) : Happening → List Nat
  | .task k allowed => ((s.tasks[k]?).map (overheard cfg s allowed)).getD []
  | _ => []

/-- **What one step adds**, in any order of the steps. -/
theorem advance_step (h : s.Calm cfg.roomTtlSeconds cfg.roomCapacity) {e : Happening}
    (hs : s.step cfg servers e = some s') :
    ∃ new, Advance cfg.roomTtlSeconds cfg.roomCapacity s s' new (newlyOwed cfg s e) ∧
      ((∀ d ∈ new, d.late = false) ↔ newlyHeard cfg s e = []) := by
  have hclock : ∀ {m : Move} {s' : Network}, (s.clock.step cfg.roomTtlSeconds cfg.roomCapacity m).map
      (fun clock => { s with clock }) = some s' → Advance cfg.roomTtlSeconds cfg.roomCapacity s s' [] [] := by
    intro m s' hs
    obtain ⟨clock, hc, rfl⟩ := Option.map_eq_some_iff.1 hs
    exact ⟨.clocked (fun c hg => hg.step hc) rfl, h.sound.step hc, fun _ hm => .inl hm, fun _ hm => .inl hm,
      by simp, by simp, by simp⟩
  have hquiet : ∀ {s'}, Advance cfg.roomTtlSeconds cfg.roomCapacity s s' [] [] →
      ∃ new, Advance cfg.roomTtlSeconds cfg.roomCapacity s s' new [] ∧
        ((∀ d ∈ new, d.late = false) ↔ ([] : List Nat) = []) := fun ha => ⟨[], ha, by simp⟩
  cases e with
  | join ws =>
    simp only [step] at hs
    split at hs
    · exact hquiet (advance_joinRoom h hs)
    · cases hs
  | frame n tokens frame =>
    obtain ⟨ws, hn, hs⟩ := Option.bind_eq_some_iff.1 hs
    split at hs
    · obtain rfl := Option.some.inj hs
      exact hquiet (advance_receive h hn tokens frame)
    · cases hs
  | task k allowed =>
    obtain ⟨t, hk, hs⟩ := Option.bind_eq_some_iff.1 hs
    obtain ⟨new, ha, hlate⟩ := advance_resume h (h.tasks t (List.mem_of_getElem? hk)) hs
    exact ⟨new, by simpa [newlyOwed, hk] using ha, by simpa [newlyHeard, hk] using hlate⟩
  | fail k =>
    obtain rfl := Option.some.inj hs
    exact hquiet (advance_next h k (by simp))
  | closing n =>
    obtain rfl := Option.some.inj hs
    exact hquiet (advance_update h n _ fun _ => rfl)
  | close n =>
    obtain ⟨ws, hn, hs⟩ := Option.bind_eq_some_iff.1 hs
    split at hs
    · obtain rfl := Option.some.inj hs
      exact hquiet (advance_going h n true _ fun _ => rfl)
    · cases hs
  | drain n =>
    obtain ⟨ws, hn, hs⟩ := Option.bind_eq_some_iff.1 hs
    split at hs
    · obtain rfl := Option.some.inj hs
      exact hquiet (advance_going h n false _ fun _ => rfl)
    · cases hs
  | buffered n amount =>
    obtain rfl := Option.some.inj hs
    exact hquiet (advance_update h n _ fun _ => rfl)
  | heartbeat n =>
    obtain ⟨ws, hn, hs⟩ := Option.bind_eq_some_iff.1 hs
    split at hs
    · exact hquiet (hclock hs)
    · cases hs
  | elapse now => exact hquiet (hclock hs)

theorem calm_init : Calm ttl capacity {} := ⟨Clocked.Sound.init, by simp, by simp, by simp⟩

theorem calm_step (h : s.Calm cfg.roomTtlSeconds cfg.roomCapacity) {e : Happening}
    (hs : s.step cfg servers e = some s') : s'.Calm cfg.roomTtlSeconds cfg.roomCapacity := by
  obtain ⟨new, ha, -⟩ := advance_step h hs
  exact ha.calm h

/-! ## Notices of a disconnect -/

/-- Whoever is owed a notice has been sent it. -/
def Notified (s : Network) : Prop :=
  ∀ p ∈ s.owed, ∃ d ∈ s.sent, d.receiver = p.2 ∧ ∃ ws sid, s.sockets[p.1]? = some ws ∧ d.sender = ws.clientId ∧
    d.data = notice sid

theorem not_valid_notice (sid : String) : SignalingMessageSchema (notice sid) = false := by
  simp [SignalingMessageSchema, notice, Json.field?, Json.str?]

theorem notified_iff_owed (h : s.Calm ttl capacity) : s.Notified ↔ s.owed = [] := by
  constructor
  · intro hn
    rw [List.eq_nil_iff_forall_not_mem]
    intro p hp
    obtain ⟨d, hd, -, ws, sid, -, -, hdata⟩ := hn p hp
    have hvalid := h.sent d hd
    rw [hdata, not_valid_notice] at hvalid
    cases hvalid
  · intro ho p hp
    rw [ho] at hp
    cases hp

/-- No client is left to be told. -/
def Alone (cfg : Config) (s : Network) (e : Happening) : Prop := newlyOwed cfg s e = []

theorem owed_iff (h : s.Calm cfg.roomTtlSeconds cfg.roomCapacity) {es : List Happening}
    (hs : after (step cfg servers) s es = some s') :
    s'.owed = [] ↔ s.owed = [] ∧ Along (step cfg servers) (Alone cfg) s es := by
  induction es generalizing s with
  | nil =>
    obtain rfl := Option.some.inj hs
    exact ⟨fun ho => ⟨ho, trivial⟩, fun ho => ho.1⟩
  | cons e es ih =>
    obtain ⟨t, ht, hs⟩ := Option.bind_eq_some_iff.1 hs
    obtain ⟨new, ha, -⟩ := advance_step h ht
    rw [ih (ha.calm h) hs, ha.owed, List.append_eq_nil_iff]
    constructor
    · rintro ⟨⟨ho, hcond⟩, hrest⟩
      refine ⟨ho, fun u hu => ?_⟩
      rw [ht, Option.some.injEq] at hu
      subst hu
      exact ⟨hcond, hrest⟩
    · rintro ⟨ho, hall⟩
      obtain ⟨hcond, hrest⟩ := hall t ht
      exact ⟨⟨ho, hcond⟩, hrest⟩

/-- **The clients that remain are told of a disconnect exactly where there are none.** -/
theorem notified_iff (cfg : Config) (servers : List Uuid) (es : List Happening) (s : Network)
    (h : after (step cfg servers) {} es = some s) : s.Notified ↔ Along (step cfg servers) (Alone cfg) {} es := by
  have hcalm : s.Calm cfg.roomTtlSeconds cfg.roomCapacity :=
    (Throughout.of_along (fun _ _ _ hc _ hs => calm_step hc hs) calm_init along_true).after h
  rw [notified_iff_owed hcalm, owed_iff calm_init h]
  exact ⟨fun ha => ha.2, fun ha => ⟨rfl, ha⟩⟩

/-- A player and its host, on two instances, and the player's connection closes. -/
def playerLeaves : List Happening :=
  [.join (Sample.host Sample.serverB), .task 0 true, .join (Sample.player Sample.hostId), .task 0 true, .close 1,
    .task 0 true, .task 0 true, .task 0 true, .task 0 true, .task 0 true, .task 0 true, .task 0 true]

theorem notified_iff_nobody :
    ((after (step Sample.config [Sample.serverA, Sample.serverB]) {} (playerLeaves.take 4)).getD {}).Notified ↔
      Along (step Sample.config [Sample.serverA, Sample.serverB]) (Alone Sample.config) {} (playerLeaves.take 4) :=
  notified_iff _ _ _ _ (by rfl)

theorem not_notified_playerLeaves : ∃ s, after (step Sample.config [Sample.serverA, Sample.serverB]) {} playerLeaves =
    some s ∧ s.tasks.length = 0 ∧ ¬ s.Notified := by
  obtain ⟨s, hs⟩ := Option.isSome_iff_exists.1
    (show (after (step Sample.config [Sample.serverA, Sample.serverB]) {} playerLeaves).isSome = true by decide)
  have htasks : (after (step Sample.config [Sample.serverA, Sample.serverB]) {} playerLeaves).map
      (·.tasks.length) = some 0 := by decide
  have howed : (after (step Sample.config [Sample.serverA, Sample.serverB]) {} playerLeaves).map
      (·.owed) = some [(1, 0)] := by decide
  rw [hs, Option.map_some, Option.some.injEq] at htasks howed
  have hcalm : s.Calm Sample.config.roomTtlSeconds Sample.config.roomCapacity :=
    (Throughout.of_along (fun _ _ _ hc _ hs => calm_step hc hs) calm_init along_true).after hs
  refine ⟨s, hs, htasks, fun hn => ?_⟩
  rw [notified_iff_owed hcalm, howed] at hn
  cases hn

/-! ## Replaced clients -/

/-- No message that a replaced client was still heard with has been delivered. -/
def Muted (s : Network) : Prop := ∀ d ∈ s.sent, d.late = false

/-- A message of a replaced client finds nobody on its own instance. -/
def Unheard (cfg : Config) (s : Network) (e : Happening) : Prop := newlyHeard cfg s e = []

/-- **A replaced client is muted in exactly those runs in which its messages find nobody on its own instance.** -/
theorem muted_iff (cfg : Config) (servers : List Uuid) (es : List Happening) :
    Throughout (step cfg servers) Muted {} es ↔ Along (step cfg servers) (Unheard cfg) {} es := by
  refine throughout_iff_along (fun _ _ _ hc (_ : True) hs => calm_step hc hs) (fun s e s' hc _ hp hs => ?_) calm_init
    (by simp [Muted]) along_true
  obtain ⟨new, ha, hlate⟩ := advance_step hc hs
  unfold Unheard
  rw [← hlate]
  constructor
  · intro hm d hd
    exact hm d (by rw [ha.sent]; exact List.mem_append_right _ hd)
  · intro hn d hd
    rw [ha.sent, List.mem_append] at hd
    exact hd.elim (hp d) (hn d)

/-- A host and a player on one instance; the player connects again on another one, and goes on talking on its first
connection. -/
def replacedTalks : List Happening :=
  let second : Socket := { Sample.player Sample.hostId with uid := Sample.otherHost, server := Sample.serverB }
  [.join (Sample.host Sample.serverA), .task 0 true, .join (Sample.player Sample.hostId), .task 0 true, .join second,
    .task 0 true, .frame 1 true ⟨80, some Sample.offer⟩, .task 0 true]

theorem not_muted_replacedTalks :
    ¬ Throughout (step Sample.config [Sample.serverA, Sample.serverB]) Muted {} replacedTalks := by
  intro h
  obtain ⟨s, hs⟩ := Option.isSome_iff_exists.1
    (show (after (step Sample.config [Sample.serverA, Sample.serverB]) {} replacedTalks).isSome = true by decide)
  have hlate : (after (step Sample.config [Sample.serverA, Sample.serverB]) {} replacedTalks).map
      (·.sent.map fun d => (d.receiver, d.late)) = some [(0, true)] := by decide
  rw [hs, Option.map_some, Option.some.injEq] at hlate
  have hmuted := h.after hs
  have hmem : (0, true) ∈ s.sent.map fun d => (d.receiver, d.late) := by rw [hlate]; exact List.mem_singleton_self _
  obtain ⟨d, hd, he⟩ := List.mem_map.1 hmem
  rw [hmuted d hd] at he
  exact absurd (Prod.mk.inj he).2 (by decide)

end Network

end Signaling
end CloudGaming
