import CloudGaming.Async.Along
import CloudGaming.Signaling.Scripts
/-!
# Occupancy — who is in a room over joins, leaves and expiries

`Seated` relates the keys to the clients that have joined and not left: a client whose lease is alive is a member, and
the key of its role names it.  Joins, leaves and the expiry of keys keep it as long as a role key does not expire before
the lease of the client it names, nor a room before the leases of its members (`Seated.expire`).
-/
namespace CloudGaming
namespace Signaling

open Redis Async

/-- The clients that have joined, and those of them that have not left. -/
structure Roster where
  joined : List Client := []
  present : List Client := []

namespace Roster

def join (ro : Roster) (x : Client) : Roster := ⟨x :: ro.joined, x :: ro.present⟩

def leave (ro : Roster) (clientId : String) : Roster := { ro with present := ro.present.filter (·.id ≠ clientId) }

/-- No client has joined with this id. -/
def fresh (ro : Roster) (clientId : String) : Bool := ro.joined.all (·.id ≠ clientId)

end Roster

structure Seated (capacity : Nat) (db : Rooms) (ro : Roster) : Prop where
  joined : ∀ x ∈ ro.present, x ∈ ro.joined
  distinct : ∀ x ∈ ro.joined, ∀ y ∈ ro.joined, x.id = y.id → x = y
  leased : ∀ c, db.live c = true → ∃ x ∈ ro.present, x.id = c
  member : ∀ x ∈ ro.present, db.live x.id = true → x.id ∈ db.smembers x.room
  bounded : ∀ room, db.scard room ≤ capacity
  named : ∀ x ∈ ro.present, db.live x.id = true → db.roles.get (x.room, x.role) = some (roleValue x)
  owned : ∀ room role v, db.roles.get (room, role) = some v →
    ∃ x ∈ ro.joined, x.room = room ∧ x.role = role ∧ v = roleValue x
  known : ∀ room c, c ∈ db.smembers room → ∃ x ∈ ro.joined, x.id = c ∧ x.room = room

theorem fresh_iff {ro : Roster} {c : String} : ro.fresh c = true ↔ ∀ x ∈ ro.joined, x.id ≠ c := by
  simp [Roster.fresh]

theorem mem_leave {ro : Roster} {c : String} {x : Client} : x ∈ (ro.leave c).present ↔ x ∈ ro.present ∧ x.id ≠ c := by
  simp [Roster.leave]

namespace Seated

variable {capacity : Nat} {db db' : Rooms} {ro : Roster} {room c : String} {x y : Client}

theorem empty : Seated capacity Rooms.empty {} where
  joined := by simp
  distinct := by simp
  leased := by simp [Rooms.empty, Rooms.live]
  member := by simp
  bounded := by simp [Rooms.empty, Rooms.scard, Rooms.smembers, Keys.get]
  named := by simp
  owned := by simp [Rooms.empty, Keys.get]
  known := by simp [Rooms.empty, Rooms.smembers, Keys.get]

theorem trim (h : Seated capacity db ro) (ht : Trims db db') : Seated capacity db' ro where
  joined := h.joined
  distinct := h.distinct
  leased := fun c hc => h.leased c (by rwa [ht.live] at hc)
  member := fun x hx hl => by
    rw [ht.live] at hl
    exact ht.keeps _ _ (h.member x hx hl) hl
  bounded := fun room => ht.scard.trans (h.bounded room)
  named := fun x hx hl => by
    rw [ht.live] at hl
    rw [ht.roles]
    exact h.named x hx hl
  owned := fun room role v hv => h.owned room role v (by rwa [ht.roles] at hv)
  known := fun room c hc => h.known room c (ht.mem hc)

/-- A client may lose its seat and its lease at once. -/
theorem evict (h : Seated capacity db ro) (room c : String) : Seated capacity (evict room c db) ro where
  joined := h.joined
  distinct := h.distinct
  leased := fun d hd => h.leased d (live_evict.1 hd).1
  member := fun x hx hl => by
    obtain ⟨hl, hne⟩ := live_evict.1 hl
    exact (mem_srem_of_ne hne).2 (h.member x hx hl)
  bounded := fun room => scard_srem_le.trans (h.bounded room)
  named := fun x hx hl => h.named x hx (live_evict.1 hl).1
  owned := h.owned
  known := fun room d hd => h.known room d (mem_of_mem_srem hd)

/-- The writes of a join, by a fresh client, where there is room and nobody alive holds the role. -/
theorem seat (h : Seated capacity db ro) (now ttl : Nat) (hx : ro.fresh x.id = true) (hc : db.scard x.room < capacity)
    (hr : ∀ y ∈ ro.present, db.live y.id = true → (y.room, y.role) ≠ (x.room, x.role)) :
    Seated capacity (seat now ttl x db) (ro.join x) := by
  have hne : ∀ y ∈ ro.joined, y.id ≠ x.id := fresh_iff.1 hx
  have hlive : ∀ y ∈ ro.present, (Signaling.seat now ttl x db).live y.id = true → db.live y.id = true := fun y hy hl =>
    (live_seat.1 hl).resolve_right (hne y (h.joined y hy))
  exact {
    joined := by
      intro y hy
      rcases List.mem_cons.1 hy with rfl | hy
      · exact List.mem_cons_self
      · exact List.mem_cons_of_mem _ (h.joined y hy)
    distinct := by
      intro y hy z hz he
      rcases List.mem_cons.1 hy with rfl | hy' <;> rcases List.mem_cons.1 hz with rfl | hz'
      · rfl
      · exact absurd he.symm (hne z hz')
      · exact absurd he (hne y hy')
      · exact h.distinct y hy' z hz' he
    leased := by
      intro c hc
      rcases live_seat.1 hc with hl | rfl
      · obtain ⟨y, hy, rfl⟩ := h.leased c hl
        exact ⟨y, List.mem_cons_of_mem _ hy, rfl⟩
      · exact ⟨x, List.mem_cons_self, rfl⟩
    member := by
      intro y hy hl
      rcases List.mem_cons.1 hy with rfl | hy
      · exact mem_seat.2 (.inr ⟨rfl, rfl⟩)
      · exact mem_seat.2 (.inl (h.member y hy (hlive y hy hl)))
    bounded := by
      intro room
      by_cases hroom : room = x.room
      · subst hroom
        exact scard_seat_self.trans hc
      · rw [scard_seat_of_ne hroom]
        exact h.bounded room
    named := by
      intro y hy hl
      rcases List.mem_cons.1 hy with rfl | hy
      · exact role_seat_self
      · have hl := hlive y hy hl
        rw [role_seat_of_ne (hr y hy hl)]
        exact h.named y hy hl
    owned := by
      intro room role v hv
      by_cases hk : (room, role) = (x.room, x.role)
      · obtain ⟨rfl, rfl⟩ := Prod.mk.inj hk
        rw [role_seat_self, Option.some.injEq] at hv
        exact ⟨x, List.mem_cons_self, rfl, rfl, hv.symm⟩
      · rw [role_seat_of_ne hk] at hv
        obtain ⟨y, hy, he⟩ := h.owned room role v hv
        exact ⟨y, List.mem_cons_of_mem _ hy, he⟩
    known := by
      intro room c hc
      rcases mem_seat.1 hc with hc | ⟨rfl, rfl⟩
      · obtain ⟨y, hy, he⟩ := h.known room c hc
        exact ⟨y, List.mem_cons_of_mem _ hy, he⟩
      · exact ⟨x, List.mem_cons_self, rfl, rfl⟩ }

/-- A present client with a live lease is the one its role key names. -/
theorem names (h : Seated capacity db ro) (hx : x ∈ ro.present) (hl : db.live x.id = true) {v : String}
    (hv : db.roles.get (x.room, x.role) = some v) : v = roleValue x := by
  rw [h.named x hx hl, Option.some.injEq] at hv
  exact hv.symm

/-- The client a role key names, where the script can read it. -/
theorem holder (h : Seated capacity db ro) {role : Role} {v : String} {p : String × String}
    (hv : db.roles.get (room, role) = some v) (hm : matchRole v = some p) :
    ∃ y ∈ ro.joined, y.room = room ∧ y.role = role ∧ p = (y.owner.text, y.id) := by
  obtain ⟨y, hy, hroom, hrole, rfl⟩ := h.owned room role v hv
  exact ⟨y, hy, hroom, hrole, matchRole_some hm⟩

/-- The take-over leaves nobody alive in the role. -/
theorem free_of_evict (h : Seated capacity db ro) {v o : String} (hv : db.roles.get (x.room, x.role) = some v)
    (hm : matchRole v = some (o, c)) (y : Client) (hy : y ∈ ro.present)
    (hl : (Signaling.evict x.room c db).live y.id = true) : (y.room, y.role) ≠ (x.room, x.role) := by
  obtain ⟨hl, hne⟩ := live_evict.1 hl
  intro hk
  rw [← hk] at hv
  have hvy := h.names hy hl hv
  rw [hvy] at hm
  exact hne (Prod.mk.inj (matchRole_some hm)).2.symm

/-- **A join of a fresh client keeps the rooms in order**: it enters with a code of at least one, or stays out. -/
theorem join (h : Seated capacity db ro) (now ttl : Nat) (hx : ro.fresh x.id = true) :
    Seated capacity (luaJoin now ttl capacity x db).2
      (if 1 ≤ (luaJoin now ttl capacity x db).1 then ro.join x else ro) := by
  have henter : ∀ d, Seated capacity d ro →
      (∀ y ∈ ro.present, d.live y.id = true → (y.room, y.role) ≠ (x.room, x.role)) →
      Seated capacity (enter now ttl capacity x d).2
        (if 1 ≤ (enter now ttl capacity x d).1 then ro.join x else ro) := by
    intro d hd hfree
    obtain ⟨-, he⟩ | ⟨hlt, he⟩ := enter_cases now ttl capacity x d <;> rw [he]
    · exact hd
    · rw [if_pos (by omega)]
      exact hd.seat now ttl hx hlt hfree
  obtain ⟨hm, -⟩ | ⟨-, d, ht, ⟨v, -, -, he⟩ | ⟨v, c, hv, hr, he⟩ | ⟨hv, he⟩⟩ := luaJoin_cases now ttl capacity x db
  · obtain ⟨y, hy, hid, -⟩ := h.known _ _ hm
    exact absurd hid (fresh_iff.1 hx y hy)
  · rw [he]
    exact h.trim ht
  · rw [he]
    have hd := h.trim ht
    rw [← ht.roles] at hv
    exact henter _ (hd.evict x.room c) (hd.free_of_evict hv hr)
  · rw [he]
    have hd := h.trim ht
    refine henter _ hd fun y hy hl hk => ?_
    rw [ht.live] at hl
    have hn := h.named y hy hl
    rw [hk, hv] at hn
    cases hn

/-- A leave may come from anyone who names a client. -/
theorem leave (h : Seated capacity db ro) (x : Client) : Seated capacity (luaLeave x db).2 (ro.leave x.id) := by
  have he := h.evict x.room x.id
  have hpresent : ∀ y ∈ (ro.leave x.id).present, y ∈ ro.present ∧ y.id ≠ x.id := fun y hy => mem_leave.1 hy
  have hd : Seated capacity (Signaling.evict x.room x.id db) (ro.leave x.id) := {
    he with
    joined := fun y hy => he.joined y (hpresent y hy).1
    leased := by
      intro c hc
      obtain ⟨y, hy, rfl⟩ := he.leased c hc
      exact ⟨y, mem_leave.2 ⟨hy, (live_evict.1 hc).2⟩, rfl⟩
    member := fun y hy => he.member y (hpresent y hy).1
    named := fun y hy => he.named y (hpresent y hy).1 }
  simp only [luaLeave]
  split
  · rename_i hv
    refine { hd with named := ?_, owned := ?_ }
    · intro y hy hl
      have hn := hd.named y hy hl
      have hk : (y.room, y.role) ≠ (x.room, x.role) := by
        intro hk
        rw [hk, hv, Option.some.injEq] at hn
        exact (hpresent y hy).2 (roleValue_inj hn).2.symm
      simpa only [Rooms.delRole, Keys.get_del_of_ne _ hk] using hn
    · intro room role v hv
      refine hd.owned room role v ?_
      by_cases hk : (room, role) = (x.room, x.role)
      · simp [Rooms.delRole, hk] at hv
      · simpa only [Rooms.delRole, Keys.get_del_of_ne _ hk] using hv
  · exact hd

/-- **Keys may disappear**, a role key only with the lease of the client it names, a room only with those of its members. -/
theorem expire (h : Seated capacity db ro) (hl : ∀ c, db'.live c = true → db.live c = true)
    (hm : ∀ room, db'.smembers room = db.smembers room ∨
      db'.smembers room = [] ∧ ∀ c ∈ db.smembers room, db'.live c = false)
    (hr : ∀ k, db'.roles.get k = db.roles.get k ∨ db'.roles.get k = none ∧
      ∀ v, db.roles.get k = some v → ∀ o c, splitRole v = some (o, c) → db'.live c = false) :
    Seated capacity db' ro where
  joined := h.joined
  distinct := h.distinct
  leased := fun c hc => h.leased c (hl c hc)
  member := by
    intro x hx hlx
    have hin := h.member x hx (hl _ hlx)
    rcases hm x.room with he | ⟨-, hd⟩
    · rwa [he]
    · rw [hd _ hin] at hlx
      cases hlx
  bounded := by
    intro room
    rcases hm room with he | ⟨he, -⟩
    · unfold Rooms.scard
      rw [he]
      exact h.bounded room
    · simp [Rooms.scard, he]
  named := by
    intro x hx hlx
    have hv := h.named x hx (hl _ hlx)
    rcases hr (x.room, x.role) with he | ⟨-, hd⟩
    · rwa [he]
    · rw [hd _ hv _ _ (splitRole_roleValue x)] at hlx
      cases hlx
  owned := by
    intro room role v hv
    rcases hr (room, role) with he | ⟨hn, -⟩
    · exact h.owned room role v (he ▸ hv)
    · rw [hn] at hv
      cases hv
  known := by
    intro room c hc
    rcases hm room with he | ⟨hn, -⟩
    · exact h.known room c (he ▸ hc)
    · rw [hn] at hc
      cases hc

/-- **A refused join has only trimmed the room**: it finds the room full after a take-over only where the client it
took over from had no lease any more. -/
theorem trims_of_refused (h : Seated capacity db ro) {now ttl : Nat} (hc : (luaJoin now ttl capacity x db).1 < 0) :
    Trims db (luaJoin now ttl capacity x db).2 := by
  have henter : ∀ d, (enter now ttl capacity x d).1 < 0 →
      capacity ≤ d.scard x.room ∧ (enter now ttl capacity x d).2 = d := by
    intro d hd
    obtain ⟨hfull, he⟩ | ⟨-, he⟩ := enter_cases now ttl capacity x d <;> rw [he] at hd ⊢
    · exact ⟨hfull, rfl⟩
    · simp only at hd
      omega
  obtain ⟨-, he⟩ | ⟨-, d, ht, ⟨v, -, -, he⟩ | ⟨v, c, hv, hr, he⟩ | ⟨-, he⟩⟩ := luaJoin_cases now ttl capacity x db <;>
    rw [he] at hc ⊢
  · exact Trims.refl db
  · exact ht
  · have hd := h.trim ht
    rw [← ht.roles] at hv
    obtain ⟨hfull, he⟩ := henter _ hc
    rw [he]
    have hdead : d.live c = false := by
      by_contra hlive
      simp only [Bool.not_eq_false] at hlive
      obtain ⟨y, hy, hroom, -, hp⟩ := hd.holder hv hr
      obtain ⟨z, hz, hzc⟩ := hd.leased c hlive
      have hyz : z = y := hd.distinct z (hd.joined z hz) y hy (hzc.trans (Prod.mk.inj hp).2)
      have hmem := hd.member z hz (by rwa [hzc])
      rw [hzc, hyz, hroom] at hmem
      have hlt : (Signaling.evict x.room c d).scard x.room < d.scard x.room := scard_srem_lt hmem
      have hle := hd.bounded x.room
      omega
    have hdel : (d.srem x.room c).delLease c = d.srem x.room c := delLease_of_dead hdead
    unfold Signaling.evict
    rw [hdel]
    exact ht.trans (Trims.srem hdead)
  · rw [(henter _ hc).2]
    exact ht

end Seated

/-! ## Histories -/

structure Occupancy where
  db : Rooms := Rooms.empty
  roster : Roster := {}

/-- A script is evaluated at the instant `now`, or the TTL of a key elapses. -/
inductive Event where
  | join (now : Nat) (x : Client)
  | leave (x : Client)
  | expireLease (clientId : String)
  | expireRole (room : String) (role : Role)
  | expireRoom (room : String)

/-- The client a role key names has a lease. -/
def heldAlive (db : Rooms) (room : String) (role : Role) : Bool :=
  match (db.roles.get (room, role)).bind splitRole with
  | some (_, c) => db.live c
  | none => false

/-- A client joins once, a role key outlives the lease of the client it names, a room those of its members. -/
def Occupancy.step (ttl capacity : Nat) (s : Occupancy) : Event → Option Occupancy
  | .join now x =>
    if s.roster.fresh x.id then
      let out := luaJoin now ttl capacity x s.db
      some ⟨out.2, if 1 ≤ out.1 then s.roster.join x else s.roster⟩
    else none
  | .leave x => some ⟨(luaLeave x s.db).2, s.roster.leave x.id⟩
  | .expireLease c => some { s with db := s.db.delLease c }
  | .expireRole room role => if heldAlive s.db room role then none else some { s with db := s.db.delRole room role }
  | .expireRoom room =>
    if (s.db.smembers room).any s.db.live then none
    else some { s with db := { s.db with members := s.db.members.del room } }

/-- Whoever has joined, has not left and has a lease is a member; no room is too full; a role has one such holder, the
one its key names. -/
structure Occupied (capacity : Nat) (s : Occupancy) : Prop where
  member : ∀ x ∈ s.roster.present, s.db.live x.id = true → x.id ∈ s.db.smembers x.room
  bounded : ∀ room, s.db.scard room ≤ capacity
  alone : ∀ x ∈ s.roster.present, ∀ y ∈ s.roster.present, s.db.live x.id = true → s.db.live y.id = true →
    x.room = y.room → x.role = y.role → x = y
  named : ∀ x ∈ s.roster.present, s.db.live x.id = true → s.db.roles.get (x.room, x.role) = some (roleValue x)

theorem Seated.occupied {capacity : Nat} {s : Occupancy} (h : Seated capacity s.db s.roster) : Occupied capacity s where
  member := h.member
  bounded := h.bounded
  alone := by
    intro x hx y hy hlx hly hroom hrole
    have hvx := h.named x hx hlx
    rw [hroom, hrole] at hvx
    exact h.distinct x (h.joined x hx) y (h.joined y hy) (roleValue_inj (h.names hy hly hvx)).2
  named := h.named

theorem seated_step {ttl capacity : Nat} {s s' : Occupancy} {e : Event} (h : Seated capacity s.db s.roster)
    (hs : s.step ttl capacity e = some s') : Seated capacity s'.db s'.roster := by
  cases e with
  | join now x =>
    simp only [Occupancy.step] at hs
    split at hs
    · rename_i hx
      cases hs
      exact h.join now ttl hx
    · cases hs
  | leave x =>
    cases hs
    exact h.leave x
  | expireLease c =>
    cases hs
    refine h.expire (fun d hd => ?_) (fun _ => .inl rfl) (fun _ => .inl rfl)
    by_cases hdc : d = c
    · rw [hdc, live_delLease_self] at hd
      cases hd
    · rwa [live_delLease_of_ne hdc] at hd
  | expireRole room role =>
    simp only [Occupancy.step] at hs
    split at hs
    · cases hs
    · rename_i hdead
      cases hs
      refine h.expire (fun _ hd => hd) (fun _ => .inl rfl) (fun k => ?_)
      by_cases hk : k = (room, role)
      · subst hk
        refine .inr ⟨by simp [Rooms.delRole], fun v hv o c hc => ?_⟩
        have hlive : s.db.live c = false := by simpa [heldAlive, hv, hc] using hdead
        exact hlive
      · exact .inl (by simp only [Rooms.delRole, Keys.get_del_of_ne _ hk])
  | expireRoom room =>
    simp only [Occupancy.step] at hs
    split at hs
    · cases hs
    · rename_i hdead
      cases hs
      refine h.expire (fun _ hd => hd) (fun r => ?_) (fun _ => .inl rfl)
      by_cases hr : r = room
      · subst hr
        refine .inr ⟨by simp [Rooms.smembers], fun c hc => ?_⟩
        have hlive : s.db.live c = false := by simpa using fun hl => hdead (List.any_eq_true.2 ⟨c, hc, hl⟩)
        exact hlive
      · exact .inl (by simp only [Rooms.smembers, Keys.get_del_of_ne _ hr])

/-- **The rooms stay in order over every history.** -/
theorem occupied_throughout (ttl capacity : Nat) (events : List Event) :
    Throughout (Occupancy.step ttl capacity) (Occupied capacity) {} events :=
  (Throughout.of_along (fun _ _ _ h _ hs => seated_step h hs) Seated.empty along_true).mono fun _ h => h.occupied

end Signaling
end CloudGaming
