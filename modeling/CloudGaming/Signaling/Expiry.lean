import CloudGaming.Signaling.Occupancy
/-!
# Expiry — the rooms on a clock

Joins, leaves, heartbeats and the passing of time.  A heartbeat of a connection refreshes the key of its role, its lease
and its room at once, the role key also where it names another client by then.  Role keys and rooms therefore never
expire before the leases they stand for (`Timed`), so that a refused join leaves the room intact
(`intact_throughout`); but a role key may outlive the lease of the client it names, unless every heartbeat finds its own
client there (`backed_throughout`).
-/
namespace CloudGaming
namespace Signaling

open Redis Async

structure Clocked where
  now : Nat := 0
  db : Rooms := Rooms.empty
  roster : Roster := {}

/-- A connection joins, leaves or has its heartbeat, on whatever instance it is; or the clock moves on. -/
inductive Move where
  | join (x : Client)
  | leave (x : Client)
  | heartbeat (x : Client)
  | elapse (now : Nat)

/-- The three `EXPIRE`s of a heartbeat, which are sent together. -/
def Rooms.refresh (db : Rooms) (x : Client) (expireAt : Nat) : Rooms where
  roles := db.roles.expire (x.room, x.role) expireAt
  leases := db.leases.expire x.id expireAt
  members := db.members.expire x.room expireAt

def Rooms.sweep (db : Rooms) (now : Nat) : Rooms := ⟨db.members.sweep now, db.roles.sweep now, db.leases.sweep now⟩

/-- A connection leaves with what it has joined with, and has heartbeats until then. -/
def Clocked.step (ttl capacity : Nat) (s : Clocked) : Move → Option Clocked
  | .join x =>
    if s.roster.fresh x.id then
      let out := luaJoin s.now ttl capacity x s.db
      some ⟨s.now, out.2, if 1 ≤ out.1 then s.roster.join x else s.roster⟩
    else none
  | .leave x =>
    if x ∈ s.roster.joined then some ⟨s.now, (luaLeave x s.db).2, s.roster.leave x.id⟩ else none
  | .heartbeat x =>
    if x ∈ s.roster.present then some { s with db := s.db.refresh x (s.now + 1000 * ttl) } else none
  | .elapse now => if s.now ≤ now then some { s with now, db := s.db.sweep now } else none

/-! ## Role keys and rooms outlast leases -/

/-- No lease outlasts the role key that names its client, nor the room it is a member of. -/
structure Timed (ttl : Nat) (now : Nat) (db : Rooms) : Prop where
  ahead : ∀ c l, db.leases c = some l → l.expireAt ≤ now + 1000 * ttl
  role : ∀ k e, db.roles k = some e → ∀ o c, splitRole e.val = some (o, c) → ∀ l, db.leases c = some l →
    l.expireAt ≤ e.expireAt
  room : ∀ r e, db.members r = some e → ∀ c ∈ e.val, ∀ l, db.leases c = some l → l.expireAt ≤ e.expireAt

namespace Timed

variable {ttl now : Nat} {db db' : Rooms}

theorem empty : Timed ttl now Rooms.empty where
  ahead := by simp [Rooms.empty]
  role := by simp [Rooms.empty]
  room := by simp [Rooms.empty]

/-- Keys may disappear, and members too. -/
theorem shrink (h : Timed ttl now db) (hl : ∀ c l, db'.leases c = some l → db.leases c = some l)
    (hr : ∀ k e, db'.roles k = some e → db.roles k = some e)
    (hm : ∀ r e', db'.members r = some e' → ∃ e, db.members r = some e ∧ e'.expireAt = e.expireAt ∧ e'.val.Sublist e.val) :
    Timed ttl now db' where
  ahead := fun c l hc => h.ahead c l (hl c l hc)
  role := fun k e hk o c hs l hc => h.role k e (hr k e hk) o c hs l (hl c l hc)
  room := by
    intro r e' he' c hc l hl'
    obtain ⟨e, he, ht, hs⟩ := hm r e' he'
    rw [ht]
    exact h.room r e he c (hs.subset hc) l (hl c l hl')

theorem trim (h : Timed ttl now db) (ht : Trims db db') : Timed ttl now db' := by
  exact h.shrink (fun c l hc => by rwa [ht.leases] at hc) (fun k e hk => by rwa [ht.roles] at hk) ht.entry

theorem evict (h : Timed ttl now db) (room c : String) : Timed ttl now (evict room c db) :=
  h.shrink (fun _ _ hc => (Keys.del_eq_some.1 hc).2) (fun _ _ hk => hk) (fun _ _ he => entry_of_srem he)

theorem leave (h : Timed ttl now db) (x : Client) : Timed ttl now (luaLeave x db).2 := by
  have he := h.evict x.room x.id
  simp only [luaLeave]
  split
  · exact he.shrink (fun _ _ hc => hc) (fun _ _ hk => (Keys.del_eq_some.1 hk).2)
      (fun r e hr => ⟨e, hr, rfl, List.Sublist.refl _⟩)
  · exact he

/-- Where the keys of one client are renewed, no other role key names it and no other room has it. -/
structure Renews (x : Client) (expireAt : Nat) (db db' : Rooms) : Prop where
  leases : ∀ c l, db'.leases c = some l → c ≠ x.id → db.leases c = some l
  lease : ∀ l, db'.leases x.id = some l → l.expireAt = expireAt
  roles : ∀ k e, db'.roles k = some e → k ≠ (x.room, x.role) →
    db.roles k = some e ∧ ∀ o c, splitRole e.val = some (o, c) → c ≠ x.id
  role : ∀ e, db'.roles (x.room, x.role) = some e → e.expireAt = expireAt
  members : ∀ r e, db'.members r = some e → r ≠ x.room → db.members r = some e ∧ x.id ∉ e.val
  room : ∀ e, db'.members x.room = some e → e.expireAt = expireAt

theorem renew {x : Client} (h : Timed ttl now db) (hr : Renews x (now + 1000 * ttl) db db') : Timed ttl now db' := by
  have hahead : ∀ c l, db'.leases c = some l → l.expireAt ≤ now + 1000 * ttl := by
    intro c l hc
    by_cases hcx : c = x.id
    · subst hcx
      exact (hr.lease l hc).le
    · exact h.ahead c l (hr.leases c l hc hcx)
  refine ⟨hahead, ?_, ?_⟩
  · intro k e hk o c hs l hc
    by_cases hkx : k = (x.room, x.role)
    · subst hkx
      rw [hr.role e hk]
      exact hahead c l hc
    · obtain ⟨hk, hne⟩ := hr.roles k e hk hkx
      exact h.role k e hk o c hs l (hr.leases c l hc (hne o c hs))
  · intro r e hm c hce l hc
    by_cases hrx : r = x.room
    · subst hrx
      rw [hr.room e hm]
      exact hahead c l hc
    · obtain ⟨hm, hnot⟩ := hr.members r e hm hrx
      have hcx : c ≠ x.id := by
        rintro rfl
        exact hnot hce
      exact h.room r e hm c hce l (hr.leases c l hc hcx)

end Timed

namespace Seated

variable {capacity : Nat} {db : Rooms} {ro : Roster} {x : Client} {k : String × Role} {r : String}

/-- A joined client is named by the key of its own role only. -/
theorem key_of_names (h : Seated capacity db ro) (hx : x ∈ ro.joined) {e : Entry String} (hk : db.roles k = some e)
    {o : String} (hs : splitRole e.val = some (o, x.id)) : k = (x.room, x.role) := by
  obtain ⟨y, hy, hroom, hrole, hv⟩ := h.owned k.1 k.2 e.val (Keys.get_eq_some.2 ⟨e.expireAt, hk⟩)
  rw [hv, splitRole_roleValue, Option.some.injEq, Prod.mk.injEq] at hs
  have hxy : y = x := h.distinct y hy x hx hs.2
  rw [← hxy, hroom, hrole]

/-- A joined client is a member of its own room only. -/
theorem room_of_mem (h : Seated capacity db ro) (hx : x ∈ ro.joined) {e : Entry (List String)}
    (hr : db.members r = some e) (hm : x.id ∈ e.val) : r = x.room := by
  obtain ⟨y, hy, hid, hroom⟩ := h.known r x.id (mem_smembers.2 ⟨e, hr, hm⟩)
  rw [← hroom, h.distinct y hy x hx hid]

theorem renews_refresh (h : Seated capacity db ro) (hx : x ∈ ro.joined) (t : Nat) :
    Timed.Renews x t db (db.refresh x t) where
  leases := fun c l hc hne => by simpa only [Rooms.refresh, Keys.expire_of_ne _ _ hne] using hc
  lease := by
    intro l hl
    simp only [Rooms.refresh, Keys.expire_self, Option.map_eq_some_iff] at hl
    obtain ⟨e, -, rfl⟩ := hl
    rfl
  roles := by
    intro k e hk hne
    simp only [Rooms.refresh, Keys.expire_of_ne _ _ hne] at hk
    refine ⟨hk, fun o c hs hc => hne ?_⟩
    subst hc
    exact h.key_of_names hx hk hs
  role := by
    intro e he
    simp only [Rooms.refresh, Keys.expire_self, Option.map_eq_some_iff] at he
    obtain ⟨e', -, rfl⟩ := he
    rfl
  members := by
    intro r e hm hne
    simp only [Rooms.refresh, Keys.expire_of_ne _ _ hne] at hm
    exact ⟨hm, fun hin => hne (h.room_of_mem hx hm hin)⟩
  room := by
    intro e he
    simp only [Rooms.refresh, Keys.expire_self, Option.map_eq_some_iff] at he
    obtain ⟨e', -, rfl⟩ := he
    rfl

theorem renews_seat (h : Seated capacity db ro) (hx : ro.fresh x.id = true) (now ttl : Nat) :
    Timed.Renews x (now + 1000 * ttl) db (Signaling.seat now ttl x db) where
  leases := fun c l hc hne => by
    simpa only [Signaling.seat, Rooms.setLease, Rooms.setRole, Rooms.sadd, Keys.set_of_ne _ _ _ hne] using hc
  lease := by
    intro l hl
    simp only [Signaling.seat, Rooms.setLease, Keys.set_self, Option.some.injEq] at hl
    rw [← hl]
  roles := by
    intro k e hk hne
    have hk' : db.roles k = some e := by
      simpa only [Signaling.seat, Rooms.setLease, Rooms.setRole, Rooms.sadd, Keys.set_of_ne _ _ _ hne] using hk
    refine ⟨hk', fun o c hs hc => ?_⟩
    obtain ⟨y, hy, -, -, hv⟩ := h.owned k.1 k.2 e.val (Keys.get_eq_some.2 ⟨e.expireAt, hk'⟩)
    rw [hv, splitRole_roleValue, Option.some.injEq, Prod.mk.injEq] at hs
    exact fresh_iff.1 hx y hy (hs.2.trans hc)
  role := by
    intro e he
    simp only [Signaling.seat, Rooms.setLease, Rooms.setRole, Keys.set_self, Option.some.injEq] at he
    rw [← he]
  members := by
    intro r e hm hne
    have hm' : db.members r = some e := by
      simpa only [Signaling.seat, Rooms.setLease, Rooms.setRole, Rooms.sadd, Keys.set_of_ne _ _ _ hne] using hm
    refine ⟨hm', fun hin => ?_⟩
    obtain ⟨y, hy, hid, -⟩ := h.known r x.id (mem_smembers.2 ⟨e, hm', hin⟩)
    exact fresh_iff.1 hx y hy hid
  room := by
    intro e he
    simp only [Signaling.seat, Rooms.setLease, Rooms.setRole, Rooms.sadd, Keys.set_self, Option.some.injEq] at he
    rw [← he]

end Seated

theorem live_refresh {db : Rooms} {x : Client} {t : Nat} (c : String) : (db.refresh x t).live c = db.live c := by
  by_cases h : c = x.id
  · subst h; simp [Rooms.live, Rooms.refresh, Keys.expire_self]
  · simp [Rooms.live, Rooms.refresh, Keys.expire_of_ne _ _ h]

theorem smembers_refresh {db : Rooms} {x : Client} {t : Nat} (r : String) :
    (db.refresh x t).smembers r = db.smembers r := by
  simp [Rooms.smembers, Rooms.refresh]

theorem leases_sweep {db : Rooms} {t : Nat} {c : String} {l : Entry String} :
    (db.sweep t).leases c = some l ↔ db.leases c = some l ∧ t < l.expireAt := Keys.sweep_eq_some (m := db.leases)

theorem roles_sweep {db : Rooms} {t : Nat} {k : String × Role} {e : Entry String} :
    (db.sweep t).roles k = some e ↔ db.roles k = some e ∧ t < e.expireAt := Keys.sweep_eq_some (m := db.roles)

theorem members_sweep {db : Rooms} {t : Nat} {r : String} {e : Entry (List String)} :
    (db.sweep t).members r = some e ↔ db.members r = some e ∧ t < e.expireAt := Keys.sweep_eq_some (m := db.members)

/-- The rooms of a clocked run: in order, and with role keys and rooms that outlast the leases. -/
structure Clocked.Sound (ttl capacity : Nat) (s : Clocked) : Prop where
  seated : Seated capacity s.db s.roster
  timed : Timed ttl s.now s.db

namespace Clocked.Sound

variable {ttl capacity : Nat} {s s' : Clocked} {x : Client}

theorem timed_join (h : s.Sound ttl capacity) (hx : s.roster.fresh x.id = true) :
    Timed ttl s.now (luaJoin s.now ttl capacity x s.db).2 := by
  have henter : ∀ d, Seated capacity d s.roster → Timed ttl s.now d → Timed ttl s.now (enter s.now ttl capacity x d).2 := by
    intro d hd ht
    obtain ⟨-, he⟩ | ⟨-, he⟩ := enter_cases s.now ttl capacity x d <;> rw [he]
    · exact ht
    · exact ht.renew (hd.renews_seat hx s.now ttl)
  obtain ⟨-, he⟩ | ⟨-, d, ht, ⟨v, -, -, he⟩ | ⟨v, c, -, -, he⟩ | ⟨-, he⟩⟩ := luaJoin_cases s.now ttl capacity x s.db <;>
    rw [he]
  · exact h.timed
  · exact h.timed.trim ht
  · exact henter _ ((h.seated.trim ht).evict x.room c) ((h.timed.trim ht).evict x.room c)
  · exact henter _ (h.seated.trim ht) (h.timed.trim ht)

theorem seated_refresh (h : s.Sound ttl capacity) (t : Nat) : Seated capacity (s.db.refresh x t) s.roster :=
  h.seated.expire (fun c hc => by rwa [live_refresh] at hc) (fun r => .inl (smembers_refresh r))
    (fun k => .inl (by simp [Rooms.refresh]))

/-- **Time passes without a role key going before the lease of its client, or a room before those of its members.** -/
theorem seated_sweep (h : s.Sound ttl capacity) (t : Nat) : Seated capacity (s.db.sweep t) s.roster := by
  have hdead : ∀ c n, n ≤ t → (∀ l, s.db.leases c = some l → l.expireAt ≤ n) → (s.db.sweep t).live c = false := by
    intro c n hn hle
    cases hl : (s.db.sweep t).leases c with
    | none => simp [Rooms.live, hl]
    | some l =>
      obtain ⟨hl', hlt⟩ := leases_sweep.1 hl
      have := hle l hl'
      omega
  refine h.seated.expire (fun c hc => ?_) (fun r => ?_) (fun k => ?_)
  · simp only [Rooms.live, Option.isSome_iff_exists] at hc ⊢
    obtain ⟨l, hl⟩ := hc
    exact ⟨l, (leases_sweep.1 hl).1⟩
  · rcases Keys.get_sweep_cases s.db.members r t with he | ⟨he, e, hm, ht⟩
    · exact .inl (by simp only [Rooms.smembers, Rooms.sweep, he])
    · refine .inr ⟨by simp [Rooms.smembers, Rooms.sweep, he], fun c hc => ?_⟩
      obtain ⟨e', he', hin⟩ := mem_smembers.1 hc
      obtain rfl : e = e' := Option.some.inj (hm ▸ he')
      exact hdead c e.expireAt ht (h.timed.room r e hm c hin)
  · rcases Keys.get_sweep_cases s.db.roles k t with he | ⟨he, e, hk, ht⟩
    · exact .inl he
    · refine .inr ⟨he, fun v hv o c hs => ?_⟩
      obtain ⟨u, hu⟩ := Keys.get_eq_some.1 hv
      obtain rfl : e = ⟨v, u⟩ := Option.some.inj (hk ▸ hu)
      exact hdead c u ht (h.timed.role k _ hk o c hs)

theorem step (h : s.Sound ttl capacity) {m : Move} (hs : s.step ttl capacity m = some s') : s'.Sound ttl capacity := by
  cases m with
  | join x =>
    simp only [Clocked.step] at hs
    split at hs
    · rename_i hx
      cases hs
      exact ⟨h.seated.join s.now ttl hx, h.timed_join hx⟩
    · cases hs
  | leave x =>
    simp only [Clocked.step] at hs
    split at hs
    · cases hs
      exact ⟨h.seated.leave x, h.timed.leave x⟩
    · cases hs
  | heartbeat x =>
    simp only [Clocked.step] at hs
    split at hs
    · rename_i hx
      cases hs
      exact ⟨h.seated_refresh _, h.timed.renew (h.seated.renews_refresh (h.seated.joined x hx) _)⟩
    · cases hs
  | elapse t =>
    simp only [Clocked.step] at hs
    split at hs
    · rename_i ht
      cases hs
      refine ⟨h.seated_sweep t, ?_⟩
      have hsw : Timed ttl s.now (s.db.sweep t) :=
        h.timed.shrink (fun _ _ hc => (leases_sweep.1 hc).1) (fun _ _ hk => (roles_sweep.1 hk).1)
          (fun r e he => ⟨e, (members_sweep.1 he).1, rfl, List.Sublist.refl _⟩)
      exact { hsw with
        ahead := fun c l hc => by
          have := hsw.ahead c l hc
          show l.expireAt ≤ t + 1000 * ttl
          omega }
    · cases hs

theorem init : Clocked.Sound ttl capacity {} := ⟨Seated.empty, Timed.empty⟩

end Clocked.Sound

/-! ## A refused join leaves the room intact -/

/-- Leases and role keys are the same, and a member that is gone had no lease. -/
structure Intact (db db' : Rooms) : Prop where
  leases : db'.leases = db.leases
  roles : db'.roles = db.roles
  members : ∀ r c, c ∈ db'.smembers r → c ∈ db.smembers r
  pruned : ∀ r c, c ∈ db.smembers r → c ∉ db'.smembers r → db.live c = false

theorem Trims.intact {db db' : Rooms} (h : Trims db db') : Intact db db' where
  leases := h.leases
  roles := h.roles
  members := fun _ _ hc => h.mem hc
  pruned := by
    intro r c hc hn
    cases hl : db.live c with
    | false => rfl
    | true => exact absurd (h.keeps r c hc hl) hn

/-- A join that returns a refusal code would leave the room intact. -/
def Clocked.RefusesIntact (ttl capacity : Nat) (s : Clocked) : Prop :=
  ∀ x, (luaJoin s.now ttl capacity x s.db).1 = -1 ∨ (luaJoin s.now ttl capacity x s.db).1 = -2 →
    Intact s.db (luaJoin s.now ttl capacity x s.db).2

/-- **In every state of every run, a join that is refused leaves the room intact.** -/
theorem intact_throughout (ttl capacity : Nat) (moves : List Move) :
    Throughout (Clocked.step ttl capacity) (Clocked.RefusesIntact ttl capacity) {} moves := by
  have h : Throughout (Clocked.step ttl capacity) (Clocked.Sound ttl capacity) {} moves :=
    Throughout.of_along (fun _ _ _ h _ hs => h.step hs) Clocked.Sound.init along_true
  refine h.mono fun s hs x hc => (hs.seated.trims_of_refused ?_).intact
  rcases hc with hc | hc <;> omega

/-! ## Who blocks a role -/

/-- A join that is refused for its role finds a client with a lease in it. -/
def Clocked.BlockedByLive (ttl capacity : Nat) (s : Clocked) : Prop :=
  ∀ x, (luaJoin s.now ttl capacity x s.db).1 = -2 →
    ∃ v o c, s.db.roles.get (x.room, x.role) = some v ∧ splitRole v = some (o, c) ∧ s.db.live c = true

/-- A heartbeat finds its own client in the role key, or no key. -/
def Move.OwnRole (s : Clocked) : Move → Prop
  | .heartbeat x => ∀ v ∈ s.db.roles.get (x.room, x.role), v = roleValue x
  | _ => True

instance (s : Clocked) : ∀ m : Move, Decidable (m.OwnRole s)
  | .heartbeat x => inferInstanceAs (Decidable (∀ v ∈ s.db.roles.get (x.room, x.role), v = roleValue x))
  | .join _ | .leave _ | .elapse _ => .isTrue trivial

/-- The client a role key names has a lease that lasts as long as the key. -/
structure Clocked.Backed (ttl capacity : Nat) (s : Clocked) : Prop extends s.Sound ttl capacity where
  backed : ∀ k e, s.db.roles k = some e → ∀ o c, splitRole e.val = some (o, c) →
    ∃ l, s.db.leases c = some l ∧ e.expireAt ≤ l.expireAt

namespace Clocked.Backed

variable {ttl capacity : Nat} {s s' : Clocked} {x : Client}

theorem blocked (h : s.Backed ttl capacity) : s.BlockedByLive ttl capacity := by
  intro x hx
  have henter : ∀ d, (enter s.now ttl capacity x d).1 ≠ -2 := by
    intro d
    obtain ⟨-, he⟩ | ⟨-, he⟩ := enter_cases s.now ttl capacity x d <;> rw [he] <;> simp only <;> omega
  obtain ⟨-, he⟩ | ⟨-, d, -, ⟨v, hv, -, -⟩ | ⟨v, c, -, -, he⟩ | ⟨-, he⟩⟩ := luaJoin_cases s.now ttl capacity x s.db
  · rw [he] at hx
    simp only at hx
    omega
  · obtain ⟨y, -, -, -, hy⟩ := h.seated.owned _ _ v hv
    obtain ⟨t, ht⟩ := Keys.get_eq_some.1 hv
    have hs : splitRole v = some (y.owner.text, y.id) := by rw [hy, splitRole_roleValue]
    obtain ⟨l, hl, -⟩ := h.backed _ _ ht _ _ hs
    exact ⟨v, _, _, hv, hs, by simp [Rooms.live, hl]⟩
  · exact absurd (he ▸ hx) (henter _)
  · exact absurd (he ▸ hx) (henter _)

/-- What the writes of a join leave: its own key is backed by its own lease, and the others are as before. -/
theorem backed_seat {d : Rooms} {ro : Roster} (hd : Seated capacity d ro) (hx : ro.fresh x.id = true)
    (hb : ∀ k e, k ≠ (x.room, x.role) → d.roles k = some e → ∀ o c, splitRole e.val = some (o, c) →
      ∃ l, d.leases c = some l ∧ e.expireAt ≤ l.expireAt) (now : Nat) :
    ∀ k e, (seat now ttl x d).roles k = some e → ∀ o c, splitRole e.val = some (o, c) →
      ∃ l, (seat now ttl x d).leases c = some l ∧ e.expireAt ≤ l.expireAt := by
  intro k e hk o c hs
  by_cases hkx : k = (x.room, x.role)
  · subst hkx
    simp only [seat, Rooms.setLease, Rooms.setRole, Keys.set_self, Option.some.injEq] at hk
    subst hk
    rw [splitRole_roleValue, Option.some.injEq, Prod.mk.injEq] at hs
    obtain ⟨-, rfl⟩ := hs
    exact ⟨⟨x.owner.text, _⟩, by simp only [seat, Rooms.setLease, Keys.set_self], le_rfl⟩
  · obtain ⟨hk', hne⟩ := (hd.renews_seat hx now ttl).roles k e hk hkx
    obtain ⟨l, hl, hle⟩ := hb k e hkx hk' o c hs
    refine ⟨l, ?_, hle⟩
    simpa only [seat, Rooms.setLease, Rooms.setRole, Rooms.sadd, Keys.set_of_ne _ _ _ (hne o c hs)] using hl

theorem join (h : s.Backed ttl capacity) (hx : s.roster.fresh x.id = true) :
    ∀ k e, (luaJoin s.now ttl capacity x s.db).2.roles k = some e → ∀ o c, splitRole e.val = some (o, c) →
      ∃ l, (luaJoin s.now ttl capacity x s.db).2.leases c = some l ∧ e.expireAt ≤ l.expireAt := by
  by_cases hneg : (luaJoin s.now ttl capacity x s.db).1 < 0
  · have ht := h.seated.trims_of_refused hneg
    rw [ht.roles, ht.leases]
    exact h.backed
  obtain ⟨hm, -⟩ | ⟨-, d, ht, ⟨v, -, -, he⟩ | ⟨v, c, hv, hr, he⟩ | ⟨hv, he⟩⟩ := luaJoin_cases s.now ttl capacity x s.db
  · obtain ⟨y, hy, hid, -⟩ := h.seated.known _ _ hm
    exact absurd hid (fresh_iff.1 hx y hy)
  · simp [he] at hneg
  · have hd := h.seated.trim ht
    obtain ⟨-, hen⟩ | ⟨-, hen⟩ := enter_cases s.now ttl capacity x (evict x.room c d)
    · simp [he, hen] at hneg
    · rw [he, hen]
      refine backed_seat (hd.evict x.room c) hx (fun k e hkx hk o c' hs => ?_) s.now
      have hk' : d.roles k = some e := hk
      rw [← ht.roles] at hv
      obtain ⟨y, hy, hroom, hrole, hp⟩ := hd.holder hv hr
      have hne : c' ≠ c := by
        rintro rfl
        rw [(Prod.mk.inj hp).2] at hs
        exact hkx (by rw [hd.key_of_names hy hk' hs, hroom, hrole])
      rw [ht.roles] at hk'
      obtain ⟨l, hl, hle⟩ := h.backed k e hk' o c' hs
      refine ⟨l, ?_, hle⟩
      rw [← ht.leases] at hl
      exact Keys.del_eq_some.2 ⟨hne, hl⟩
  · have hd := h.seated.trim ht
    obtain ⟨-, hen⟩ | ⟨-, hen⟩ := enter_cases s.now ttl capacity x d
    · simp [he, hen] at hneg
    · rw [he, hen]
      refine backed_seat hd hx (fun k e _ hk o c hs => ?_) s.now
      rw [ht.roles] at hk
      rw [ht.leases]
      exact h.backed k e hk o c hs

theorem leave (h : s.Backed ttl capacity) (hx : x ∈ s.roster.joined) :
    ∀ k e, (luaLeave x s.db).2.roles k = some e → ∀ o c, splitRole e.val = some (o, c) →
      ∃ l, (luaLeave x s.db).2.leases c = some l ∧ e.expireAt ≤ l.expireAt := by
  have hcase : ∀ k e, s.db.roles k = some e → ∀ o c, splitRole e.val = some (o, c) → c ≠ x.id →
      ∃ l, (evict x.room x.id s.db).leases c = some l ∧ e.expireAt ≤ l.expireAt := by
    intro k e hk o c hs hne
    obtain ⟨l, hl, hle⟩ := h.backed k e hk o c hs
    exact ⟨l, Keys.del_eq_some.2 ⟨hne, hl⟩, hle⟩
  intro k e
  simp only [luaLeave]
  split
  · rename_i hv
    intro hk o c hs
    obtain ⟨hne, hk⟩ := Keys.del_eq_some.1 hk
    refine hcase k e hk o c hs ?_
    rintro rfl
    exact hne (h.seated.key_of_names hx hk hs)
  · rename_i hv
    intro hk o c hs
    refine hcase k e hk o c hs ?_
    rintro rfl
    have hkx := h.seated.key_of_names hx hk hs
    subst hkx
    obtain ⟨y, hy, -, -, he⟩ := h.seated.owned _ _ e.val (Keys.get_eq_some.2 ⟨e.expireAt, hk⟩)
    rw [he, splitRole_roleValue, Option.some.injEq, Prod.mk.injEq] at hs
    have hyx : y = x := h.seated.distinct y hy x hx hs.2
    exact hv (Keys.get_eq_some.2 ⟨e.expireAt, by rw [← hyx, ← he, hyx]; exact hk⟩)

theorem heartbeat (h : s.Backed ttl capacity) (hx : x ∈ s.roster.joined) (ho : (Move.heartbeat x).OwnRole s) :
    ∀ k e, (s.db.refresh x (s.now + 1000 * ttl)).roles k = some e → ∀ o c, splitRole e.val = some (o, c) →
      ∃ l, (s.db.refresh x (s.now + 1000 * ttl)).leases c = some l ∧ e.expireAt ≤ l.expireAt := by
  have hren := h.seated.renews_refresh hx (s.now + 1000 * ttl)
  intro k e hk o c hs
  by_cases hkx : k = (x.room, x.role)
  · subst hkx
    simp only [Rooms.refresh, Keys.expire_self, Option.map_eq_some_iff] at hk
    obtain ⟨e', he', rfl⟩ := hk
    have hv := ho e'.val (Keys.get_eq_some.2 ⟨e'.expireAt, he'⟩)
    obtain ⟨l, hl, -⟩ := h.backed _ e' he' o c hs
    simp only [hv, splitRole_roleValue, Option.some.injEq, Prod.mk.injEq] at hs
    obtain ⟨-, rfl⟩ := hs
    exact ⟨⟨l.val, _⟩, by simp only [Rooms.refresh, Keys.expire_self, hl, Option.map_some], le_rfl⟩
  · obtain ⟨hk', hne⟩ := hren.roles k e hk hkx
    obtain ⟨l, hl, hle⟩ := h.backed k e hk' o c hs
    refine ⟨l, ?_, hle⟩
    simpa only [Rooms.refresh, Keys.expire_of_ne _ _ (hne o c hs)] using hl

theorem step (h : s.Backed ttl capacity) {m : Move} (ho : m.OwnRole s) (hs : s.step ttl capacity m = some s') :
    s'.Backed ttl capacity := by
  refine ⟨h.toSound.step hs, ?_⟩
  cases m with
  | join x =>
    simp only [Clocked.step] at hs
    split at hs
    · rename_i hx
      cases hs
      exact h.join hx
    · cases hs
  | leave x =>
    simp only [Clocked.step] at hs
    split at hs
    · rename_i hx
      cases hs
      exact h.leave hx
    · cases hs
  | heartbeat x =>
    simp only [Clocked.step] at hs
    split at hs
    · rename_i hx
      cases hs
      exact h.heartbeat (h.seated.joined x hx) ho
    · cases hs
  | elapse t =>
    simp only [Clocked.step] at hs
    split at hs
    · cases hs
      intro k e hk o c hsp
      obtain ⟨hk, ht⟩ := roles_sweep.1 hk
      obtain ⟨l, hl, hle⟩ := h.backed k e hk o c hsp
      exact ⟨l, leases_sweep.2 ⟨hl, by omega⟩, hle⟩
    · cases hs

theorem init : Clocked.Backed ttl capacity {} := ⟨Sound.init, by simp [Rooms.empty]⟩

end Clocked.Backed

/-- **A role is blocked by a client with a lease only, as long as no heartbeat refreshes the key of another client.** -/
theorem blocked_throughout (ttl capacity : Nat) (moves : List Move)
    (h : Along (Clocked.step ttl capacity) Move.OwnRole {} moves) :
    Throughout (Clocked.step ttl capacity) (Clocked.BlockedByLive ttl capacity) {} moves :=
  (Throughout.of_along (fun _ _ _ h ho hs => h.step ho hs) Clocked.Backed.init h).mono fun _ h => h.blocked

/-- A player joins and connects again on another instance, where its first socket is still open; then one of the two has
a heartbeat. -/
def twoSockets (beats : Client → Client → Client) : List Move :=
  let owner : Owner := ⟨"s1", by decide⟩
  let first : Client := ⟨"c1", "r", .player, owner⟩
  let second : Client := ⟨"c2", "r", .player, owner⟩
  [.join first, .join second, .elapse 60000, .heartbeat (beats first second), .elapse 130000]

theorem blocked_throughout_second :
    Throughout (Clocked.step 120 2) (Clocked.BlockedByLive 120 2) {} (twoSockets fun _ second => second) :=
  blocked_throughout 120 2 _ (by decide)

/-- The heartbeat of the replaced socket keeps the key of the other one, whose lease is gone. -/
theorem not_blocked_first :
    ¬ Throughout (Clocked.step 120 2) (Clocked.BlockedByLive 120 2) {} (twoSockets fun first _ => first) := by
  intro h
  have hs : Clocked.BlockedByLive 120 2 ((after (Clocked.step 120 2) {} (twoSockets fun first _ => first)).getD {}) :=
    h.after rfl
  obtain ⟨v, o, c, hv, hc, hl⟩ := hs ⟨"c3", "r", .player, ⟨"s2", by decide⟩⟩ (by decide)
  have hv' : some "s1|c2" = some v := hv
  obtain rfl := Option.some.inj hv'
  have hc' : some ("s1", "c2") = some (o, c) := hc
  obtain ⟨rfl, rfl⟩ := Prod.mk.inj (Option.some.inj hc')
  exact absurd hl (by decide)

end Signaling
end CloudGaming
