import CloudGaming.Redis
/-!
# Scripts — the room scripts of the signaling server

`LUA_JOIN` and `LUA_LEAVE` on the three families of keys they touch: the member set of a room, the owner of each of its
roles, and the lease of each client.  A role key holds `owner|client`; the owners have no `|` of their own, so that the
text says which client it names (`splitRole_roleValue`).
-/
namespace CloudGaming
namespace Signaling

open Redis

inductive Role where
  | host | player
  deriving DecidableEq, Repr

/-- A host id or a session id; both are UUIDs, of which only this matters. -/
structure Owner where
  text : String
  bare : '|' ∉ text.toList
  deriving DecidableEq

/-- What a connection joins and leaves with. -/
structure Client where
  id : String
  room : String
  role : Role
  owner : Owner
  deriving DecidableEq

/-- The keys `room:`, `room-role:` and `room-client:`.  An empty member set is no key. -/
structure Rooms where
  members : Keys String fun _ => List String
  roles : Keys (String × Role) fun _ => String
  leases : Keys String fun _ => String

/-! ## The value of a role key -/

def roleValue (x : Client) : String := x.owner.text ++ "|" ++ x.id

/-- The two sides of the first `|`. -/
def splitRole (value : String) : Option (String × String) :=
  match value.toList.dropWhile (· ≠ '|') with
  | [] => none
  | _ :: rest => some (String.ofList (value.toList.takeWhile (· ≠ '|')), String.ofList rest)

/-- `string.match(value, '^([^|]+)|(.+)$')`. -/
def matchRole (value : String) : Option (String × String) :=
  (splitRole value).filter fun p => p.1 ≠ "" && p.2 ≠ ""

theorem ne_bar {l : List Char} (h : '|' ∉ l) : ∀ c ∈ l, decide (c ≠ '|') = true := by
  intro c hc
  simp only [decide_eq_true_eq]
  rintro rfl
  exact h hc

theorem dropWhile_bare {l : List Char} (h : '|' ∉ l) (r : List Char) :
    (l ++ '|' :: r).dropWhile (· ≠ '|') = '|' :: r := by
  rw [List.dropWhile_append_of_pos (ne_bar h)]
  simp

theorem takeWhile_bare {l : List Char} (h : '|' ∉ l) (r : List Char) : (l ++ '|' :: r).takeWhile (· ≠ '|') = l := by
  rw [List.takeWhile_append_of_pos (ne_bar h)]
  simp

/-- **A role key names the client that set it.** -/
theorem splitRole_roleValue (x : Client) : splitRole (roleValue x) = some (x.owner.text, x.id) := by
  have hl : (roleValue x).toList = x.owner.text.toList ++ '|' :: x.id.toList := by
    simp [roleValue, String.toList_append]
  simp only [splitRole, hl, dropWhile_bare x.owner.bare, takeWhile_bare x.owner.bare, String.ofList_toList]

theorem roleValue_inj {x y : Client} (h : roleValue x = roleValue y) : x.owner = y.owner ∧ x.id = y.id := by
  have hs := congrArg splitRole h
  rw [splitRole_roleValue, splitRole_roleValue] at hs
  simp only [Option.some.injEq, Prod.mk.injEq] at hs
  obtain ⟨ho, hi⟩ := hs
  refine ⟨?_, hi⟩
  cases hx : x.owner
  cases hy : y.owner
  simp only [hx, hy] at ho
  subst ho
  rfl

theorem matchRole_some {x : Client} {p : String × String} (h : matchRole (roleValue x) = some p) :
    p = (x.owner.text, x.id) := by
  simp only [matchRole, splitRole_roleValue, Option.filter_eq_some_iff, Option.some.injEq] at h
  exact h.1.symm

/-! ## Commands -/

namespace Rooms

variable (db : Rooms)

def empty : Rooms := ⟨fun _ => none, fun _ => none, fun _ => none⟩

def smembers (room : String) : List String := (db.members.get room).getD []

def scard (room : String) : Nat := (db.smembers room).length

def srem (room clientId : String) : Rooms :=
  { db with
    members := Function.update db.members room
      ((db.members room).map fun e => { e with val := Redis.srem e.val clientId }) }

/-- `SADD`, and the `EXPIRE` of the set that ends the script. -/
def sadd (room clientId : String) (expireAt : Nat) : Rooms :=
  { db with members := db.members.set room (Redis.sadd (db.smembers room) clientId) expireAt }

def delLease (clientId : String) : Rooms := { db with leases := db.leases.del clientId }

def setLease (clientId owner : String) (expireAt : Nat) : Rooms :=
  { db with leases := db.leases.set clientId owner expireAt }

def setRole (room : String) (role : Role) (value : String) (expireAt : Nat) : Rooms :=
  { db with roles := db.roles.set (room, role) value expireAt }

def delRole (room : String) (role : Role) : Rooms := { db with roles := db.roles.del (room, role) }

/-- The lease of the client exists. -/
def live (clientId : String) : Bool := (db.leases clientId).isSome

end Rooms

/-! ## LUA_JOIN and LUA_LEAVE -/

section scripts
variable (now ttl capacity : Nat) (x : Client)

/-- The loop over `SMEMBERS`. -/
def prune (room : String) (db : Rooms) : Rooms :=
  (db.smembers room).foldl (fun db member => if db.live member then db else db.srem room member) db

/-- What a take-over removes. -/
def evict (room clientId : String) (db : Rooms) : Rooms := (db.srem room clientId).delLease clientId

/-- The writes of a join. -/
def seat (db : Rooms) : Rooms :=
  let db := db.sadd x.room x.id (now + 1000 * ttl)
  let db := db.setRole x.room x.role (roleValue x) (now + 1000 * ttl)
  db.setLease x.id x.owner.text (now + 1000 * ttl)

/-- The end of the script: the capacity check and the writes. -/
def enter (db : Rooms) : Int × Rooms :=
  let size := db.scard x.room
  if capacity ≤ size then (-1, db) else ((size : Int) + 1, seat now ttl x db)

def luaJoin (db : Rooms) : Int × Rooms :=
  if x.id ∈ db.smembers x.room then ((db.scard x.room : Int), db)
  else
    let db := prune x.room db
    match db.roles.get (x.room, x.role) with
    | none => enter now ttl capacity x db
    | some existingRole =>
      match matchRole existingRole with
      | none => (-2, db)
      | some (existingOwner, existingClient) =>
        if existingOwner ≠ x.owner.text then (-2, db)
        else enter now ttl capacity x (evict x.room existingClient db)

/-- The `EXPIRE` of a set without members does nothing. -/
def luaLeave (db : Rooms) : Nat × Rooms :=
  let db := evict x.room x.id db
  let db := if db.roles.get (x.room, x.role) = some (roleValue x) then db.delRole x.room x.role else db
  (db.scard x.room, db)

end scripts

/-! ## What the commands do to members, roles and leases -/

section frame
variable {db : Rooms} {room r c d : String}

theorem mem_smembers : c ∈ db.smembers room ↔ ∃ e, db.members room = some e ∧ c ∈ e.val := by
  unfold Rooms.smembers Keys.get
  cases db.members room <;> simp

theorem smembers_srem_self : (db.srem room c).smembers room = Redis.srem (db.smembers room) c := by
  unfold Rooms.smembers Rooms.srem Keys.get
  cases db.members room <;> simp [Redis.srem]

theorem smembers_srem_of_ne (h : r ≠ room) : (db.srem room c).smembers r = db.smembers r := by
  simp [Rooms.smembers, Rooms.srem, Keys.get, h]

theorem entry_of_srem {e' : Entry (List String)} (h : (db.srem room c).members r = some e') :
    ∃ e, db.members r = some e ∧ e'.expireAt = e.expireAt ∧ e'.val.Sublist e.val := by
  by_cases hr : r = room
  · subst hr
    cases hm : db.members r with
    | none => simp [Rooms.srem, hm] at h
    | some e =>
      simp only [Rooms.srem, Function.update_self, hm, Option.map_some, Option.some.injEq] at h
      subst h
      exact ⟨e, rfl, rfl, List.filter_sublist⟩
  · exact ⟨e', by simpa [Rooms.srem, hr] using h, rfl, List.Sublist.refl _⟩

theorem mem_srem_of_ne (h : d ≠ c) : d ∈ (db.srem room c).smembers r ↔ d ∈ db.smembers r := by
  by_cases hr : r = room
  · subst hr; simp [smembers_srem_self, h]
  · rw [smembers_srem_of_ne hr]

theorem mem_of_mem_srem (h : d ∈ (db.srem room c).smembers r) : d ∈ db.smembers r := by
  by_cases hr : r = room
  · subst hr
    rw [smembers_srem_self, mem_srem] at h
    exact h.1
  · rwa [smembers_srem_of_ne hr] at h

theorem scard_srem_le : (db.srem room c).scard r ≤ db.scard r := by
  unfold Rooms.scard
  by_cases hr : r = room
  · subst hr; rw [smembers_srem_self]; exact List.length_filter_le _ _
  · rw [smembers_srem_of_ne hr]

theorem scard_srem_lt (h : c ∈ db.smembers room) : (db.srem room c).scard room < db.scard room := by
  unfold Rooms.scard
  rw [smembers_srem_self]
  exact List.length_filter_lt_length_iff_exists.2 ⟨c, h, by simp⟩

theorem live_delLease_self : (db.delLease c).live c = false := by simp [Rooms.delLease, Rooms.live]

theorem live_delLease_of_ne (h : d ≠ c) : (db.delLease c).live d = db.live d := by
  simp [Rooms.delLease, Rooms.live, Keys.del_of_ne _ h]

theorem delLease_of_dead (h : db.live c = false) : db.delLease c = db := by
  have hc : db.leases c = none := by simpa [Rooms.live] using h
  have : db.leases.del c = db.leases := by
    funext d
    by_cases hd : d = c
    · subst hd; rw [Keys.del_self, hc]
    · rw [Keys.del_of_ne _ hd]
  unfold Rooms.delLease
  rw [this]

theorem live_evict : (evict room c db).live d = true ↔ db.live d = true ∧ d ≠ c := by
  unfold evict
  by_cases hd : d = c
  · subst hd; simp [live_delLease_self]
  · rw [live_delLease_of_ne hd]
    exact ⟨fun h => ⟨h, hd⟩, fun h => h.1⟩

variable {now ttl : Nat} {x y : Client}

theorem smembers_seat_self : (seat now ttl x db).smembers x.room = Redis.sadd (db.smembers x.room) x.id := by
  simp [seat, Rooms.smembers, Rooms.sadd, Rooms.setRole, Rooms.setLease]

theorem smembers_seat_of_ne (h : r ≠ x.room) : (seat now ttl x db).smembers r = db.smembers r := by
  simp [seat, Rooms.smembers, Rooms.sadd, Rooms.setRole, Rooms.setLease, Keys.get_set_of_ne _ _ _ h]

theorem mem_seat : d ∈ (seat now ttl x db).smembers r ↔ d ∈ db.smembers r ∨ d = x.id ∧ r = x.room := by
  by_cases hr : r = x.room
  · subst hr; simp [smembers_seat_self]
  · simp [smembers_seat_of_ne hr, hr]

theorem scard_seat_self : (seat now ttl x db).scard x.room ≤ db.scard x.room + 1 := by
  unfold Rooms.scard
  rw [smembers_seat_self]
  exact length_sadd_le

theorem scard_seat_of_ne (h : r ≠ x.room) : (seat now ttl x db).scard r = db.scard r := by
  unfold Rooms.scard
  rw [smembers_seat_of_ne h]

theorem live_seat : (seat now ttl x db).live d = true ↔ db.live d = true ∨ d = x.id := by
  by_cases hd : d = x.id
  · subst hd; simp [seat, Rooms.live, Rooms.setLease]
  · simp [seat, Rooms.live, Rooms.setLease, Rooms.setRole, Rooms.sadd, Keys.set_of_ne _ _ _ hd, hd]

theorem role_seat_self : (seat now ttl x db).roles.get (x.room, x.role) = some (roleValue x) := by
  simp [seat, Rooms.setLease, Rooms.setRole]

theorem role_seat_of_ne {k : String × Role} (h : k ≠ (x.room, x.role)) :
    (seat now ttl x db).roles.get k = db.roles.get k := by
  simp [seat, Rooms.setLease, Rooms.setRole, Rooms.sadd, Keys.get_set_of_ne _ _ _ h]

end frame

/-! ## What a join may do -/

/-- Nothing has changed but that members without a lease may have gone. -/
structure Trims (db db' : Rooms) : Prop where
  roles : db'.roles = db.roles
  leases : db'.leases = db.leases
  entry : ∀ r e', db'.members r = some e' → ∃ e, db.members r = some e ∧ e'.expireAt = e.expireAt ∧ e'.val.Sublist e.val
  keeps : ∀ r c, c ∈ db.smembers r → db.live c = true → c ∈ db'.smembers r

namespace Trims

variable {db db' db'' : Rooms} {r c : String}

theorem refl (db : Rooms) : Trims db db where
  roles := rfl
  leases := rfl
  entry := fun _ e' h => ⟨e', h, rfl, List.Sublist.refl _⟩
  keeps := fun _ _ h _ => h

theorem live (h : Trims db db') (c : String) : db'.live c = db.live c := by simp [Rooms.live, h.leases]

theorem trans (h : Trims db db') (h' : Trims db' db'') : Trims db db'' where
  roles := h'.roles.trans h.roles
  leases := h'.leases.trans h.leases
  entry := by
    intro r e'' he
    obtain ⟨e', he', ht', hs'⟩ := h'.entry r e'' he
    obtain ⟨e, he, ht, hs⟩ := h.entry r e' he'
    exact ⟨e, he, ht'.trans ht, hs'.trans hs⟩
  keeps := fun r c hc hl => h'.keeps r c (h.keeps r c hc hl) (by rwa [h.live])

theorem srem {room : String} (hc : db.live c = false) : Trims db (db.srem room c) where
  roles := rfl
  leases := rfl
  entry := fun _ _ he => entry_of_srem he
  keeps := by
    intro r d hd hl
    have hne : d ≠ c := by rintro rfl; rw [hc] at hl; cases hl
    exact (mem_srem_of_ne hne).2 hd

theorem mem (h : Trims db db') (hc : c ∈ db'.smembers r) : c ∈ db.smembers r := by
  obtain ⟨e', he', hm⟩ := mem_smembers.1 hc
  obtain ⟨e, he, -, hs⟩ := h.entry r e' he'
  exact mem_smembers.2 ⟨e, he, hs.subset hm⟩

theorem scard (h : Trims db db') : db'.scard r ≤ db.scard r := by
  unfold Rooms.scard Rooms.smembers Keys.get
  cases hm : db'.members r with
  | none => simp
  | some e' =>
    obtain ⟨e, he, -, hs⟩ := h.entry r e' hm
    simpa [he] using hs.length_le

end Trims

/-- The loop removes members without a lease. -/
theorem trims_prune (room : String) (db : Rooms) : Trims db (prune room db) := by
  have h : ∀ (ms : List String) (db' : Rooms), Trims db db' →
      Trims db (ms.foldl (fun db member => if db.live member then db else db.srem room member) db') := by
    intro ms
    induction ms with
    | nil => exact fun db' h => h
    | cons m ms ih =>
      intro db' h
      rw [List.foldl_cons]
      refine ih _ ?_
      split
      · exact h
      · rename_i hm
        exact h.trans (Trims.srem (by simpa using hm))
  exact h _ _ (Trims.refl db)

section cases
variable (now ttl capacity : Nat) (x : Client) (db : Rooms)

theorem enter_cases : capacity ≤ db.scard x.room ∧ enter now ttl capacity x db = (-1, db) ∨
    db.scard x.room < capacity ∧ enter now ttl capacity x db = ((db.scard x.room : Int) + 1, seat now ttl x db) := by
  unfold enter
  by_cases h : capacity ≤ db.scard x.room
  · exact .inl ⟨h, by simp [h]⟩
  · exact .inr ⟨by omega, by simp [h]⟩

/-- **What `LUA_JOIN` may do**: nothing for a member; otherwise, on the trimmed room, refuse the role, or take it over
from the client its key names, or take it where it is free. -/
theorem luaJoin_cases :
    x.id ∈ db.smembers x.room ∧ luaJoin now ttl capacity x db = ((db.scard x.room : Int), db) ∨
    x.id ∉ db.smembers x.room ∧ ∃ db', Trims db db' ∧
      ((∃ v, db.roles.get (x.room, x.role) = some v ∧ (∀ c, matchRole v ≠ some (x.owner.text, c)) ∧
          luaJoin now ttl capacity x db = (-2, db')) ∨
        (∃ v c, db.roles.get (x.room, x.role) = some v ∧ matchRole v = some (x.owner.text, c) ∧
          luaJoin now ttl capacity x db = enter now ttl capacity x (evict x.room c db')) ∨
        db.roles.get (x.room, x.role) = none ∧ luaJoin now ttl capacity x db = enter now ttl capacity x db') := by
  by_cases hm : x.id ∈ db.smembers x.room
  · exact .inl ⟨hm, by simp [luaJoin, hm]⟩
  · refine .inr ⟨hm, prune x.room db, trims_prune x.room db, ?_⟩
    have hroles : (prune x.room db).roles = db.roles := (trims_prune x.room db).roles
    simp only [luaJoin, if_neg hm, hroles]
    cases hv : db.roles.get (x.room, x.role) with
    | none => exact .inr (.inr ⟨rfl, rfl⟩)
    | some v =>
      cases hr : matchRole v with
      | none => exact .inl ⟨v, rfl, by simp [hr], by simp [hr]⟩
      | some p =>
        obtain ⟨o, c⟩ := p
        by_cases ho : o = x.owner.text
        · subst ho
          exact .inr (.inl ⟨v, c, rfl, hr, by simp [hr]⟩)
        · refine .inl ⟨v, rfl, fun c' hc => ho ?_, by simp [hr, ho]⟩
          rw [hr, Option.some.injEq, Prod.mk.injEq] at hc
          exact hc.1

end cases

end Signaling
end CloudGaming
