import CloudGaming.Async.Recency
import Mathlib.Data.List.AList
/-!
# LruCache — the encoder's cache of D3D11 views, a list and a hash map that point into each other

A `std::list` keeps its nodes where they are, so an iterator is the address of a node and the list is its nodes in
order.  Using an iterator that points to no node of the list is undefined behaviour, and so is going before the first
one: both are `none`.  The operations also tell what they did, as events of a history.
-/
namespace CloudGaming
namespace Host
namespace Encoder

open Recency (Event)

/-- A node of `items_`. -/
structure Node (K V : Type*) where
  addr : Nat
  first : K
  second : V
  deriving DecidableEq, Repr

/-- `next` is an address no node has been given. -/
structure LruCacheD3D (K V : Type*) where
  capacity_ : Nat
  items_ : List (Node K V) := []
  map_ : AList fun _ : K => Nat := ∅
  next : Nat := 0

/-- What an owner of the cache calls; `ComPtr` assignments cannot fail. -/
inductive Op (K V : Type*) where
  | get (key : K)
  | put (key : K) (val : V)
  | clear
  | setCapacity (cap : Nat) (pos : 0 < cap)

variable {K V : Type*}

/-- `*it` -/
def deref (items : List (Node K V)) (it : Nat) : Option (Node K V) := items.find? fun n => n.addr = it

/-- `items_.splice(items_.begin(), items_, it)` -/
def splice (items : List (Node K V)) (it : Nat) : Option (List (Node K V)) :=
  (deref items it).map fun n => n :: items.filter fun m => m.addr ≠ it

/-- `it->second = val` -/
def assign (items : List (Node K V)) (it : Nat) (val : V) : List (Node K V) :=
  items.map fun n => if n.addr = it then { n with second := val } else n

/-- The list without its addresses. -/
def entries (items : List (Node K V)) : List (K × V) := items.map fun n => (n.first, n.second)

theorem keys_assign (items : List (Node K V)) (it : Nat) (val : V) :
    (assign items it val).map (fun n => (n.addr, n.first)) = items.map fun n => (n.addr, n.first) := by
  unfold assign
  rw [List.map_map]
  apply List.map_congr_left
  intro n _
  dsimp only [Function.comp]
  split
  · rfl
  · rfl

theorem filter_assign (items : List (Node K V)) (it : Nat) (val : V) :
    (assign items it val).filter (fun m => m.addr ≠ it) = items.filter fun m => m.addr ≠ it := by
  unfold assign
  induction items with
  | nil => rfl
  | cons n items ih =>
    rw [List.map_cons]
    by_cases hn : n.addr = it
    · simpa [hn] using ih
    · simpa [hn] using ih

variable [DecidableEq K]

/-- The loop of `evictIfNeeded`, with the keys it takes out of the map in order. -/
def evictLoop (capacity : Nat) (items : List (Node K V)) (map : AList fun _ : K => Nat) :
    Option (List (Node K V) × (AList fun _ : K => Nat) × List K) :=
  if map.entries.length ≤ capacity then some (items, map, [])
  else if h : items = [] then none
  else do
    let last := items.getLast h
    let (items', map', keys) ← evictLoop capacity items.dropLast (map.erase last.first)
    pure (items', map', last.first :: keys)
termination_by items.length
decreasing_by
  rw [List.length_dropLast]
  have := List.length_pos_iff.2 h
  omega

namespace LruCacheD3D

variable (c : LruCacheD3D K V)

def size : Nat := c.map_.entries.length

def evictIfNeeded : Option (LruCacheD3D K V × List K) :=
  if c.capacity_ = 0 then some (c, [])
  else do
    let (items, map, keys) ← evictLoop c.capacity_ c.items_ c.map_
    pure ({ c with items_ := items, map_ := map }, keys)

def setCapacity (cap : Nat) : Option (LruCacheD3D K V × List K) := evictIfNeeded { c with capacity_ := cap }

def clear : LruCacheD3D K V := { c with items_ := [], map_ := ∅ }

def get (key : K) : Option (LruCacheD3D K V × Option V) :=
  match c.map_.lookup key with
  | none => some (c, none)
  | some it => do
    let items ← splice c.items_ it
    let n ← deref items it
    pure ({ c with items_ := items }, some n.second)

def put (key : K) (val : V) : Option (LruCacheD3D K V × List K) :=
  match c.map_.lookup key with
  | some it => do
    let _ ← deref c.items_ it
    let items ← splice (assign c.items_ it val) it
    pure ({ c with items_ := items }, [])
  | none =>
    evictIfNeeded { c with
      items_ := ⟨c.next, key, val⟩ :: c.items_
      map_ := c.map_.insert key c.next
      next := c.next + 1 }

/-- An operation, with the events it makes of it, the newest first. -/
def apply : Op K V → Option (LruCacheD3D K V × List (Event K V))
  | .get key => (c.get key).map fun (c', out) => (c', [.looked key out])
  | .put key val => (c.put key val).map fun (c', keys) => (c', keys.reverse.map .evicted ++ [.inserted key val])
  | .clear => some (c.clear, [.cleared])
  | .setCapacity cap _ => (c.setCapacity cap).map fun (c', keys) => (c', keys.reverse.map .evicted ++ [.resized cap])

end LruCacheD3D

/-- The operations one after the other, on a cache with its history. -/
def run : LruCacheD3D K V × List (Event K V) → List (Op K V) → Option (LruCacheD3D K V × List (Event K V))
  | s, [] => some s
  | (c, h), op :: ops => do
    let (c', es) ← c.apply op
    run (c', es ++ h) ops

/-- The map and the list are in bijection: the map has an iterator for a key exactly where that points to a node of the
list with this key, and no two nodes share a key or an address. -/
structure Linked (items : List (Node K V)) (map : AList fun _ : K => Nat) : Prop where
  addrs : (items.map Node.addr).Nodup
  keys : (items.map Node.first).Nodup
  agree : ∀ key it, map.lookup key = some it ↔ ∃ n ∈ items, n.first = key ∧ n.addr = it

namespace Linked

variable {items : List (Node K V)} {map : AList fun _ : K => Nat}

theorem empty : Linked ([] : List (Node K V)) (∅ : AList fun _ : K => Nat) :=
  ⟨List.nodup_nil, List.nodup_nil, by simp⟩

theorem mem_map_iff (hl : Linked items map) (key : K) : key ∈ map ↔ key ∈ items.map Node.first := by
  rw [← AList.lookup_isSome, Option.isSome_iff_exists, List.mem_map]
  constructor
  · rintro ⟨it, hit⟩
    obtain ⟨n, hn, hkey, -⟩ := (hl.agree key it).1 hit
    exact ⟨n, hn, hkey⟩
  · rintro ⟨n, hn, hkey⟩
    exact ⟨n.addr, (hl.agree key n.addr).2 ⟨n, hn, hkey, rfl⟩⟩

theorem length_eq (hl : Linked items map) : map.entries.length = items.length := by
  have hperm : List.Perm map.keys (items.map Node.first) := by
    rw [List.perm_ext_iff_of_nodup map.keys_nodup hl.keys]
    intro key
    rw [← AList.mem_keys]
    exact hl.mem_map_iff key
  have hlen := hperm.length_eq
  rw [List.length_map] at hlen
  rw [← hlen, AList.keys, List.keys, List.length_map]

theorem lookup_eq_none (hl : Linked items map) {key : K} (h : map.lookup key = none) : ∀ n ∈ items, n.first ≠ key := by
  intro n hn hkey
  have := (hl.agree key n.addr).2 ⟨n, hn, hkey, rfl⟩
  rw [h] at this
  exact absurd this (by simp)

/-- An iterator the map has points to the node with its key. -/
theorem deref_eq (hl : Linked items map) {key : K} {it : Nat} (h : map.lookup key = some it) :
    ∃ n, n ∈ items ∧ n.first = key ∧ n.addr = it ∧ deref items it = some n := by
  obtain ⟨n, hn, hkey, hit⟩ := (hl.agree key it).1 h
  refine ⟨n, hn, hkey, hit, ?_⟩
  unfold deref
  cases hf : items.find? (fun m => m.addr = it) with
  | none =>
    have := List.find?_eq_none.1 hf n hn
    exact absurd hit (by simpa using this)
  | some m =>
    have haddr : m.addr = it := by simpa using List.find?_some hf
    rw [List.inj_on_of_nodup_map hl.addrs (List.mem_of_find?_eq_some hf) hn (haddr.trans hit.symm)]

/-- Two nodes have one address exactly where they have one key. -/
theorem addr_eq_iff (hl : Linked items map) {n m : Node K V} (hn : n ∈ items) (hm : m ∈ items) :
    m.addr = n.addr ↔ m.first = n.first := by
  constructor
  · exact fun h => by rw [List.inj_on_of_nodup_map hl.addrs hm hn h]
  · exact fun h => by rw [List.inj_on_of_nodup_map hl.keys hm hn h]

/-- What a list of the same nodes needs, in any order and with any values, to be linked to the same map. -/
theorem of_perm (hl : Linked items map) {items' : List (Node K V)}
    (hp : List.Perm (items'.map fun n => (n.addr, n.first)) (items.map fun n => (n.addr, n.first))) :
    Linked items' map := by
  have haddr : List.Perm (items'.map Node.addr) (items.map Node.addr) := by
    simpa [List.map_map, Function.comp_def] using hp.map Prod.fst
  have hfirst : List.Perm (items'.map Node.first) (items.map Node.first) := by
    simpa [List.map_map, Function.comp_def] using hp.map Prod.snd
  refine ⟨haddr.nodup_iff.2 hl.addrs, hfirst.nodup_iff.2 hl.keys, ?_⟩
  intro key it
  have hmem := hp.mem_iff (a := (it, key))
  simp only [List.mem_map, Prod.mk.injEq] at hmem
  rw [hl.agree key it]
  constructor
  · rintro ⟨n, hn, hkey, hit⟩
    obtain ⟨m, hm, h1, h2⟩ := hmem.2 ⟨n, hn, hit, hkey⟩
    exact ⟨m, hm, h2, h1⟩
  · rintro ⟨n, hn, hkey, hit⟩
    obtain ⟨m, hm, h1, h2⟩ := hmem.1 ⟨n, hn, hit, hkey⟩
    exact ⟨m, hm, h2, h1⟩

/-- Moving a node to the front. -/
theorem splice_eq (hl : Linked items map) {n : Node K V} (hn : n ∈ items) (hd : deref items n.addr = some n) :
    splice items n.addr = some (n :: items.filter fun m => m.addr ≠ n.addr) ∧
      Linked (n :: items.filter fun m => m.addr ≠ n.addr) map ∧
      (entries items).filter (fun p => p.1 ≠ n.first) = entries (items.filter fun m => m.addr ≠ n.addr) := by
  refine ⟨by rw [splice, hd]; rfl, hl.of_perm (List.Perm.map _ ?_), ?_⟩
  · have hnd : items.Nodup := List.Nodup.of_map _ hl.addrs
    rw [List.perm_ext_iff_of_nodup _ hnd]
    · intro m
      rw [List.mem_cons, List.mem_filter]
      constructor
      · rintro (rfl | hm)
        · exact hn
        · exact hm.1
      · intro hm
        by_cases ha : m.addr = n.addr
        · exact Or.inl (List.inj_on_of_nodup_map hl.addrs hm hn ha)
        · exact Or.inr ⟨hm, by simpa using ha⟩
    · rw [List.nodup_cons]
      exact ⟨by simp [List.mem_filter], hnd.filter _⟩
  · unfold entries
    rw [List.filter_map]
    congr 1
    apply List.filter_congr
    intro m hm
    simp only [Function.comp, ne_eq, hl.addr_eq_iff hn hm]

/-- The entry at the back is taken out of both. -/
theorem dropLast {n : Node K V} (hl : Linked (items ++ [n]) map) : Linked items (map.erase n.first) := by
  have haddrs := hl.addrs
  have hkeys := hl.keys
  rw [List.map_append, List.nodup_append] at haddrs hkeys
  refine ⟨haddrs.1, hkeys.1, ?_⟩
  intro key it
  by_cases hk : key = n.first
  · rw [hk, AList.lookup_erase]
    constructor
    · exact fun h => absurd h (by simp)
    · rintro ⟨m, hm, hfirst, -⟩
      exact absurd hfirst (hkeys.2.2 m.first (List.mem_map_of_mem hm) n.first (by simp))
  · rw [AList.lookup_erase_ne hk, hl.agree key it]
    constructor
    · rintro ⟨m, hm, hfirst, hit⟩
      rcases List.mem_append.1 hm with hm | hm
      · exact ⟨m, hm, hfirst, hit⟩
      · rw [List.mem_singleton.1 hm] at hfirst
        exact absurd hfirst.symm hk
    · rintro ⟨m, hm, hfirst, hit⟩
      exact ⟨m, List.mem_append_left _ hm, hfirst, hit⟩

/-- A new key gets a node of its own. -/
theorem insert (hl : Linked items map) {key : K} {val : V} {addr : Nat} (hnew : ∀ n ∈ items, n.first ≠ key)
    (hfree : ∀ n ∈ items, n.addr < addr) : Linked (⟨addr, key, val⟩ :: items) (map.insert key addr) := by
  refine ⟨?_, ?_, ?_⟩
  · rw [List.map_cons, List.nodup_cons, List.mem_map]
    refine ⟨?_, hl.addrs⟩
    rintro ⟨n, hn, heq⟩
    exact absurd (hfree n hn) (by simp [heq])
  · rw [List.map_cons, List.nodup_cons, List.mem_map]
    refine ⟨?_, hl.keys⟩
    rintro ⟨n, hn, heq⟩
    exact hnew n hn heq
  · intro k it
    by_cases hk : k = key
    · rw [hk, AList.lookup_insert]
      constructor
      · intro hit
        exact ⟨_, List.mem_cons_self, rfl, Option.some.inj hit⟩
      · rintro ⟨n, hn, hfirst, hit⟩
        rcases List.mem_cons.1 hn with rfl | hn
        · rw [← hit]
        · exact absurd hfirst (hnew n hn)
    · rw [AList.lookup_insert_ne hk, hl.agree k it]
      constructor
      · rintro ⟨n, hn, hfirst, hit⟩
        exact ⟨n, List.mem_cons_of_mem _ hn, hfirst, hit⟩
      · rintro ⟨n, hn, hfirst, hit⟩
        rcases List.mem_cons.1 hn with rfl | hn
        · exact absurd hfirst.symm hk
        · exact ⟨n, hn, hfirst, hit⟩

end Linked

/-- The cache is what its history makes of it. -/
structure Well (cap : Nat) (c : LruCacheD3D K V) (h : List (Event K V)) : Prop where
  linked : Linked c.items_ c.map_
  unused : ∀ n ∈ c.items_, n.addr < c.next
  recent : Recency.Recent h (entries c.items_)
  lawful : Recency.Lawful cap h
  capacity_eq : Recency.capacity cap h = c.capacity_
  pos : 0 < c.capacity_

/-- The loop takes entries from the back, each the least recently used of what is left, until there is room. -/
theorem evictLoop_spec (cap : Nat) (items : List (Node K V)) :
    ∀ (map : AList fun _ : K => Nat) (h : List (Event K V)), Linked items map → Recency.Recent h (entries items) →
      Recency.Lawful cap h → ∃ items' map' keys,
        evictLoop (Recency.capacity cap h) items map = some (items', map', keys) ∧
        (∀ n ∈ items', n ∈ items) ∧ Linked items' map' ∧
        Recency.Recent (keys.reverse.map .evicted ++ h) (entries items') ∧
        Recency.Lawful cap (keys.reverse.map .evicted ++ h) ∧
        Recency.capacity cap (keys.reverse.map .evicted ++ h) = Recency.capacity cap h ∧
        map'.entries.length ≤ Recency.capacity cap h := by
  induction items using List.reverseRecOn with
  | nil =>
    intro map h hl hr hlaw
    refine ⟨[], map, [], ?_, fun n hn => hn, hl, hr, hlaw, rfl, ?_⟩
    · rw [evictLoop, if_pos (by rw [hl.length_eq]; exact Nat.zero_le _)]
    · rw [hl.length_eq]
      exact Nat.zero_le _
  | append_singleton items last ih =>
    intro map h hl hr hlaw
    by_cases hroom : map.entries.length ≤ Recency.capacity cap h
    · refine ⟨items ++ [last], map, [], ?_, fun n hn => hn, hl, hr, hlaw, rfl, hroom⟩
      rw [evictLoop, if_pos hroom]
    · have hr' : Recency.Recent h (entries items ++ [(last.first, last.second)]) := by
        simpa [entries] using hr
      have hfull : Recency.capacity cap h < (entries items).length + 1 := by
        have := hl.length_eq
        rw [List.length_append, List.length_singleton] at this
        rw [entries, List.length_map]
        omega
      have hallowed := hr'.allowed_last cap hfull
      obtain ⟨items', map', keys, hrun, hsub, hl', hrec, hlawful, hcap, hsize⟩ :=
        ih (map.erase last.first) (.evicted last.first :: h) hl.dropLast hr'.dropLast ⟨hallowed, hlaw⟩
      have heq : (last.first :: keys).reverse.map Event.evicted ++ h =
          keys.reverse.map Event.evicted ++ (Event.evicted (V := V) last.first :: h) := by
        rw [List.reverse_cons, List.map_append, List.append_assoc]
        rfl
      refine ⟨items', map', last.first :: keys, ?_, fun n hn => List.mem_append_left _ (hsub n hn), hl', ?_, ?_, ?_, hsize⟩
      · have hrun' : evictLoop (Recency.capacity cap h) items (map.erase last.first) = some (items', map', keys) := hrun
        rw [evictLoop, if_neg hroom, dif_neg (by simp)]
        simp only [List.getLast_append_singleton, List.dropLast_concat, hrun']
        rfl
      · rw [heq]
        exact hrec
      · rw [heq]
        exact hlawful
      · rw [heq]
        exact hcap

namespace Well

variable {cap : Nat} {c : LruCacheD3D K V} {h : List (Event K V)}

theorem new (hcap : 0 < cap) : Well cap ({ capacity_ := cap } : LruCacheD3D K V) [] :=
  ⟨Linked.empty, fun _ hn => absurd hn (by simp), Recency.Recent.nil, trivial, rfl, hcap⟩

/-- The keys of the map are those that are held. -/
theorem size_eq (hw : Well cap c h) : c.size = (Recency.resident h).card := by
  rw [hw.recent.card_resident, LruCacheD3D.size, hw.linked.length_eq, entries, List.length_map]

theorem evictIfNeeded (hw : Well cap c h) : ∃ c' keys, c.evictIfNeeded = some (c', keys) ∧
    Well cap c' (keys.reverse.map .evicted ++ h) ∧ c'.size ≤ c'.capacity_ := by
  obtain ⟨items', map', keys, hrun, hsub, hl, hr, hlaw, hcapacity, hsize⟩ :=
    evictLoop_spec cap c.items_ c.map_ h hw.linked hw.recent hw.lawful
  rw [hw.capacity_eq] at hrun hcapacity hsize
  refine ⟨{ c with items_ := items', map_ := map' }, keys, ?_, ?_, hsize⟩
  · rw [LruCacheD3D.evictIfNeeded, if_neg (Nat.ne_of_gt hw.pos), hrun]
    rfl
  · exact ⟨hl, fun n hn => hw.unused n (hsub n hn), hr, hlaw, hcapacity, hw.pos⟩

theorem setCapacity (hw : Well cap c h) {cap' : Nat} (hpos : 0 < cap') : ∃ c' keys,
    c.setCapacity cap' = some (c', keys) ∧
      Well cap c' (keys.reverse.map .evicted ++ (.resized cap' :: h)) ∧ c'.size ≤ c'.capacity_ := by
  apply evictIfNeeded
  exact ⟨hw.linked, hw.unused, hw.recent.resized cap', ⟨trivial, hw.lawful⟩, rfl, hpos⟩

theorem clear (hw : Well cap c h) : Well cap c.clear (.cleared :: h) :=
  ⟨Linked.empty, fun _ hn => absurd hn (by simp [LruCacheD3D.clear]), Recency.Recent.cleared h, ⟨trivial, hw.lawful⟩,
    hw.capacity_eq, hw.pos⟩

/-- A node that is moved to the front, as an entry that is used. -/
theorem splice (hw : Well cap c h) {n : Node K V} {e : Event K V} (hn : n ∈ c.items_)
    (hr : Recency.Recent (e :: h) ((n.first, n.second) :: (entries c.items_).filter fun p => p.1 ≠ n.first))
    (hallowed : Recency.Allowed cap h e) (hcap : Recency.capacity cap (e :: h) = Recency.capacity cap h)
    (hd : deref c.items_ n.addr = some n) :
    Well cap { c with items_ := n :: c.items_.filter fun m => m.addr ≠ n.addr } (e :: h) := by
  obtain ⟨-, hl, hentries⟩ := hw.linked.splice_eq hn hd
  rw [hentries] at hr
  refine ⟨hl, ?_, hr, ⟨hallowed, hw.lawful⟩, hcap.trans hw.capacity_eq, hw.pos⟩
  intro m hm
  rcases List.mem_cons.1 hm with rfl | hm
  · exact hw.unused m hn
  · exact hw.unused m (List.mem_filter.1 hm).1

theorem get (hw : Well cap c h) (key : K) : ∃ c' out, c.get key = some (c', out) ∧
    Well cap c' (.looked key out :: h) ∧ c'.size = c.size ∧ c'.capacity_ = c.capacity_ := by
  cases hlook : c.map_.lookup key with
  | none =>
    have hno : Recency.held h key = none := by
      apply hw.recent.held_eq_none
      intro p hp
      obtain ⟨n, hn, rfl⟩ := List.mem_map.1 hp
      exact hw.linked.lookup_eq_none hlook n hn
    refine ⟨c, none, by rw [LruCacheD3D.get, hlook], ?_, rfl, rfl⟩
    exact ⟨hw.linked, hw.unused, hw.recent.missed key, ⟨hno.symm, hw.lawful⟩, hw.capacity_eq, hw.pos⟩
  | some it =>
    obtain ⟨n, hn, rfl, rfl, hd⟩ := hw.linked.deref_eq hlook
    have hmem : (n.first, n.second) ∈ entries c.items_ := List.mem_map.2 ⟨n, hn, rfl⟩
    obtain ⟨hsplice, -, -⟩ := hw.linked.splice_eq hn hd
    refine ⟨{ c with items_ := n :: c.items_.filter fun m => m.addr ≠ n.addr }, some n.second, ?_, ?_, rfl, rfl⟩
    · simp only [LruCacheD3D.get, hlook, hsplice]
      simp [deref]
    · exact hw.splice hn (hw.recent.hit hmem) ((hw.recent.holds _ _).2 hmem).symm rfl hd

theorem put (hw : Well cap c h) (hsize : c.size ≤ c.capacity_) (key : K) (val : V) : ∃ c' keys,
    c.put key val = some (c', keys) ∧ Well cap c' (keys.reverse.map .evicted ++ (.inserted key val :: h)) ∧
      c'.size ≤ c'.capacity_ := by
  cases hlook : c.map_.lookup key with
  | none =>
    have hnew := hw.linked.lookup_eq_none hlook
    have hkeep : (entries c.items_).filter (fun p => p.1 ≠ key) = entries c.items_ := by
      apply List.filter_eq_self.2
      intro p hp
      obtain ⟨n, hn, rfl⟩ := List.mem_map.1 hp
      simpa using hnew n hn
    have hr := hw.recent.inserted key val
    rw [hkeep] at hr
    have hput : Well cap { c with
        items_ := ⟨c.next, key, val⟩ :: c.items_
        map_ := c.map_.insert key c.next
        next := c.next + 1 } (.inserted key val :: h) := by
      refine ⟨hw.linked.insert hnew hw.unused, ?_, hr, ⟨trivial, hw.lawful⟩, hw.capacity_eq, hw.pos⟩
      intro n hn
      rcases List.mem_cons.1 hn with rfl | hn
      · exact Nat.lt_succ_self _
      · exact Nat.lt_succ_of_lt (hw.unused n hn)
    rw [LruCacheD3D.put, hlook]
    exact hput.evictIfNeeded
  | some it =>
    obtain ⟨n, hn, rfl, rfl, hd⟩ := hw.linked.deref_eq hlook
    -- the value is written first, and then the node is moved
    have hla : Linked (assign c.items_ n.addr val) c.map_ := by
      apply hw.linked.of_perm
      rw [keys_assign]
    have hna : { n with second := val } ∈ assign c.items_ n.addr val :=
      List.mem_map.2 ⟨n, hn, if_pos rfl⟩
    obtain ⟨m, hm, hmfirst, hmaddr, hda⟩ := hla.deref_eq hlook
    have hmn : m = { n with second := val } := List.inj_on_of_nodup_map hla.addrs hm hna hmaddr
    subst hmn
    obtain ⟨hsplice, hl, -⟩ := hla.splice_eq hm hda
    rw [filter_assign] at hsplice hl
    have hr := hw.recent.inserted n.first val
    obtain ⟨-, -, hentries⟩ := hw.linked.splice_eq hn hd
    rw [hentries] at hr
    refine ⟨{ c with items_ := { n with second := val } :: c.items_.filter fun m => m.addr ≠ n.addr }, [], ?_, ?_, hsize⟩
    · simp only [LruCacheD3D.put, hlook, hd, hsplice]
      rfl
    · refine ⟨hl, ?_, hr, ⟨trivial, hw.lawful⟩, hw.capacity_eq, hw.pos⟩
      intro m hm'
      rcases List.mem_cons.1 hm' with rfl | hm'
      · exact hw.unused n hn
      · exact hw.unused m (List.mem_filter.1 hm').1

/-- What one operation keeps. -/
theorem apply (hw : Well cap c h) (hsize : c.size ≤ c.capacity_) (op : Op K V) :
    ∃ c' es, c.apply op = some (c', es) ∧ Well cap c' (es ++ h) ∧ c'.size ≤ c'.capacity_ := by
  cases op with
  | get key =>
    obtain ⟨c', out, hrun, hw', hs, hc⟩ := hw.get key
    exact ⟨c', _, by rw [LruCacheD3D.apply, hrun]; rfl, hw', by rw [hs, hc]; exact hsize⟩
  | put key val =>
    obtain ⟨c', keys, hrun, hw', hs⟩ := hw.put hsize key val
    exact ⟨c', _, by rw [LruCacheD3D.apply, hrun]; rfl, by rw [List.append_assoc]; exact hw', hs⟩
  | clear => exact ⟨c.clear, _, rfl, hw.clear, Nat.zero_le _⟩
  | setCapacity cap' pos =>
    obtain ⟨c', keys, hrun, hw', hs⟩ := hw.setCapacity pos
    exact ⟨c', _, by rw [LruCacheD3D.apply, hrun]; rfl, by rw [List.append_assoc]; exact hw', hs⟩

theorem run (hw : Well cap c h) (hsize : c.size ≤ c.capacity_) (ops : List (Op K V)) :
    ∃ c' h', Encoder.run (c, h) ops = some (c', h') ∧ Well cap c' h' ∧ c'.size ≤ c'.capacity_ := by
  induction ops generalizing c h with
  | nil => exact ⟨c, h, rfl, hw, hsize⟩
  | cons op ops ih =>
    obtain ⟨c₁, es, hop, hw₁, hs₁⟩ := hw.apply hsize op
    obtain ⟨c', h', hrun, hw', hs'⟩ := ih hw₁ hs₁
    refine ⟨c', h', ?_, hw', hs'⟩
    rw [Encoder.run, hop]
    exact hrun

end Well

/-- **The cache is an LRU map.** -/
theorem lru_cache_refines {cap : Nat} (hcap : 1 ≤ cap) (ops : List (Op K V)) :
    ∃ c h, run (({ capacity_ := cap } : LruCacheD3D K V), []) ops = some (c, h) ∧
      Linked c.items_ c.map_ ∧ c.map_.entries.length = c.items_.length ∧ c.size ≤ c.capacity_ ∧
      c.capacity_ = Recency.capacity cap h ∧ c.size = (Recency.resident h).card ∧
      Recency.Recent h (entries c.items_) ∧ Recency.Lawful cap h := by
  obtain ⟨c, h, hrun, hw, hsize⟩ := (Well.new hcap).run (Nat.zero_le _) ops
  exact ⟨c, h, hrun, hw.linked, hw.linked.length_eq, hsize, hw.capacity_eq.symm, hw.size_eq, hw.recent, hw.lawful⟩

theorem lru_cache_refines_two : ∃ c h,
    run (({ capacity_ := 2 } : LruCacheD3D Nat Nat), []) [.put 1 10, .put 2 20, .get 1, .put 2 21, .put 3 30, .get 1] =
        some (c, h) ∧
      Linked c.items_ c.map_ ∧ c.map_.entries.length = c.items_.length ∧ c.size ≤ c.capacity_ ∧
      c.capacity_ = Recency.capacity 2 h ∧ c.size = (Recency.resident h).card ∧
      Recency.Recent h (entries c.items_) ∧ Recency.Lawful 2 h :=
  lru_cache_refines (by decide) _

end Encoder
end Host
end CloudGaming
