import Mathlib.Data.List.AList
import Mathlib.Data.List.Sort
import Mathlib.Logic.Function.Basic
/-!
# Redis — keys with a TTL, sets and sorted sets

The part of Redis a store is written in: string keys that disappear once their TTL elapses, sets, and sorted sets with
`ZRANGEBYSCORE 0 now`.  Values may depend on their key, so that a record cannot be stored under a key it does not name.
-/
namespace CloudGaming
namespace Redis

/-- A string value and the instant, in milliseconds, at which its TTL elapses. -/
structure Entry (α : Type) where
  val : α
  expireAt : Nat

/-- The string keys of one family. -/
abbrev Keys (κ : Type) (β : κ → Type) := (k : κ) → Option (Entry (β k))

namespace Keys

variable {κ : Type} {β : κ → Type}

def get (m : Keys κ β) (k : κ) : Option (β k) := (m k).map Entry.val

/-- What is left at the instant `t`. -/
def sweep (m : Keys κ β) (t : Nat) : Keys κ β := fun k => (m k).filter fun e => t < e.expireAt

theorem get_eq_none {m : Keys κ β} {k : κ} : m.get k = none ↔ m k = none := by simp [get]

theorem get_eq_some {m : Keys κ β} {k : κ} {v : β k} : m.get k = some v ↔ ∃ t, m k = some ⟨v, t⟩ := by
  unfold get
  cases h : m k with
  | none => simp
  | some e => exact ⟨fun he => ⟨e.expireAt, by cases he; rfl⟩, fun ⟨t, ht⟩ => by cases ht; rfl⟩

theorem sweep_eq_some {m : Keys κ β} {k : κ} {t : Nat} {e : Entry (β k)} :
    m.sweep t k = some e ↔ m k = some e ∧ t < e.expireAt := by
  simp [sweep, Option.filter_eq_some_iff]

/-- A key keeps its value, or its TTL has elapsed. -/
theorem get_sweep_cases (m : Keys κ β) (k : κ) (t : Nat) : (m.sweep t).get k = m.get k ∨
    (m.sweep t).get k = none ∧ ∃ e, m k = some e ∧ e.expireAt ≤ t := by
  cases h : m k with
  | none => exact .inl (by simp [get, sweep, h])
  | some e =>
    by_cases ht : t < e.expireAt
    · have hs : m.sweep t k = some e := sweep_eq_some.2 ⟨h, ht⟩
      exact .inl (by simp only [get, hs, h])
    · have hs : m.sweep t k = none := by
        by_contra hne
        obtain ⟨e', he'⟩ := Option.ne_none_iff_exists'.1 hne
        obtain ⟨he, hlt⟩ := sweep_eq_some.1 he'
        rw [h, Option.some.injEq] at he
        exact ht (he ▸ hlt)
      exact .inr ⟨by simp only [get, hs, Option.map_none], e, rfl, by omega⟩

theorem get_sweep_of_some {m : Keys κ β} {k : κ} {t : Nat} {v : β k} (h : (m.sweep t).get k = some v) :
    m.get k = some v := by
  obtain ⟨u, hu⟩ := get_eq_some.1 h
  exact get_eq_some.2 ⟨u, (sweep_eq_some.1 hu).1⟩

variable [DecidableEq κ]

/-- `SET k v` with a TTL that elapses at `t`. -/
def set (m : Keys κ β) (k : κ) (v : β k) (t : Nat) : Keys κ β := Function.update m k (some ⟨v, t⟩)

/-- `DEL k`. -/
def del (m : Keys κ β) (k : κ) : Keys κ β := Function.update m k none

@[simp] theorem set_self (m : Keys κ β) (k : κ) (v : β k) (t : Nat) : m.set k v t k = some ⟨v, t⟩ := by simp [set]

theorem set_of_ne (m : Keys κ β) {k k' : κ} (v : β k) (t : Nat) (h : k' ≠ k) : m.set k v t k' = m k' := by
  simp [set, h]

@[simp] theorem del_self (m : Keys κ β) (k : κ) : m.del k k = none := by simp [del]

theorem del_of_ne (m : Keys κ β) {k k' : κ} (h : k' ≠ k) : m.del k k' = m k' := by simp [del, h]

theorem del_eq_some {m : Keys κ β} {k k' : κ} {e : Entry (β k')} : m.del k k' = some e ↔ k' ≠ k ∧ m k' = some e := by
  by_cases h : k' = k
  · subst h; simp
  · simp [del_of_ne m h, h]

@[simp] theorem get_set_self (m : Keys κ β) (k : κ) (v : β k) (t : Nat) : (m.set k v t).get k = some v := by
  simp [get]

theorem get_set_of_ne (m : Keys κ β) {k k' : κ} (v : β k) (t : Nat) (h : k' ≠ k) :
    (m.set k v t).get k' = m.get k' := by simp [get, set_of_ne m v t h]

@[simp] theorem get_del_self (m : Keys κ β) (k : κ) : (m.del k).get k = none := by simp [get]

theorem get_del_of_ne (m : Keys κ β) {k k' : κ} (h : k' ≠ k) : (m.del k).get k' = m.get k' := by
  simp [get, del_of_ne m h]

/-- `EXPIRE k`: the TTL of a key that exists elapses at `t`. -/
def expire (m : Keys κ β) (k : κ) (t : Nat) : Keys κ β := Function.update m k ((m k).map fun e => ⟨e.val, t⟩)

theorem expire_self (m : Keys κ β) (k : κ) (t : Nat) : m.expire k t k = (m k).map fun e => ⟨e.val, t⟩ := by
  simp [expire]

theorem expire_of_ne (m : Keys κ β) {k k' : κ} (t : Nat) (h : k' ≠ k) : m.expire k t k' = m k' := by simp [expire, h]

@[simp] theorem get_expire (m : Keys κ β) (k k' : κ) (t : Nat) : (m.expire k t).get k' = m.get k' := by
  by_cases h : k' = k
  · subst h
    simp only [get, expire_self, Option.map_map]
    rfl
  · simp only [get, expire_of_ne m t h]

/-- Deleting a key that was absent before it was set restores the family. -/
theorem del_set (m : Keys κ β) {k : κ} (v : β k) (t : Nat) (h : m k = none) : (m.set k v t).del k = m := by
  funext k'
  by_cases hk : k' = k
  · subst hk; rw [del_self, h]
  · rw [del_of_ne _ hk, set_of_ne _ _ _ hk]

end Keys

/-! ## Sets -/

section sets
variable {α : Type} [DecidableEq α]

/-- `SADD`. -/
def sadd (l : List α) (a : α) : List α := if a ∈ l then l else l ++ [a]

/-- `SREM`. -/
def srem (l : List α) (a : α) : List α := l.filter (· ≠ a)

@[simp] theorem mem_sadd {l : List α} {a b : α} : b ∈ sadd l a ↔ b ∈ l ∨ b = a := by
  unfold sadd
  split
  · rename_i h; exact ⟨Or.inl, fun h' => h'.elim id (fun e => e ▸ h)⟩
  · simp

@[simp] theorem mem_srem {l : List α} {a b : α} : b ∈ srem l a ↔ b ∈ l ∧ b ≠ a := by simp [srem]

theorem nodup_srem {l : List α} {a : α} (h : l.Nodup) : (srem l a).Nodup := h.filter _

theorem nodup_sadd {l : List α} {a : α} (h : l.Nodup) : (sadd l a).Nodup := by
  unfold sadd
  split
  · exact h
  · rename_i ha
    exact List.nodup_append.2 ⟨h, List.nodup_singleton a, fun x hx y hy => by
      rw [List.mem_singleton.1 hy]; rintro rfl; exact ha hx⟩

theorem length_sadd_le {l : List α} {a : α} : (sadd l a).length ≤ l.length + 1 := by
  unfold sadd
  split
  · omega
  · simp

end sets

/-! ## Sorted sets -/

/-- A sorted set: the score of each member. -/
abbrev ZSet (κ : Type) := AList fun _ : κ => Nat

namespace ZSet

variable {κ : Type} [DecidableEq κ]

def zadd (z : ZSet κ) (k : κ) (score : Nat) : ZSet κ := AList.insert k score z

def zrem (z : ZSet κ) (k : κ) : ZSet κ := AList.erase k z

def score (z : ZSet κ) (k : κ) : Option Nat := AList.lookup k z

/-- `ZRANGEBYSCORE 0 now`: by score, members of equal score in lexicographic order. -/
def due [LE κ] [DecidableLE κ] (z : ZSet κ) (now : Nat) : List κ :=
  ((z.entries.filter fun e => e.2 ≤ now).insertionSort fun a b => a.2 < b.2 ∨ a.2 = b.2 ∧ a.1 ≤ b.1).map Sigma.fst

@[simp] theorem score_zadd_self (z : ZSet κ) (k : κ) (n : Nat) : (z.zadd k n).score k = some n := AList.lookup_insert z

theorem score_zadd_of_ne (z : ZSet κ) {k k' : κ} (n : Nat) (h : k' ≠ k) : (z.zadd k n).score k' = z.score k' :=
  AList.lookup_insert_ne h

@[simp] theorem score_zrem_self (z : ZSet κ) (k : κ) : (z.zrem k).score k = none := AList.lookup_erase k z

theorem score_zrem_of_ne (z : ZSet κ) {k k' : κ} (h : k' ≠ k) : (z.zrem k).score k' = z.score k' :=
  AList.lookup_erase_ne h

@[simp] theorem score_empty (k : κ) : (∅ : ZSet κ).score k = none := AList.lookup_empty k

theorem mem_due [LE κ] [DecidableLE κ] {z : ZSet κ} {now : Nat} {k : κ} :
    k ∈ z.due now ↔ ∃ n, z.score k = some n ∧ n ≤ now := by
  unfold due score
  simp only [List.mem_map, List.mem_insertionSort, List.mem_filter, decide_eq_true_eq, Sigma.exists, exists_and_right,
    exists_eq_right, AList.mem_lookup_iff.symm, Option.mem_def]

omit [DecidableEq κ] in
theorem nodup_due [LE κ] [DecidableLE κ] (z : ZSet κ) (now : Nat) : (z.due now).Nodup := by
  have h : (z.entries.filter fun e => decide (e.2 ≤ now)).NodupKeys := z.nodupKeys.sublist List.filter_sublist
  exact ((List.perm_insertionSort _ _).map Sigma.fst).nodup_iff.2 h

end ZSet

end Redis
end CloudGaming
