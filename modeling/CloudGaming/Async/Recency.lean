import Mathlib.Data.Finset.Card
import Mathlib.Data.Finset.Dedup
import Mathlib.Data.List.Nodup
/-!
# Recency — what a bounded cache that gives up its least recently used entry has done

A history is the events of the cache, the newest first.  What the cache holds, when each key was last used and which
key it may give up are read off the history alone; `Recent` ties a list of entries by recency to it, so that an
implementation only shows what each operation does to its list.
-/
namespace CloudGaming
namespace Recency

variable {K V : Type*} [DecidableEq K]

/-- What a cache does: a lookup with its answer, an insertion, an eviction, a clearing, a change of its capacity. -/
inductive Event (K V : Type*) where
  | looked (key : K) (answer : Option V)
  | inserted (key : K) (val : V)
  | evicted (key : K)
  | cleared
  | resized (capacity : Nat)
  deriving DecidableEq, Repr

/-- The last value inserted for the key, unless it has been evicted or the cache has been cleared since. -/
def held : List (Event K V) → K → Option V
  | [], _ => none
  | .looked _ _ :: h, key => held h key
  | .inserted k val :: h, key => if k = key then some val else held h key
  | .evicted k :: h, key => if k = key then none else held h key
  | .cleared :: _, _ => none
  | .resized _ :: h, key => held h key

/-- A use of a key: an insertion, or a lookup that finds it. -/
def Event.uses : Event K V → K → Bool
  | .looked k (some _), key => k = key
  | .inserted k _, key => k = key
  | _, _ => false

/-- How long the history was at the last use of the key. -/
def lastUse : List (Event K V) → K → Nat
  | [], _ => 0
  | e :: h, key => if e.uses key then h.length + 1 else lastUse h key

/-- The keys that are held. -/
def resident : List (Event K V) → Finset K
  | [] => ∅
  | .looked _ _ :: h => resident h
  | .inserted k _ :: h => insert k (resident h)
  | .evicted k :: h => (resident h).erase k
  | .cleared :: _ => ∅
  | .resized _ :: h => resident h

/-- The capacity in force, of a cache made with `cap`. -/
def capacity (cap : Nat) : List (Event K V) → Nat
  | [] => cap
  | .resized c :: _ => c
  | _ :: h => capacity cap h

/-- A lookup answers with what is held; a key is given up only where more are held than the capacity, and it is the
one whose last use is the oldest. -/
def Allowed (cap : Nat) (h : List (Event K V)) : Event K V → Prop
  | .looked key answer => answer = held h key
  | .evicted key => capacity cap h < (resident h).card ∧ key ∈ resident h ∧
      ∀ other ∈ resident h, other ≠ key → lastUse h key < lastUse h other
  | _ => True

/-- Every event was allowed when it happened. -/
def Lawful (cap : Nat) : List (Event K V) → Prop
  | [] => True
  | e :: h => Allowed cap h e ∧ Lawful cap h

/-- The entries by recency, the most recently used first. -/
structure Recent (h : List (Event K V)) (l : List (K × V)) : Prop where
  sorted : l.Pairwise fun p q => lastUse h q.1 < lastUse h p.1
  holds : ∀ key val, held h key = some val ↔ (key, val) ∈ l

theorem lastUse_le (h : List (Event K V)) (key : K) : lastUse h key ≤ h.length := by
  induction h with
  | nil => exact Nat.le_refl 0
  | cons e h ih =>
    rw [lastUse, List.length_cons]
    split
    · exact Nat.le_refl _
    · omega

theorem lastUse_of_uses {e : Event K V} {key : K} (h : List (Event K V)) (he : e.uses key = true) :
    lastUse (e :: h) key = h.length + 1 := by
  rw [lastUse, if_pos he]

theorem lastUse_of_not_uses {e : Event K V} {key : K} (h : List (Event K V)) (he : e.uses key = false) :
    lastUse (e :: h) key = lastUse h key := by
  rw [lastUse, he]
  rfl

theorem mem_resident_iff (h : List (Event K V)) (key : K) : key ∈ resident h ↔ ∃ val, held h key = some val := by
  induction h with
  | nil => simp [resident, held]
  | cons e h ih =>
    cases e with
    | looked k answer => exact ih
    | inserted k val =>
      by_cases hk : k = key
      · simp [resident, held, hk]
      · simp [resident, held, hk, ih, Ne.symm hk]
    | evicted k =>
      by_cases hk : k = key
      · simp [resident, held, hk]
      · simp [resident, held, hk, ih, Ne.symm hk]
    | cleared => simp [resident, held]
    | resized c => exact ih

namespace Recent

variable {h : List (Event K V)} {l : List (K × V)}

theorem nil : Recent ([] : List (Event K V)) [] := ⟨List.Pairwise.nil, by simp [held]⟩

/-- No key is there twice: an entry is not older than itself. -/
theorem nodup_keys (hr : Recent h l) : (l.map Prod.fst).Nodup := by
  rw [List.nodup_iff_pairwise_ne, List.pairwise_map]
  apply hr.sorted.imp
  rintro p q hlt heq
  rw [heq] at hlt
  exact Nat.lt_irrefl _ hlt

theorem resident_eq (hr : Recent h l) : resident h = (l.map Prod.fst).toFinset := by
  ext key
  rw [mem_resident_iff, List.mem_toFinset, List.mem_map]
  constructor
  · rintro ⟨val, hv⟩
    exact ⟨(key, val), (hr.holds key val).1 hv, rfl⟩
  · rintro ⟨p, hp, rfl⟩
    exact ⟨p.2, (hr.holds p.1 p.2).2 hp⟩

theorem card_resident (hr : Recent h l) : (resident h).card = l.length := by
  rw [hr.resident_eq, List.toFinset_card_of_nodup hr.nodup_keys, List.length_map]

theorem held_eq_none (hr : Recent h l) {key : K} (hk : ∀ p ∈ l, p.1 ≠ key) : held h key = none := by
  cases hv : held h key with
  | none => rfl
  | some val => exact absurd rfl (hk (key, val) ((hr.holds key val).1 hv))

/-- A key that is used comes to the front, with the value it now has. -/
theorem front (hr : Recent h l) {e : Event K V} {key : K} {val : V} (huse : ∀ k, e.uses k = decide (key = k))
    (hheld : ∀ k, held (e :: h) k = if key = k then some val else held h k) :
    Recent (e :: h) ((key, val) :: l.filter fun p => p.1 ≠ key) := by
  have hne : ∀ p ∈ l.filter (fun p => p.1 ≠ key), p ∈ l ∧ p.1 ≠ key := by
    intro p hp
    simpa using List.mem_filter.1 hp
  have hold : ∀ p ∈ l.filter (fun p => p.1 ≠ key), lastUse (e :: h) p.1 = lastUse h p.1 := by
    intro p hp
    apply lastUse_of_not_uses
    rw [huse, decide_eq_false_iff_not]
    exact Ne.symm (hne p hp).2
  constructor
  · rw [List.pairwise_cons]
    constructor
    · intro q hq
      rw [hold q hq, lastUse_of_uses h (by rw [huse, decide_eq_true rfl])]
      have := lastUse_le h q.1
      omega
    · apply (hr.sorted.filter _).imp_of_mem
      intro p q hp hq hlt
      rw [hold p hp, hold q hq]
      exact hlt
  · intro k v
    rw [hheld, List.mem_cons, List.mem_filter]
    by_cases hk : key = k
    · rw [if_pos hk]
      simp [hk, eq_comm]
    · rw [if_neg hk, hr.holds k v]
      simp [Ne.symm hk]

theorem inserted (hr : Recent h l) (key : K) (val : V) :
    Recent (.inserted key val :: h) ((key, val) :: l.filter fun p => p.1 ≠ key) :=
  hr.front (fun _ => rfl) (fun _ => rfl)

theorem hit (hr : Recent h l) {key : K} {val : V} (hm : (key, val) ∈ l) :
    Recent (.looked key (some val) :: h) ((key, val) :: l.filter fun p => p.1 ≠ key) := by
  apply hr.front
  · exact fun _ => rfl
  · intro k
    split
    · rename_i hk
      exact hk ▸ (hr.holds key val).2 hm
    · rfl

/-- An event that uses no key and changes nothing that is held. -/
theorem keep (hr : Recent h l) {e : Event K V} (huse : ∀ k, e.uses k = false)
    (hheld : ∀ k, held (e :: h) k = held h k) : Recent (e :: h) l := by
  constructor
  · apply hr.sorted.imp
    intro p q hlt
    rw [lastUse_of_not_uses h (huse p.1), lastUse_of_not_uses h (huse q.1)]
    exact hlt
  · intro k v
    rw [hheld]
    exact hr.holds k v

theorem missed (hr : Recent h l) (key : K) : Recent (.looked key none :: h) l := hr.keep (fun _ => rfl) (fun _ => rfl)

theorem resized (hr : Recent h l) (c : Nat) : Recent (.resized c :: h) l := hr.keep (fun _ => rfl) (fun _ => rfl)

theorem cleared (h : List (Event K V)) : Recent (.cleared :: h) [] := ⟨List.Pairwise.nil, by simp [held]⟩

/-- What is at the back is what may be given up. -/
theorem allowed_last {p : K × V} (hr : Recent h (l ++ [p])) (cap : Nat) (hfull : capacity cap h < l.length + 1) :
    Allowed cap h (.evicted p.1 : Event K V) := by
  have hcard := hr.card_resident
  have hres := hr.resident_eq
  rw [List.length_append, List.length_singleton] at hcard
  refine ⟨by omega, ?_, ?_⟩
  · rw [hres]
    simp
  · intro other ho hne
    rw [hres] at ho
    simp only [List.map_append, List.mem_toFinset, List.mem_append, List.map_cons, List.map_nil,
      List.mem_singleton] at ho
    rcases ho with ho | ho
    · obtain ⟨q, hq, rfl⟩ := List.mem_map.1 ho
      exact (List.pairwise_append.1 hr.sorted).2.2 q hq p (List.mem_singleton.2 rfl)
    · exact absurd ho hne

theorem dropLast {p : K × V} (hr : Recent h (l ++ [p])) : Recent (.evicted p.1 :: h) l := by
  have hne : ∀ q ∈ l, q.1 ≠ p.1 := by
    have := hr.nodup_keys
    rw [List.map_append, List.nodup_append] at this
    intro q hq
    exact this.2.2 q.1 (List.mem_map.2 ⟨q, hq, rfl⟩) p.1 (by simp)
  constructor
  · exact (List.pairwise_append.1 hr.sorted).1
  · intro k v
    rw [held]
    have hold := hr.holds k v
    rw [List.mem_append, List.mem_singleton] at hold
    split
    · rename_i hk
      constructor
      · exact fun hf => absurd hf (by simp)
      · intro hm
        exact absurd hk.symm (hne (k, v) hm)
    · rename_i hk
      rw [hold]
      constructor
      · rintro (hm | hm)
        · exact hm
        · exact absurd (by rw [← hm]) hk
      · exact Or.inl

end Recent

end Recency
end CloudGaming
