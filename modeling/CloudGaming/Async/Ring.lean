import Mathlib.Data.List.Basic
import Mathlib.Data.List.Sublists
/-!
# Ring — a queue of bounded length in an array, which gives up its oldest entry when it is full

`window` reads the entries in order, from the read index on and around the end of the array.  `Overwrites` is the queue
it stands for: a full one loses its head to a new entry.
-/
namespace CloudGaming
namespace RingQueue

variable {α : Type*}

/-- The `count` entries from index `read` on. -/
def window [Inhabited α] (slots : List α) (read count : Nat) : List α :=
  (List.range count).map fun i => slots.getD ((read + i) % slots.length) default

section

variable [Inhabited α]

@[simp] theorem length_window (slots : List α) (read count : Nat) : (window slots read count).length = count := by
  rw [window, List.length_map, List.length_range]

/-- Within one turn of the ring two places differ. -/
theorem place_ne {n i count : Nat} (read : Nat) (hcount : count < n) (hi : i < count) :
    (read + i) % n ≠ (read + count) % n := by
  intro h
  have hzero := Nat.sub_mod_eq_zero_of_mod_eq h.symm
  rw [Nat.add_sub_add_left, Nat.mod_eq_of_lt (by omega)] at hzero
  omega

/-- Writing behind the last entry appends. -/
theorem window_push (slots : List α) (read : Nat) {count : Nat} (hcount : count < slots.length) (a : α) :
    window (slots.set ((read + count) % slots.length) a) read (count + 1) = window slots read count ++ [a] := by
  have hlt : (read + count) % slots.length < slots.length := Nat.mod_lt _ (by omega)
  unfold window
  rw [List.length_set, List.range_succ, List.map_append]
  congr 1
  · apply List.map_congr_left
    intro i hi
    have hne := place_ne read hcount (List.mem_range.1 hi)
    rw [List.getD_eq_getElem?_getD, List.getD_eq_getElem?_getD, List.getElem?_set_ne (Ne.symm hne)]
  · rw [List.map_singleton, List.getD_eq_getElem?_getD, List.getElem?_set_self hlt]
    rfl

/-- Reading the first entry and moving on. -/
theorem window_pop (slots : List α) (read count : Nat) :
    window slots read (count + 1) =
      slots.getD (read % slots.length) default :: window slots ((read + 1) % slots.length) count := by
  unfold window
  rw [List.range_succ_eq_map, List.map_cons, List.map_map]
  congr 1
  apply List.map_congr_left
  intro i _
  rw [Function.comp, Nat.mod_add_mod, Nat.succ_eq_add_one, Nat.add_assoc, Nat.add_comm i 1]

end

/-! ## The queue -/

/-- A new entry; where there are `bound` already, the oldest goes. -/
def pushed (bound : Nat) (queue : List α) (a : α) : List α :=
  (if queue.length < bound then queue else queue.tail) ++ [a]

/-- What has been put in is what is gone and then what is held; of what is gone, some was taken, in order. -/
structure Overwrites (bound : Nat) (puts taken queue : List α) (dropped : Nat) : Prop where
  split : ∃ gone, puts = gone ++ queue ∧ List.Sublist taken gone ∧ dropped + taken.length = gone.length
  le_bound : queue.length ≤ bound

namespace Overwrites

variable {bound dropped : Nat} {puts taken queue : List α}

theorem empty (bound : Nat) : Overwrites bound ([] : List α) [] [] 0 :=
  ⟨⟨[], rfl, List.Sublist.slnil, rfl⟩, Nat.zero_le _⟩

theorem push (h : Overwrites bound puts taken queue dropped) (hbound : 0 < bound) (a : α) :
    Overwrites bound (puts ++ [a]) taken (pushed bound queue a)
      (if queue.length < bound then dropped else dropped + 1) := by
  obtain ⟨⟨gone, rfl, hsub, hcount⟩, hle⟩ := h
  unfold pushed
  split
  · refine ⟨⟨gone, by rw [List.append_assoc], hsub, hcount⟩, ?_⟩
    rw [List.length_append, List.length_singleton]
    omega
  · cases queue with
    | nil => exact absurd hbound (by simp_all)
    | cons oldest queue =>
      refine ⟨⟨gone ++ [oldest], by simp, hsub.trans (List.sublist_append_left _ _), ?_⟩, ?_⟩
      · rw [List.length_append, List.length_singleton]
        omega
      · rw [List.tail_cons, List.length_append, List.length_singleton]
        exact hle

theorem pop {a : α} (h : Overwrites bound puts taken (a :: queue) dropped) :
    Overwrites bound puts (taken ++ [a]) queue dropped := by
  obtain ⟨⟨gone, rfl, hsub, hcount⟩, hle⟩ := h
  refine ⟨⟨gone ++ [a], by simp, hsub.append (List.Sublist.refl _), ?_⟩, ?_⟩
  · rw [List.length_append, List.length_append, List.length_singleton]
    omega
  · rw [List.length_cons] at hle
    omega

theorem popAll (h : Overwrites bound puts taken queue dropped) : Overwrites bound puts (taken ++ queue) [] dropped := by
  induction queue generalizing taken with
  | nil => simpa using h
  | cons a queue ih => simpa using ih h.pop

/-- What is taken was put in, in this order. -/
theorem taken_sublist (h : Overwrites bound puts taken queue dropped) : List.Sublist taken puts := by
  obtain ⟨⟨gone, rfl, hsub, -⟩, -⟩ := h
  exact hsub.trans (List.sublist_append_left _ _)

theorem dropped_eq (h : Overwrites bound puts taken queue dropped) :
    dropped + taken.length + queue.length = puts.length := by
  obtain ⟨⟨gone, rfl, -, hcount⟩, -⟩ := h
  rw [List.length_append, hcount]

end Overwrites

end RingQueue
end CloudGaming
