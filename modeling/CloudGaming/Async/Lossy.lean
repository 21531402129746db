import Mathlib.Data.Set.Insert
import Mathlib.Order.BooleanAlgebra.Set
import Mathlib.Data.List.Basic
/-!
# Lossy — a queue kept as a slice with a head, and what a replay of its messages leaves held

The queue appends to a slice and takes from an index into it; the entries before the index are cut off now and then.
What counts is the live part: each operation is told by what it does to that.  A queue that is full gives up messages;
`held` is what a sequence of additions, removals and clearings leaves, and `lastOfRuns` what a queue may thin out.
-/
namespace CloudGaming
namespace Lossy

variable {α κ : Type*}

/-- A slice, and the index of its oldest live entry. -/
structure HeadQueue (α : Type*) where
  items : List α
  head : Nat
  head_le : head ≤ items.length
  deriving DecidableEq, Repr

namespace HeadQueue

def empty : HeadQueue α := ⟨[], 0, Nat.le_refl 0⟩

def live (q : HeadQueue α) : List α := q.items.drop q.head

theorem head_le_append (q : HeadQueue α) (a : α) : q.head ≤ (q.items ++ [a]).length := by
  have := q.head_le
  rw [List.length_append]
  omega

theorem head_le_set (q : HeadQueue α) (i : Nat) (a : α) : q.head ≤ (q.items.set i a).length := by
  rw [List.length_set]
  exact q.head_le

theorem head_succ_le (q : HeadQueue α) (blank : α) (h : q.head < q.items.length) :
    q.head + 1 ≤ (q.items.set q.head blank).length := by
  rw [List.length_set]
  exact h

/-- The dead entries are cut off, where there are `threshold` of them and they are half of the slice. -/
def compact (threshold : Nat) (q : HeadQueue α) : HeadQueue α :=
  if threshold ≤ q.head ∧ q.items.length ≤ q.head * 2 then ⟨q.live, 0, Nat.zero_le _⟩ else q

def push (q : HeadQueue α) (a : α) : HeadQueue α := ⟨q.items ++ [a], q.head, q.head_le_append a⟩

/-- The newest entry is overwritten. -/
def replaceLast (q : HeadQueue α) (a : α) : HeadQueue α :=
  ⟨q.items.set (q.items.length - 1) a, q.head, q.head_le_set (q.items.length - 1) a⟩

/-- The oldest live entry, which is blanked; a slice without live entries is given up. -/
def pop (blank : α) (q : HeadQueue α) : Option α × HeadQueue α :=
  if h : q.head < q.items.length then
    (some q.items[q.head],
      if q.head + 1 = q.items.length then empty
      else ⟨q.items.set q.head blank, q.head + 1, q.head_succ_le blank h⟩)
  else (none, q)

@[simp] theorem live_empty : (empty : HeadQueue α).live = [] := rfl

theorem length_live (q : HeadQueue α) : q.live.length = q.items.length - q.head := List.length_drop

@[simp] theorem live_compact (threshold : Nat) (q : HeadQueue α) : (q.compact threshold).live = q.live := by
  unfold compact
  split
  · rfl
  · rfl

@[simp] theorem live_push (q : HeadQueue α) (a : α) : (q.push a).live = q.live ++ [a] := by
  unfold live push
  rw [List.drop_append_of_le_length q.head_le]

/-- The newest entry of the slice is that of the live part, where there is one. -/
theorem getLast?_items {q : HeadQueue α} (h : q.live ≠ []) : q.items.getLast? = q.live.getLast? := by
  have hlt : q.head < q.items.length := by
    have := List.length_pos_iff.2 h
    rw [length_live] at this
    omega
  unfold live
  rw [List.getLast?_drop, if_neg (by omega)]

theorem live_replaceLast {q : HeadQueue α} (h : q.live ≠ []) (a : α) :
    (q.replaceLast a).live = q.live.dropLast ++ [a] := by
  have hlt : q.head < q.items.length := by
    have := List.length_pos_iff.2 h
    rw [length_live] at this
    omega
  have hne : q.items ≠ [] := List.length_pos_iff.1 (by omega)
  have hsplit : q.items.set (q.items.length - 1) a = q.items.dropLast ++ [a] := by
    conv => lhs; rw [← List.dropLast_append_getLast hne]
    rw [List.length_append, List.length_singleton, Nat.add_sub_cancel, List.set_append_right _ _ (Nat.le_refl _),
      Nat.sub_self]
    rfl
  unfold live replaceLast
  dsimp only
  rw [hsplit, List.drop_append_of_le_length (by rw [List.length_dropLast]; omega), List.dropLast_eq_take,
    List.dropLast_eq_take, List.drop_take, List.length_drop, Nat.sub_right_comm]

@[simp] theorem pop_fst (blank : α) (q : HeadQueue α) : (q.pop blank).1 = q.live.head? := by
  unfold pop live
  split
  · rename_i h
    rw [List.head?_drop, List.getElem?_eq_getElem h]
  · rename_i h
    rw [List.drop_eq_nil_of_le (by omega)]
    rfl

@[simp] theorem live_pop (blank : α) (q : HeadQueue α) : (q.pop blank).2.live = q.live.tail := by
  unfold pop
  split
  · rename_i h
    unfold live
    split
    · rename_i hl
      rw [List.tail_drop, hl, List.drop_length]
      rfl
    · rw [List.tail_drop]
      exact List.drop_set_of_lt (Nat.lt_succ_self _)
  · rename_i h
    have hnil : q.live = [] := List.drop_eq_nil_of_le (by omega)
    rw [hnil]
    rfl

end HeadQueue

/-! ## What a replay leaves held -/

/-- What a message does to a set of held things. -/
inductive Change (κ : Type*) where
  | add (k : κ)
  | remove (k : κ)
  | clear
  | keep

def Change.apply (s : Set κ) : Change κ → Set κ
  | .add k => insert k s
  | .remove k => s \ {k}
  | .clear => ∅
  | .keep => s

theorem Change.apply_mono {s t : Set κ} (h : s ⊆ t) (c : Change κ) : c.apply s ⊆ c.apply t := by
  cases c with
  | add k => exact Set.insert_subset_insert h
  | remove k => exact Set.sdiff_subset_sdiff_left h
  | clear => exact Set.Subset.refl ∅
  | keep => exact h

/-- What is held after a sequence of messages, each of which means a change. -/
def held (meaning : α → Change κ) (messages : List α) : Set κ :=
  messages.foldl (fun s m => (meaning m).apply s) ∅

variable {meaning : α → Change κ}

@[simp] theorem held_concat (messages : List α) (m : α) :
    held meaning (messages ++ [m]) = (meaning m).apply (held meaning messages) := by
  unfold held
  rw [List.foldl_concat]

theorem held_clear {m : α} (h : meaning m = .clear) (messages : List α) : held meaning (messages ++ [m]) = ∅ := by
  rw [held_concat, h]
  rfl

/-! ## Thinning out -/

/-- The elements of a list without those that are followed by another of their kind: of every run only the last is
left. -/
def lastOfRuns (p : α → Bool) : List α → List α
  | [] => []
  | [a] => [a]
  | a :: b :: rest => if p a && p b then lastOfRuns p (b :: rest) else a :: lastOfRuns p (b :: rest)

variable {p : α → Bool}

/-- The last element is always left; whether the one before is, hangs on the two of them. -/
theorem lastOfRuns_concat : ∀ (xs : List α) (a : α), ∃ kept, lastOfRuns p (xs ++ [a]) = kept ++ [a] ∧
    ∀ b, lastOfRuns p (xs ++ [a] ++ [b]) = (if p a && p b then kept else kept ++ [a]) ++ [b]
  | [], a => ⟨[], rfl, fun b => by simp only [List.nil_append, List.cons_append, lastOfRuns]; split <;> rfl⟩
  | x :: xs, a => by
    obtain ⟨kept, hkept, hnext⟩ := lastOfRuns_concat xs a
    obtain ⟨y, rest, hy⟩ : ∃ y rest, xs ++ [a] = y :: rest := by
      cases xs with
      | nil => exact ⟨a, [], rfl⟩
      | cons y xs => exact ⟨y, xs ++ [a], rfl⟩
    rw [hy] at hkept
    simp only [hy, List.cons_append] at hnext ⊢
    by_cases hx : p x && p y
    · refine ⟨kept, ?_, fun b => ?_⟩
      · rw [lastOfRuns, if_pos hx, hkept]
      · rw [lastOfRuns, if_pos hx, hnext]
    · refine ⟨x :: kept, ?_, fun b => ?_⟩
      · rw [lastOfRuns, if_neg hx, hkept, List.cons_append]
      · rw [lastOfRuns, if_neg hx, hnext]
        split <;> rfl

theorem lastOfRuns_concat_sublist (xs : List α) (b : α) :
    (lastOfRuns p (xs ++ [b])).Sublist (lastOfRuns p xs ++ [b]) := by
  rcases List.eq_nil_or_concat xs with rfl | ⟨before, a, rfl⟩
  · exact List.Sublist.refl _
  · obtain ⟨kept, hkept, hnext⟩ := lastOfRuns_concat (p := p) before a
    rw [List.concat_eq_append, hnext, hkept]
    refine (List.append_sublist_append_right _).2 ?_
    split
    · exact List.sublist_append_left kept [a]
    · exact List.Sublist.refl _

/-- Nothing of the other kind is thinned out. -/
theorem filter_lastOfRuns : ∀ xs : List α, (lastOfRuns p xs).filter (fun a => !p a) = xs.filter (fun a => !p a)
  | [] => rfl
  | [_] => rfl
  | a :: b :: rest => by
    have ih := filter_lastOfRuns (b :: rest)
    rw [lastOfRuns]
    split
    · rename_i h
      rw [Bool.and_eq_true] at h
      rw [ih, List.filter_cons_of_neg (a := a) (by simp [h.1])]
    · by_cases ha : p a
      · rw [List.filter_cons_of_neg (by simp [ha]), List.filter_cons_of_neg (by simp [ha]), ih]
      · rw [List.filter_cons_of_pos (by simp [ha]), List.filter_cons_of_pos (by simp [ha]), ih]

/-- What is left of a sequence, where an element may take the place of one of its kind right before it. -/
structure Thinned (p : α → Bool) (submitted left : List α) : Prop where
  last : left.getLast? = submitted.getLast?
  low : (lastOfRuns p submitted).Sublist left
  high : left.Sublist submitted

theorem Thinned.nil : Thinned p ([] : List α) [] := ⟨rfl, List.Sublist.refl _, List.Sublist.refl _⟩

variable {submitted left : List α} {a prev : α}

theorem Thinned.push (h : Thinned p submitted left) (a : α) : Thinned p (submitted ++ [a]) (left ++ [a]) := by
  refine ⟨by rw [List.getLast?_concat, List.getLast?_concat], ?_, (List.append_sublist_append_right _).2 h.high⟩
  exact (lastOfRuns_concat_sublist submitted a).trans ((List.append_sublist_append_right _).2 h.low)

/-- The element takes the place of the last one that is left, which is of its kind. -/
theorem Thinned.replace (h : Thinned p submitted (left ++ [prev])) (hprev : p prev = true) (ha : p a = true) :
    Thinned p (submitted ++ [a]) (left ++ [a]) := by
  have hend := h.last
  rw [List.getLast?_concat] at hend
  obtain ⟨before, rfl⟩ := List.getLast?_eq_some_iff.1 hend.symm
  obtain ⟨kept, hkept, hnext⟩ := lastOfRuns_concat (p := p) before prev
  have hlow := h.low
  have hhigh := h.high
  rw [hkept, List.append_sublist_append_right] at hlow
  rw [List.append_sublist_append_right] at hhigh
  refine ⟨by rw [List.getLast?_concat, List.getLast?_concat], ?_, ?_⟩
  · rw [hnext a, if_pos (by rw [hprev, ha]; rfl)]
    exact (List.append_sublist_append_right _).2 hlow
  · exact (List.append_sublist_append_right _).2 (hhigh.trans (List.sublist_append_left _ _))

/-- **What is not of the kind is left, in order.** -/
theorem Thinned.filter_eq (h : Thinned p submitted left) :
    left.filter (fun a => !p a) = submitted.filter (fun a => !p a) := by
  refine (h.high.filter _).antisymm ?_
  rw [← filter_lastOfRuns]
  exact h.low.filter _

/-! ## Less is held -/

theorem held_push (h : held meaning left ⊆ held meaning submitted) (a : α) :
    held meaning (left ++ [a]) ⊆ held meaning (submitted ++ [a]) := by
  rw [held_concat, held_concat]
  exact Change.apply_mono h (meaning a)

theorem held_replace (h : held meaning (left ++ [prev]) ⊆ held meaning submitted) (hprev : meaning prev = .keep)
    (ha : meaning a = .keep) : held meaning (left ++ [a]) ⊆ held meaning (submitted ++ [a]) := by
  rw [held_concat, hprev] at h
  rw [held_concat, held_concat, ha]
  exact h

/-- What is given up for a reset leaves nothing held, and the new element may follow. -/
theorem held_reset {reset : α} (hreset : meaning reset = .clear) (left submitted : List α) (a : α) (kept : Prop)
    [Decidable kept] : held meaning (left ++ reset :: (if kept then [a] else [])) ⊆ held meaning (submitted ++ [a]) := by
  by_cases hkept : kept
  · rw [if_pos hkept, List.append_cons, held_concat, held_clear hreset, held_concat]
    exact Change.apply_mono (Set.empty_subset _) (meaning a)
  · rw [if_neg hkept, held_clear hreset]
    exact Set.empty_subset _

end Lossy
end CloudGaming
