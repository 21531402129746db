import Mathlib.Data.List.Perm.Basic
import Mathlib.Data.List.Nodup
import Mathlib.Algebra.BigOperators.Group.List.Basic
import Mathlib.Data.List.Range
import Mathlib.Tactic.Linarith
/-!
# Ledger — a line that loses tickets, and the gaps that tell

Tickets are issued in order and join the end of a line; some are dropped, also out of the middle of the line, and the
drops are carried as the gap of a ticket that joins later.  A ticket may be taken out of the line and put back at its
end.  `Sound` is what the books keep whatever gaps are carried, `Balanced` what they keep where no count is lost; a line
is `InOrder` when its tickets stand in the order of their issue, and `OnTime` when at every ticket the gaps so far count
the tickets issued before it and dropped.
-/
namespace CloudGaming
namespace Async

structure Ticket where
  id : Nat
  gap : Nat
  deriving DecidableEq, Repr

/-- The line, the ticket taken out, the one issued last that has not joined, and the drops that no gap tells yet: those
carried by the one who issues, and those left for the next ticket. -/
@[ext]
structure Ledger where
  line : List Ticket
  taken : Option Ticket
  fresh : Option Nat
  carried : Nat
  pending : Nat
  issued : Nat
  dropped : List Nat

namespace Ledger

variable (b : Ledger) (n k : Nat) (o : Ticket) (H R : List Ticket)

def issue : Ledger :=
  { b with fresh := some b.issued, carried := b.carried + b.pending, pending := 0, issued := b.issued + 1 }

def push : Ledger := { b with line := b.line ++ [⟨n, b.carried⟩], fresh := none, carried := 0 }

/-- The ticket `o` between `H` and `R` is dropped; `k` drops are carried from now on. -/
def evict : Ledger := { b with line := H ++ R, dropped := o.id :: b.dropped, carried := k }

def takeOut : Ledger := { b with line := H ++ R, taken := some o }

/-- The ticket taken out goes back, and the fresh one is dropped. -/
def putBack : Ledger :=
  { b with line := b.line ++ [o], taken := none, fresh := none, dropped := n :: b.dropped, carried := b.carried + 1 }

def giveUp : Ledger := { b with fresh := none, dropped := n :: b.dropped, carried := b.carried + 1 }

/-- What is carried is left for the next ticket; `k` are pending from now on. -/
def settle : Ledger := { b with pending := k, carried := 0 }

/-! ## The books -/

/-- The tickets issued, wherever they are. -/
def ids : List Nat := b.line.map (·.id) ++ (b.taken.map (·.id)).toList ++ b.fresh.toList ++ b.dropped

def gaps : Nat := (b.line.map (·.gap)).sum + (b.taken.map (·.gap)).getD 0

/-- **Every ticket issued is in one place.** -/
structure Sound : Prop where
  placed : b.ids.Perm (List.range b.issued)
  newest : ∀ n ∈ b.fresh, n + 1 = b.issued
  quiet : b.fresh.isSome → b.pending = 0

/-- **The gaps, told and untold, count the drops.** -/
def Balanced : Prop := b.dropped.length = b.gaps + b.carried + b.pending

section sound
variable {b n k o H R}

theorem Sound.issue (h : b.Sound) (hf : b.fresh = none) : b.issue.Sound where
  placed := by
    have hp := h.placed
    simp only [ids, hf, Option.toList_none, List.append_nil] at hp
    simp only [ids, Ledger.issue, Option.toList_some, List.range_succ]
    refine List.Perm.trans ?_ (hp.append_right [b.issued])
    rw [List.append_assoc, List.append_assoc _ b.dropped]
    exact (List.perm_append_comm).append_left _
  newest := by simp [Ledger.issue]
  quiet := fun _ => rfl

theorem Sound.push (h : b.Sound) (hf : b.fresh = some n) (ht : b.taken = none) : (b.push n).Sound where
  placed := by
    have hp := h.placed
    simpa [ids, hf, ht, Ledger.push] using hp
  newest := by simp [Ledger.push]
  quiet := by simp [Ledger.push]

theorem perm_cons_middle {α : Type} (A B C : List α) (a : α) : (A ++ B ++ a :: C).Perm (A ++ a :: B ++ C) := by
  rw [List.append_assoc, List.append_assoc]
  exact (List.perm_middle).append_left A

theorem Sound.evict (h : b.Sound) (hl : b.line = H ++ o :: R) : (b.evict k o H R).Sound where
  placed := by
    refine List.Perm.trans ?_ h.placed
    have := perm_cons_middle (H.map (·.id)) (R.map (·.id) ++ (b.taken.map (·.id)).toList ++ b.fresh.toList) b.dropped o.id
    simpa [ids, Ledger.evict, hl] using this
  newest := h.newest
  quiet := h.quiet

theorem Sound.takeOut (h : b.Sound) (hl : b.line = H ++ o :: R) (ht : b.taken = none) : (b.takeOut o H R).Sound where
  placed := by
    refine List.Perm.trans ?_ h.placed
    have := perm_cons_middle (H.map (·.id)) (R.map (·.id)) (b.fresh.toList ++ b.dropped) o.id
    simpa [ids, Ledger.takeOut, hl, ht] using this
  newest := h.newest
  quiet := h.quiet

theorem Sound.putBack (h : b.Sound) (hf : b.fresh = some n) (ht : b.taken = some o) : (b.putBack n o).Sound where
  placed := by
    have hp := h.placed
    simpa [ids, hf, ht, Ledger.putBack] using hp
  newest := by simp [Ledger.putBack]
  quiet := by simp [Ledger.putBack]

theorem Sound.giveUp (h : b.Sound) (hf : b.fresh = some n) : (b.giveUp n).Sound where
  placed := by
    have hp := h.placed
    simpa [ids, hf, Ledger.giveUp] using hp
  newest := by simp [Ledger.giveUp]
  quiet := by simp [Ledger.giveUp]

theorem Sound.settle (h : b.Sound) (hf : b.fresh = none) : (b.settle k).Sound where
  placed := h.placed
  newest := h.newest
  quiet := by simp [Ledger.settle, hf]

theorem Sound.nodup (h : b.Sound) : b.ids.Nodup := h.placed.nodup_iff.2 List.nodup_range

/-- The fresh ticket is the newest of all. -/
theorem Sound.lt_fresh (h : b.Sound) (hf : b.fresh = some n) {i : Nat} (hi : i ∈ b.ids) (hne : i ≠ n) : i < n := by
  have hr : i < b.issued := List.mem_range.1 (h.placed.mem_iff.1 hi)
  have := h.newest n hf
  omega

theorem Sound.line_lt_fresh (h : b.Sound) (hf : b.fresh = some n) {x : Ticket} (hx : x ∈ b.line) : x.id < n := by
  have hm : x.id ∈ b.line.map (·.id) := List.mem_map_of_mem hx
  refine h.lt_fresh hf (by simp [ids, List.mem_map_of_mem hx]) (fun he => ?_)
  have hn := h.nodup
  simp only [ids, hf, Option.toList_some, List.append_assoc] at hn
  exact (List.disjoint_of_nodup_append hn) hm (by simp [he])

theorem Sound.dropped_lt_fresh (h : b.Sound) (hf : b.fresh = some n) {i : Nat} (hi : i ∈ b.dropped) : i < n := by
  refine h.lt_fresh hf (by simp [ids, hi]) (fun he => ?_)
  have hn := h.nodup
  simp only [ids, hf, Option.toList_some] at hn
  exact (List.disjoint_of_nodup_append hn) (by simp [he]) hi

theorem Sound.taken_lt_fresh (h : b.Sound) (hf : b.fresh = some n) (ht : b.taken = some o) : o.id < n := by
  refine h.lt_fresh hf (by simp [ids, ht]) (fun he => ?_)
  have hn := h.nodup
  simp only [ids, hf, ht, Option.map_some, Option.toList_some, List.append_assoc] at hn
  have := (List.nodup_append.1 hn).2.1
  simp [he] at this

end sound

section balanced
variable {b n k o H R}

theorem Balanced.issue (h : b.Balanced) : b.issue.Balanced := by
  simp only [Balanced, gaps, Ledger.issue] at h ⊢
  omega

theorem Balanced.push (h : b.Balanced) (ht : b.taken = none) : (b.push n).Balanced := by
  simp only [Balanced, gaps, Ledger.push, ht, List.map_append, List.sum_append, List.map_cons, List.map_nil,
    List.sum_cons, List.sum_nil] at h ⊢
  omega

theorem Balanced.evict (h : b.Balanced) (hl : b.line = H ++ o :: R) (hk : k = b.carried + o.gap + 1) :
    (b.evict k o H R).Balanced := by
  simp only [Balanced, gaps, Ledger.evict, hl, List.map_append, List.sum_append, List.map_cons, List.sum_cons,
    List.length_cons] at h ⊢
  omega

theorem Balanced.takeOut (h : b.Balanced) (hl : b.line = H ++ o :: R) (ht : b.taken = none) :
    (b.takeOut o H R).Balanced := by
  simp only [Balanced, gaps, Ledger.takeOut, hl, ht, List.map_append, List.sum_append, List.map_cons, List.sum_cons,
    Option.map_some, Option.map_none, Option.getD_some, Option.getD_none] at h ⊢
  omega

theorem Balanced.putBack (h : b.Balanced) (ht : b.taken = some o) : (b.putBack n o).Balanced := by
  simp only [Balanced, gaps, Ledger.putBack, ht, List.map_append, List.sum_append, List.map_cons, List.map_nil,
    List.sum_cons, List.sum_nil, List.length_cons, Option.map_some, Option.map_none, Option.getD_some,
    Option.getD_none] at h ⊢
  omega

theorem Balanced.giveUp (h : b.Balanced) : (b.giveUp n).Balanced := by
  simp only [Balanced, gaps, Ledger.giveUp, List.length_cons] at h ⊢
  omega

theorem Balanced.settle (h : b.Balanced) (hk : k = b.pending + b.carried) : (b.settle k).Balanced := by
  simp only [Balanced, gaps, Ledger.settle] at h ⊢
  omega

end balanced

/-! ## Order -/

/-- The line stands in the order of issue, and the ticket taken out belongs at its end. -/
structure InOrder : Prop where
  line : (b.line.map (·.id)).Pairwise (· < ·)
  taken : ∀ o ∈ b.taken, ∀ x ∈ b.line, x.id < o.id

section order
variable {b n k o H R}

theorem InOrder.push (h : b.InOrder) (hs : b.Sound) (hf : b.fresh = some n) (ht : b.taken = none) :
    (b.push n).InOrder where
  line := by
    simp only [Ledger.push, List.map_append, List.map_cons, List.map_nil]
    refine List.pairwise_append.2 ⟨h.line, List.pairwise_singleton _ _, fun i hi j hj => ?_⟩
    obtain ⟨x, hx, rfl⟩ := List.mem_map.1 hi
    rw [List.mem_singleton.1 hj]
    exact hs.line_lt_fresh hf hx
  taken := by simp [Ledger.push, ht]

theorem InOrder.evict (h : b.InOrder) (hl : b.line = H ++ o :: R) (ht : b.taken = none) : (b.evict k o H R).InOrder where
  line := by
    have hp := h.line
    rw [hl] at hp
    exact hp.sublist (((List.sublist_cons_self o R).append_left H).map _)
  taken := by simp [Ledger.evict, ht]

/-- **A ticket may be taken out for the end only from the end.** -/
theorem inOrder_takeOut (h : b.InOrder) (hl : b.line = H ++ o :: R) : (b.takeOut o H R).InOrder ↔ R = [] := by
  have hp := h.line
  rw [hl, List.map_append, List.map_cons] at hp
  obtain ⟨hH, hoR, hHo⟩ := List.pairwise_append.1 hp
  constructor
  · intro h'
    cases R with
    | nil => rfl
    | cons x R =>
      have h1 : x.id < o.id := h'.taken o rfl x (by simp [Ledger.takeOut])
      have h2 : o.id < x.id := (List.pairwise_cons.1 hoR).1 x.id (by simp)
      omega
  · rintro rfl
    refine ⟨by simpa [Ledger.takeOut] using hH, fun t ht x hx => ?_⟩
    obtain rfl : o = t := Option.some.inj ht
    have hx' : x ∈ H := by simpa [Ledger.takeOut] using hx
    exact hHo x.id (List.mem_map_of_mem hx') o.id (by simp)

theorem InOrder.putBack (h : b.InOrder) (ht : b.taken = some o) : (b.putBack n o).InOrder where
  line := by
    simp only [Ledger.putBack, List.map_append, List.map_cons, List.map_nil]
    refine List.pairwise_append.2 ⟨h.line, List.pairwise_singleton _ _, fun i hi j hj => ?_⟩
    obtain ⟨x, hx, rfl⟩ := List.mem_map.1 hi
    rw [List.mem_singleton.1 hj]
    exact h.taken o ht x hx
  taken := by simp [Ledger.putBack]

end order

/-! ## Time -/

/-- How many of the dropped tickets were issued before `n`. -/
def before (dropped : List Nat) (n : Nat) : Nat := (dropped.filter (· < n)).length

/-- At every ticket of the line the gaps so far, `base` and those of the line, count the drops before it. -/
def Timed (dropped : List Nat) (base : Nat) : List Ticket → Prop
  | [] => True
  | t :: ts => base + t.gap = before dropped t.id ∧ Timed dropped (base + t.gap) ts

/-- The line is on time, and the ticket taken out is, at its end. -/
structure OnTime : Prop where
  line : Timed b.dropped 0 b.line
  taken : ∀ o ∈ b.taken, (b.line.map (·.gap)).sum + o.gap = before b.dropped o.id

section time
variable {b n k o H R} {d : List Nat} {base : Nat} {xs ys : List Ticket}

theorem timed_append :
    Timed d base (xs ++ ys) ↔ Timed d base xs ∧ Timed d (base + (xs.map (·.gap)).sum) ys := by
  induction xs generalizing base with
  | nil => simp [Timed]
  | cons x xs ih => simp [Timed, ih, and_assoc, Nat.add_assoc]

theorem timed_iff_split :
    Timed d base xs ↔ ∀ pre t post, xs = pre ++ t :: post →
      base + ((pre ++ [t]).map (·.gap)).sum = before d t.id := by
  constructor
  · rintro h pre t post rfl
    have := (timed_append.1 h).2.1
    simpa [Nat.add_assoc] using this
  · intro h
    induction xs generalizing base with
    | nil => trivial
    | cons x xs ih =>
      refine ⟨by simpa using h [] x xs rfl, ih fun pre t post hx => ?_⟩
      have := h (x :: pre) t post (by rw [hx]; rfl)
      simpa [Nat.add_assoc] using this

theorem before_cons (i : Nat) : before (i :: d) n = before d n + if i < n then 1 else 0 := by
  unfold before
  by_cases h : i < n <;> simp [h]

/-- A drop that comes after every ticket of the line changes nothing for it. -/
theorem timed_cons_drop {i : Nat} (h : ∀ x ∈ xs, x.id ≤ i) : Timed (i :: d) base xs ↔ Timed d base xs := by
  induction xs generalizing base with
  | nil => exact Iff.rfl
  | cons x xs ih =>
    have hx : ¬i < x.id := Nat.not_lt.2 (h x List.mem_cons_self)
    simp only [Timed, before_cons, if_neg hx, Nat.add_zero]
    rw [ih fun y hy => h y (List.mem_cons_of_mem x hy)]

/-- Once timed, a line stays so after a drop exactly where no ticket of it was issued later. -/
theorem timed_cons_drop_iff {i : Nat} (h : Timed d base xs) :
    Timed (i :: d) base xs ↔ ∀ x ∈ xs, x.id ≤ i := by
  refine ⟨fun h' => ?_, fun hx => (timed_cons_drop hx).2 h⟩
  induction xs generalizing base with
  | nil => simp
  | cons x xs ih =>
    have h1 := h'.1
    rw [before_cons, ← h.1] at h1
    refine List.forall_mem_cons.2 ⟨?_, ih h.2 h'.2⟩
    by_contra hlt
    rw [if_pos (by omega)] at h1
    omega

/-- With its base lowered and a drop added, a line that was timed is so only where nothing changed. -/
theorem timed_lower_iff {i g : Nat} (h : Timed d (base + g) xs) :
    Timed (i :: d) base xs ↔ xs = [] ∨ g = 0 ∧ ∀ x ∈ xs, x.id ≤ i := by
  cases xs with
  | nil => simp [Timed]
  | cons x xs =>
    constructor
    · intro h'
      have h1 := h'.1
      rw [before_cons, ← h.1] at h1
      have hg : g = 0 := by split at h1 <;> omega
      subst hg
      exact .inr ⟨rfl, (timed_cons_drop_iff h).1 h'⟩
    · rintro (h' | ⟨rfl, hx⟩)
      · cases h'
      · exact (timed_cons_drop_iff h).2 hx

theorem timed_base_iff {g : Nat} (h : Timed d (base + g) xs) : Timed d base xs ↔ xs = [] ∨ g = 0 := by
  cases xs with
  | nil => simp [Timed]
  | cons x xs =>
    constructor
    · intro h'
      have h1 := h'.1
      rw [← h.1] at h1
      exact .inr (by omega)
    · rintro (h' | rfl)
      · cases h'
      · exact h

theorem before_eq_length (h : ∀ i ∈ d, i < n) : before d n = d.length := by
  unfold before
  rw [List.filter_eq_self.2 (by simpa using h)]

theorem OnTime.push (h : b.OnTime) (hs : b.Sound) (hb : b.Balanced) (hf : b.fresh = some n) (ht : b.taken = none) :
    (b.push n).OnTime where
  line := by
    refine timed_append.2 ⟨h.line, ?_, trivial⟩
    have hp : b.pending = 0 := hs.quiet (by simp [hf])
    simp only [Balanced, gaps, ht, hp, Option.map_none, Option.getD_none] at hb
    have hn : before b.dropped n = b.dropped.length := before_eq_length fun i hi => hs.dropped_lt_fresh hf hi
    simp only [Ledger.push]
    rw [hn]
    omega
  taken := by simp [Ledger.push, ht]

/-- **Dropping a ticket out of the line keeps it on time** exactly where no ticket ahead of it or behind it was issued
later, and no ticket behind it misses its gap. -/
theorem onTime_evict (h : b.OnTime) (hl : b.line = H ++ o :: R) (ht : b.taken = none) :
    (b.evict k o H R).OnTime ↔ (∀ x ∈ H ++ R, x.id ≤ o.id) ∧ (R = [] ∨ o.gap = 0) := by
  have hline := h.line
  rw [hl] at hline
  obtain ⟨hH, -, hR⟩ := timed_append.1 hline
  have hiff : (b.evict k o H R).OnTime ↔ Timed (o.id :: b.dropped) 0 (H ++ R) :=
    ⟨fun h' => h'.line, fun h' => ⟨h', by simp [Ledger.evict, ht]⟩⟩
  rw [hiff, timed_append, timed_cons_drop_iff hH, timed_lower_iff hR, List.forall_mem_append]
  constructor
  · rintro ⟨h1, rfl | ⟨h2, h3⟩⟩
    · exact ⟨⟨h1, by simp⟩, .inl rfl⟩
    · exact ⟨⟨h1, h3⟩, .inr h2⟩
  · rintro ⟨⟨h1, h3⟩, h2 | h2⟩
    · exact ⟨h1, .inl h2⟩
    · exact ⟨h1, .inr ⟨h2, h3⟩⟩

/-- **Taking a ticket out for the end keeps the line on time** exactly where it stood at the end, or neither it nor a
ticket behind it has a gap. -/
theorem onTime_takeOut (h : b.OnTime) (hl : b.line = H ++ o :: R) :
    (b.takeOut o H R).OnTime ↔ R = [] ∨ o.gap = 0 ∧ ∀ x ∈ R, x.gap = 0 := by
  have hline := h.line
  rw [hl] at hline
  obtain ⟨hH, ho, hR⟩ := timed_append.1 hline
  have hiff : (b.takeOut o H R).OnTime ↔
      Timed b.dropped 0 (H ++ R) ∧ ((H ++ R).map (·.gap)).sum + o.gap = before b.dropped o.id :=
    ⟨fun h' => ⟨h'.line, h'.taken o rfl⟩, fun h' => ⟨h'.1, fun t ht => Option.some.inj ht ▸ h'.2⟩⟩
  rw [hiff, timed_append, timed_base_iff hR, ← ho, List.map_append, List.sum_append]
  constructor
  · rintro ⟨⟨-, hg | hg⟩, hs⟩
    · exact .inl hg
    · refine .inr ⟨hg, ?_⟩
      have h0 : (R.map (·.gap)).sum = 0 := by omega
      intro x hx
      exact List.sum_eq_zero_iff_forall_eq_nat.1 h0 x.gap (List.mem_map_of_mem hx)
  · rintro (rfl | ⟨hg, h0⟩)
    · exact ⟨⟨hH, .inl rfl⟩, by simp⟩
    · have hsum : (R.map (·.gap)).sum = 0 :=
        List.sum_eq_zero_iff_forall_eq_nat.2 fun g hg' => by obtain ⟨x, hx, rfl⟩ := List.mem_map.1 hg'; exact h0 x hx
      exact ⟨⟨hH, .inr hg⟩, by omega⟩

theorem OnTime.putBack (h : b.OnTime) (hs : b.Sound) (hf : b.fresh = some n) (ht : b.taken = some o) :
    (b.putBack n o).OnTime where
  line := by
    have hle : ∀ x ∈ b.line ++ [o], x.id ≤ n := List.forall_mem_append.2
      ⟨fun x hx => Nat.le_of_lt (hs.line_lt_fresh hf hx), by simpa using Nat.le_of_lt (hs.taken_lt_fresh hf ht)⟩
    refine (timed_cons_drop hle).2 (timed_append.2 ⟨h.line, ?_, trivial⟩)
    rw [Nat.zero_add]
    exact h.taken o ht
  taken := by simp [Ledger.putBack]

theorem OnTime.giveUp (h : b.OnTime) (hs : b.Sound) (hf : b.fresh = some n) (ht : b.taken = none) :
    (b.giveUp n).OnTime where
  line := (timed_cons_drop fun x hx => Nat.le_of_lt (hs.line_lt_fresh hf hx)).2 h.line
  taken := by simp [Ledger.giveUp, ht]

end time

/-! ## Entries -/

/-- The entries that keep the books as they are: all but dropping or taking out a ticket of the line, and settling. -/
inductive Entry : Ledger → Prop
  | stay : Entry b
  | issue (hf : b.fresh = none) (ht : b.taken = none) : Entry b.issue
  | push (n : Nat) (hf : b.fresh = some n) (ht : b.taken = none) : Entry (b.push n)
  | putBack (n : Nat) (o : Ticket) (hf : b.fresh = some n) (ht : b.taken = some o) : Entry (b.putBack n o)
  | giveUp (n : Nat) (hf : b.fresh = some n) (ht : b.taken = none) : Entry (b.giveUp n)

section entry
variable {b} {b' : Ledger}

theorem Entry.sound (e : b.Entry b') (h : b.Sound) : b'.Sound := by
  cases e with
  | stay => exact h
  | issue hf ht => exact h.issue hf
  | push n hf ht => exact h.push hf ht
  | putBack n o hf ht => exact h.putBack hf ht
  | giveUp n hf ht => exact h.giveUp hf

theorem Entry.balanced (e : b.Entry b') (h : b.Balanced) : b'.Balanced := by
  cases e with
  | stay => exact h
  | issue hf ht => exact h.issue
  | push n hf ht => exact h.push ht
  | putBack n o hf ht => exact h.putBack ht
  | giveUp n hf ht => exact h.giveUp

theorem Entry.inOrder (e : b.Entry b') (hs : b.Sound) (h : b.InOrder) : b'.InOrder := by
  cases e with
  | stay => exact h
  | issue hf ht => exact ⟨h.line, h.taken⟩
  | push n hf ht => exact h.push hs hf ht
  | putBack n o hf ht => exact h.putBack ht
  | giveUp n hf ht => exact ⟨h.line, h.taken⟩

theorem Entry.onTime (e : b.Entry b') (hs : b.Sound) (hb : b.Balanced) (h : b.OnTime) : b'.OnTime := by
  cases e with
  | stay => exact h
  | issue hf ht => exact ⟨h.line, h.taken⟩
  | push n hf ht => exact h.push hs hb hf ht
  | putBack n o hf ht => exact h.putBack hs hf ht
  | giveUp n hf ht => exact h.giveUp hs hf ht

end entry

end Ledger
end Async
end CloudGaming
