import CloudGaming.Async.Along
/-!
# Monitor — threads that wait on a condition variable, and runs that end

A thread waits with `condition.wait(lock, ready)`: it looks with the mutex held, and where there is nothing to do it falls
asleep and gives up the mutex at once.  A notification wakes only a thread that sleeps; one that has looked and is not
asleep yet misses it, unless the one who notifies holds the mutex.
-/
namespace CloudGaming
namespace Async

/-- Where a thread stands in its wait. -/
inductive Waiter where
  | locking
  | looking
  -- has found nothing to do, and still holds the mutex
  | dozing
  | sleeping
  | awake
  deriving DecidableEq, Repr

namespace Waiter

def holds : Waiter → Bool
  | .locking | .sleeping => false
  | .looking | .dozing | .awake => true

/-- There was nothing to do when the thread looked. -/
def resting : Waiter → Bool
  | .dozing | .sleeping => true
  | .locking | .looking | .awake => false

/-- The thread goes on, when the mutex is free. -/
def next (ready : Bool) : Waiter → Option Waiter
  | .locking => some .looking
  | .looking => some (if ready then .awake else .dozing)
  | .dozing => some .sleeping
  | .sleeping | .awake => none

def notified : Waiter → Waiter
  | .sleeping => .locking
  | w => w

/-- How far the thread is from its rest. -/
def rank : Waiter → Nat
  | .locking => 6
  | .looking => 5
  | .awake => 4
  | .dozing => 3
  | .sleeping => 2

variable {w w' : Waiter} {ready : Bool}

/-- **Only a thread that is about to sleep misses a notification.** -/
theorem resting_notified : w.notified.resting = true ↔ w = .dozing := by
  cases w <;> simp [notified, resting]

theorem awake_notified : w.notified = .awake ↔ w = .awake := by
  cases w <;> simp [notified]

theorem rank_notified : w.notified.rank ≤ w.rank + 4 := by
  cases w <;> simp [notified, rank]

theorem rank_le : w.rank ≤ 6 := by
  cases w <;> simp [rank]

theorem rank_next (h : w.next ready = some w') : w'.rank < w.rank := by
  cases w <;> cases ready <;> simp only [next, Option.some.injEq, reduceCtorEq] at h <;> subst h <;> decide

theorem resting_next (h : w.next ready = some w') (hr : w'.resting = true) : w.resting = true ∨ ready = false := by
  cases w <;> cases ready <;> simp only [next, Option.some.injEq, reduceCtorEq] at h <;> subst h <;>
    simp_all [resting]

theorem awake_next (h : w.next ready = some w') (ha : w' = .awake) : ready = true := by
  cases w <;> cases ready <;> simp only [next, Option.some.injEq, reduceCtorEq] at h <;> subst h <;> simp_all

/-- A thread that cannot go on sleeps, or is through. -/
theorem next_eq_none : w.next ready = none ↔ w = .sleeping ∨ w = .awake := by
  cases w <;> simp [next]

end Waiter

/-! ## Runs that end -/

section
variable {S M : Type*} {step : S → M → Option S} (I : S → Prop) (ok : M → Prop) (rank : S → Nat)

/-- **A run all of whose moves lower the rank is no longer than it.** -/
theorem length_le_rank (hI : ∀ s m s', I s → ok m → step s m = some s' → I s' ∧ rank s' < rank s) :
    ∀ {ms : List M} {s s' : S}, I s → (∀ m ∈ ms, ok m) → after step s ms = some s' → ms.length + rank s' ≤ rank s
  | [], s, s', _, _, h => by
    obtain rfl := Option.some.inj h
    simp
  | m :: ms, s, s', hs, hok, h => by
    simp only [after] at h
    cases hm : step s m with
    | none => simp [hm] at h
    | some t =>
      obtain ⟨ht, hlt⟩ := hI s m t hs (hok m (by simp)) hm
      have hrest : ∀ n ∈ ms, ok n := fun n hn => hok n (by simp [hn])
      have := length_le_rank hI ht hrest (by simpa [hm] using h)
      rw [List.length_cons]
      omega

end

end Async
end CloudGaming
