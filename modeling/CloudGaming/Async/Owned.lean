import Mathlib.Data.List.Nodup
import Mathlib.Data.List.Perm.Basic
/-!
# Owned — objects that are numbered as they are made, and held once at most

The places of a machine are lists of items, and an item holds one object or none.  Where the items that hold an object
are counted over all places, moving it from one place to another leaves the count, and making the next object adds one
that nothing held before.
-/
namespace CloudGaming
namespace Async

/-- What an item counts for `x` that holds this object, or none. -/
def holds (o : Option Nat) (x : Nat) : Nat := if o = some x then 1 else 0

/-- The number of items of the list that hold `x`. -/
def held {α : Type*} (f : α → Option Nat) (l : List α) (x : Nat) : Nat := l.countP (f · = some x)

section
variable {α : Type*} {f : α → Option Nat} {l : List α} {a b : α} {i x : Nat}

@[simp] theorem holds_none : holds none x = 0 := rfl

@[simp] theorem holds_self : holds (some x) x = 1 := if_pos rfl

theorem holds_ne {y : Nat} (h : y ≠ x) : holds (some y) x = 0 := if_neg fun he => h (Option.some.inj he)

@[simp] theorem held_nil : held f [] x = 0 := rfl

theorem held_cons : held f (a :: l) x = held f l x + holds (f a) x := by
  simp [held, holds, List.countP_cons]

theorem held_append (l' : List α) : held f (l ++ l') x = held f l x + held f l' x := List.countP_append

theorem held_perm {l' : List α} (h : l.Perm l') : held f l x = held f l' x := h.countP_eq _

theorem held_pos (ha : a ∈ l) (hf : f a = some x) : 0 < held f l x := List.countP_pos_iff.2 ⟨a, ha, by simpa using hf⟩

/-- The list is its item at a place and the rest. -/
theorem perm_cons_eraseIdx (h : l[i]? = some a) : l.Perm (a :: l.eraseIdx i) := by
  obtain ⟨hi, rfl⟩ := List.getElem?_eq_some_iff.1 h
  exact (List.getElem_cons_eraseIdx_perm hi).symm

/-- And setting that place replaces the item only. -/
theorem set_perm_cons (h : l[i]? = some a) : (l.set i b).Perm (b :: l.eraseIdx i) :=
  List.set_perm_cons_eraseIdx (List.getElem?_eq_some_iff.1 h).1 b

theorem held_eraseIdx (h : l[i]? = some a) :
    held f l x = held f (l.eraseIdx i) x + holds (f a) x := by
  rw [held_perm (perm_cons_eraseIdx h), held_cons]

theorem held_set (h : l[i]? = some a) :
    held f (l.set i b) x = held f (l.eraseIdx i) x + holds (f b) x := by
  rw [held_perm (set_perm_cons h), held_cons]

theorem held_eraseIdx_le : held f (l.eraseIdx i) x ≤ held f l x := (List.eraseIdx_sublist l i).countP_le

/-- The first item with a property is taken out. -/
theorem held_eraseP {p : α → Bool} (ha : a ∈ l) (hp : p a = true) :
    ∃ o ∈ l, p o = true ∧ ∀ x, held f l x = held f (l.eraseP p) x + holds (f o) x := by
  obtain ⟨o, l₁, l₂, -, ho, rfl, he⟩ := List.exists_of_eraseP ha hp
  refine ⟨o, by simp, ho, fun x => ?_⟩
  rw [he, held_perm List.perm_middle, held_cons]

/-- Items that hold an object each, and no two the same one, have their objects pairwise distinct. -/
theorem nodup_of_held {g : α → Nat} (h : ∀ x, held (fun a => some (g a)) l x ≤ 1) : (l.map g).Nodup := by
  rw [List.nodup_iff_count_le_one]
  intro x
  have hx : (l.map g).count x = held (fun a => some (g a)) l x := by
    rw [List.count_eq_countP, List.countP_map, held]
    exact List.countP_congr fun a _ => by simp
  rw [hx]
  exact h x

end

/-- Each object made so far has one owner at most, and the others have none. -/
def Owned (owners : Nat → Nat) (made : Nat) : Prop := ∀ x, owners x ≤ if x < made then 1 else 0

namespace Owned

variable {owners owners' : Nat → Nat} {made x : Nat}

theorem le_one (h : Owned owners made) : owners x ≤ 1 := by
  have hx := h x
  split at hx <;> omega

theorem lt (h : Owned owners made) (hx : 0 < owners x) : x < made := by
  have hm := h x
  split at hm
  · assumption
  · omega

theorem mono (h : Owned owners made) (hle : ∀ x, owners' x ≤ owners x) : Owned owners' made :=
  fun x => Nat.le_trans (hle x) (h x)

/-- **The next object is made, for one owner.** -/
theorem make (h : Owned owners made) (hle : ∀ x, owners' x ≤ owners x + holds (some made) x) :
    Owned owners' (made + 1) := by
  intro x
  have hx := h x
  have hx' := hle x
  by_cases hm : made = x
  · subst hm
    rw [holds_self] at hx'
    rw [if_neg (Nat.lt_irrefl made)] at hx
    rw [if_pos (Nat.lt_succ_self made)]
    omega
  · rw [holds_ne hm] at hx'
    split at hx
    · rw [if_pos (by omega)]
      omega
    · omega

end Owned

end Async
end CloudGaming
