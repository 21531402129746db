import Mathlib.Data.List.Basic
/-!
# Exclusive — what is written under a mutex is not mixed

Writers that each write a piece while they hold the mutex, in parts of any size.  At any time the output is the pieces,
whole, in the order in which the mutex was taken, up to a rest of the last.
-/
namespace CloudGaming
namespace Async

/-- An output behind a mutex.  `pieces` are what was begun, with the writer, oldest first: history. -/
structure Exclusive (W α : Type*) where
  holder : Option W := none
  rest : List α := []
  out : List α := []
  pieces : List (W × List α) := []

namespace Exclusive

variable {W α : Type*} (x : Exclusive W α)

/-- A writer takes the mutex, where it is free, and has a piece to write. -/
def take (w : W) (piece : List α) : Option (Exclusive W α) :=
  match x.holder with
  | none => some { x with holder := some w, rest := piece, pieces := x.pieces ++ [(w, piece)] }
  | some _ => none

/-- The holder writes a part. -/
def write (n : Nat) : Option (Exclusive W α) :=
  match x.holder with
  | none => none
  | some _ => some { x with rest := x.rest.drop n, out := x.out ++ x.rest.take n }

/-- The holder has written its piece, and releases the mutex. -/
def release : Option (Exclusive W α) :=
  match x.holder, x.rest with
  | some _, [] => some { x with holder := none }
  | _, _ => none

/-- The pieces that are written whole. -/
def done : List (W × List α) :=
  match x.holder with
  | none => x.pieces
  | some _ => x.pieces.dropLast

/-- The output is the pieces that are written whole, and of the holder's the part before the rest. -/
structure Whole : Prop where
  free : x.holder = none → x.out = x.pieces.flatMap Prod.snd
  held : ∀ w, x.holder = some w →
    ∃ ps part, x.pieces = ps ++ [(w, part ++ x.rest)] ∧ x.out = ps.flatMap Prod.snd ++ part

section
variable {x} {y : Exclusive W α}

theorem Whole.take (h : x.Whole) {w : W} {piece : List α} (ht : x.take w piece = some y) :
    y.Whole ∧ y.holder = some w ∧ y.done = x.done ∧ y.pieces = y.done ++ [(w, piece)] := by
  unfold Exclusive.take at ht
  split at ht
  · rename_i hfree
    obtain rfl := Option.some.inj ht
    refine ⟨⟨(fun hn => by cases hn), fun w' hw => ?_⟩, rfl, ?_, ?_⟩
    · obtain rfl := Option.some.inj hw
      exact ⟨x.pieces, [], rfl, by rw [List.append_nil]; exact h.free hfree⟩
    · unfold done
      rw [hfree]
      exact List.dropLast_concat
    · exact congrArg (· ++ [(w, piece)]) List.dropLast_concat.symm
  · cases ht

theorem Whole.write (h : x.Whole) {n : Nat} (hw : x.write n = some y) :
    y.Whole ∧ y.holder = x.holder ∧ y.done = x.done ∧ y.pieces = x.pieces := by
  unfold Exclusive.write at hw
  split at hw
  · cases hw
  · rename_i w hholder
    obtain rfl := Option.some.inj hw
    refine ⟨⟨fun hn => absurd (hholder.symm.trans hn) (by simp), fun w' hw' => ?_⟩, rfl, rfl, rfl⟩
    obtain ⟨ps, part, hpieces, hout⟩ := h.held w' hw'
    refine ⟨ps, part ++ x.rest.take n, ?_, ?_⟩
    · rw [List.append_assoc, List.take_append_drop]
      exact hpieces
    · rw [← List.append_assoc, ← hout]

theorem Whole.release (h : x.Whole) (hr : x.release = some y) :
    y.Whole ∧ y.holder = none ∧ y.done = x.pieces ∧ y.pieces = x.pieces := by
  unfold Exclusive.release at hr
  split at hr
  · rename_i w hholder hrest
    obtain rfl := Option.some.inj hr
    obtain ⟨ps, part, hpieces, hout⟩ := h.held w hholder
    refine ⟨⟨fun _ => ?_, (fun _ hn => by cases hn)⟩, rfl, rfl, rfl⟩
    rw [hrest, List.append_nil] at hpieces
    rw [hpieces, hout]
    simp
  · cases hr

/-- The holder's piece is the last. -/
theorem Whole.pieces_eq (h : x.Whole) {w : W} (hw : x.holder = some w) :
    ∃ piece, x.pieces = x.done ++ [(w, piece)] := by
  obtain ⟨ps, part, hpieces, -⟩ := h.held w hw
  refine ⟨part ++ x.rest, ?_⟩
  unfold done
  rw [hw, hpieces, List.dropLast_concat]

end

/-- The holder can always write what is left, and release the mutex. -/
theorem write_release {w : W} (hw : x.holder = some w) :
    ∃ y z, x.write x.rest.length = some y ∧ y.release = some z ∧ z.holder = none := by
  have hy : x.write x.rest.length = some { x with rest := [], out := x.out ++ x.rest } := by
    unfold Exclusive.write
    rw [hw, List.drop_length, List.take_length]
  refine ⟨_, { x with holder := none, rest := [], out := x.out ++ x.rest }, hy, ?_, rfl⟩
  unfold Exclusive.release
  rw [hw]

end Exclusive
end Async
end CloudGaming
