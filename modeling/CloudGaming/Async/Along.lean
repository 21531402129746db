import Mathlib.Tactic.TypeStar
/-!
# Along — conditions on the moves of a run, and what they keep

A machine takes moves; a move it cannot take ends the run.  `Along c` says that every move of a run meets `c` in the
state it is taken in, `Throughout P` that `P` holds in every state of the run, the first one included.
-/
namespace CloudGaming
namespace Async

variable {S M : Type*} (step : S → M → Option S)

/-- Every move of the run meets the condition, in the state before it. -/
def Along (c : S → M → Prop) : S → List M → Prop
  | _, [] => True
  | s, m :: ms => ∀ s', step s m = some s' → c s m ∧ Along c s' ms

/-- Every move that is offered meets the condition, whether the machine can take it or not. -/
def Each (c : S → M → Prop) : S → List M → Prop
  | _, [] => True
  | s, m :: ms => c s m ∧ ∀ s', step s m = some s' → Each c s' ms

/-- The property holds in every state of the run. -/
def Throughout (P : S → Prop) : S → List M → Prop
  | s, [] => P s
  | s, m :: ms => P s ∧ ∀ s', step s m = some s' → Throughout P s' ms

instance decidableAlong (c : S → M → Prop) [∀ s m, Decidable (c s m)] : ∀ s ms, Decidable (Along step c s ms)
  | _, [] => .isTrue trivial
  | s, m :: ms =>
    match h : step s m with
    | none => .isTrue fun s' hs => by rw [h] at hs; cases hs
    | some t =>
      have := decidableAlong c t ms
      decidable_of_iff (c s m ∧ Along step c t ms)
        ⟨fun hc s' hs => by rw [h] at hs; exact Option.some.inj hs ▸ hc, fun ha => ha t h⟩

/-- The state after a run, where the machine takes all its moves. -/
def after : S → List M → Option S
  | s, [] => some s
  | s, m :: ms => (step s m).bind (after · ms)

section
variable {step} {c d : S → M → Prop} {P Q I : S → Prop} {s s' : S} {m : M} {ms : List M}

theorem Throughout.head (h : Throughout step P s ms) : P s := by
  cases ms with
  | nil => exact h
  | cons m ms => exact h.1

theorem Throughout.mono (hPQ : ∀ s, P s → Q s) (h : Throughout step P s ms) : Throughout step Q s ms := by
  induction ms generalizing s with
  | nil => exact hPQ s h
  | cons m ms ih => exact ⟨hPQ s h.1, fun s' hs => ih (h.2 s' hs)⟩

theorem Throughout.and (hP : Throughout step P s ms) (hQ : Throughout step Q s ms) :
    Throughout step (fun s => P s ∧ Q s) s ms := by
  induction ms generalizing s with
  | nil => exact ⟨hP, hQ⟩
  | cons m ms ih => exact ⟨⟨hP.1, hQ.1⟩, fun s' hs => ih (hP.2 s' hs) (hQ.2 s' hs)⟩

theorem Along.mono (hcd : ∀ s m, c s m → d s m) (h : Along step c s ms) : Along step d s ms := by
  induction ms generalizing s with
  | nil => trivial
  | cons m ms ih => exact fun s' hs => ⟨hcd s m (h s' hs).1, ih (h s' hs).2⟩

theorem along_and : Along step (fun s m => c s m ∧ d s m) s ms ↔ Along step c s ms ∧ Along step d s ms := by
  induction ms generalizing s with
  | nil => exact ⟨fun _ => ⟨trivial, trivial⟩, fun _ => trivial⟩
  | cons m ms ih =>
    constructor
    · intro h
      exact ⟨fun s' hs => ⟨(h s' hs).1.1, (ih.1 (h s' hs).2).1⟩, fun s' hs => ⟨(h s' hs).1.2, (ih.1 (h s' hs).2).2⟩⟩
    · rintro ⟨hc, hd⟩ s' hs
      exact ⟨⟨(hc s' hs).1, (hd s' hs).1⟩, ih.2 ⟨(hc s' hs).2, (hd s' hs).2⟩⟩

theorem along_true : Along step (fun _ _ => True) s ms := by
  induction ms generalizing s with
  | nil => trivial
  | cons m ms ih => exact fun s' _ => ⟨trivial, ih⟩

theorem along_of_forall {V : M → Prop} (h : ∀ m ∈ ms, V m) : Along step (fun _ m => V m) s ms := by
  induction ms generalizing s with
  | nil => trivial
  | cons m ms ih => exact fun s' _ => ⟨h m (by simp), ih fun n hn => h n (by simp [hn])⟩

/-- **An invariant that every move meeting the condition keeps holds throughout.** -/
theorem Throughout.of_along (hI : ∀ s m s', I s → c s m → step s m = some s' → I s') (h0 : I s)
    (h : Along step c s ms) : Throughout step I s ms := by
  induction ms generalizing s with
  | nil => exact h0
  | cons m ms ih => exact ⟨h0, fun s' hs => ih (hI s m s' h0 (h s' hs).1 hs) (h s' hs).2⟩

/-- What the invariant and the condition give of a single move. -/
theorem Along.of_along (hI : ∀ s m s', I s → c s m → step s m = some s' → I s')
    (hd : ∀ s m, I s → c s m → d s m) (h0 : I s) (h : Along step c s ms) : Along step d s ms := by
  induction ms generalizing s with
  | nil => trivial
  | cons m ms ih =>
    exact fun s' hs => ⟨hd s m h0 (h s' hs).1, ih (hI s m s' h0 (h s' hs).1 hs) (h s' hs).2⟩

/-- **Two conditions that agree under an invariant, which the second keeps, are met by the same runs.** -/
theorem along_iff_along (hI : ∀ s m s', I s → d s m → step s m = some s' → I s')
    (hcd : ∀ s m s', I s → step s m = some s' → (c s m ↔ d s m)) (h0 : I s) :
    Along step c s ms ↔ Along step d s ms := by
  induction ms generalizing s with
  | nil => exact ⟨fun _ => trivial, fun _ => trivial⟩
  | cons m ms ih =>
    constructor
    · intro h s' hs
      have hd : d s m := (hcd s m s' h0 hs).1 (h s' hs).1
      exact ⟨hd, (ih (hI s m s' h0 hd hs)).1 (h s' hs).2⟩
    · intro h s' hs
      exact ⟨(hcd s m s' h0 hs).2 (h s' hs).1, (ih (hI s m s' h0 (h s' hs).1 hs)).2 (h s' hs).2⟩

/-- The same for runs that take allowed moves only. -/
theorem along_iff_along_of {V : M → Prop} (hI : ∀ s m s', V m → I s → step s m = some s' → I s')
    (hcd : ∀ s m, V m → I s → (c s m ↔ d s m)) (h0 : I s) (hV : ∀ m ∈ ms, V m) :
    Along step c s ms ↔ Along step d s ms := by
  induction ms generalizing s with
  | nil => exact ⟨fun _ => trivial, fun _ => trivial⟩
  | cons m ms ih =>
    have hm : V m := hV m (by simp)
    have hrest : ∀ n ∈ ms, V n := fun n hn => hV n (by simp [hn])
    constructor
    · exact fun h s' hs => ⟨(hcd s m hm h0).1 (h s' hs).1, (ih (hI s m s' hm h0 hs) hrest).1 (h s' hs).2⟩
    · exact fun h s' hs => ⟨(hcd s m hm h0).2 (h s' hs).1, (ih (hI s m s' hm h0 hs) hrest).2 (h s' hs).2⟩

/-- The same for conditions on every move that is offered. -/
theorem each_iff_each (hI : ∀ s m s', I s → step s m = some s' → I s') (hcd : ∀ s m, I s → (c s m ↔ d s m))
    (h0 : I s) : Each step c s ms ↔ Each step d s ms := by
  induction ms generalizing s with
  | nil => exact Iff.rfl
  | cons m ms ih =>
    constructor
    · exact fun h => ⟨(hcd s m h0).1 h.1, fun s' hs => (ih (hI s m s' h0 hs)).1 (h.2 s' hs)⟩
    · exact fun h => ⟨(hcd s m h0).2 h.1, fun s' hs => (ih (hI s m s' h0 hs)).2 (h.2 s' hs)⟩

/-- **A property that exactly the moves meeting `c` keep holds throughout exactly where they all do**; `I` is an
invariant of the moves of the run. -/
theorem throughout_iff_along (hI : ∀ s m s', I s → d s m → step s m = some s' → I s')
    (hP : ∀ s m s', I s → d s m → P s → step s m = some s' → (P s' ↔ c s m)) (h0 : I s) (h : P s)
    (hd : Along step d s ms) : Throughout step P s ms ↔ Along step c s ms := by
  induction ms generalizing s with
  | nil => exact ⟨fun _ => trivial, fun _ => h⟩
  | cons m ms ih =>
    constructor
    · intro ht s' hs
      obtain ⟨hd0, hd'⟩ := hd s' hs
      have hc : c s m := (hP s m s' h0 hd0 h hs).1 (ht.2 s' hs).head
      exact ⟨hc, (ih (hI s m s' h0 hd0 hs) ((hP s m s' h0 hd0 h hs).2 hc) hd').1 (ht.2 s' hs)⟩
    · intro ha
      refine ⟨h, fun s' hs => ?_⟩
      obtain ⟨hc, ha'⟩ := ha s' hs
      obtain ⟨hd0, hd'⟩ := hd s' hs
      exact (ih (hI s m s' h0 hd0 hs) ((hP s m s' h0 hd0 h hs).2 hc) hd').2 ha'

/-- What a property that holds throughout carries along. -/
theorem Throughout.carry (hI : ∀ s m s', I s → P s → step s m = some s' → P s' → I s') (h0 : I s)
    (h : Throughout step P s ms) : Throughout step (fun s => P s ∧ I s) s ms := by
  induction ms generalizing s with
  | nil => exact ⟨h, h0⟩
  | cons m ms ih => exact ⟨⟨h.1, h0⟩, fun s' hs => ih (hI s m s' h0 h.1 hs (h.2 s' hs).head) (h.2 s' hs)⟩

theorem Throughout.after (h : Throughout step P s ms) (hs : after step s ms = some s') : P s' := by
  induction ms generalizing s with
  | nil =>
    simp only [Async.after, Option.some.injEq] at hs
    exact hs ▸ h
  | cons m ms ih =>
    simp only [Async.after] at hs
    cases hm : step s m with
    | none => simp [hm] at hs
    | some t => exact ih (h.2 t hm) (by simpa [hm] using hs)

theorem after_append {ns : List M} : after step s (ms ++ ns) = (after step s ms).bind (after step · ns) := by
  induction ms generalizing s with
  | nil => rfl
  | cons m ms ih =>
    simp only [List.cons_append, Async.after]
    cases step s m with
    | none => rfl
    | some t => exact ih

/-- What the condition says of the last move of a run. -/
theorem Along.last {t : S} (h : Along step c s (ms ++ [m])) (ha : Async.after step s ms = some s')
    (hs : step s' m = some t) : c s' m := by
  induction ms generalizing s with
  | nil =>
    obtain rfl := Option.some.inj ha
    exact (h t hs).1
  | cons n ms ih =>
    simp only [Async.after] at ha
    cases hn : step s n with
    | none => simp [hn] at ha
    | some u => exact ih (h u hn).2 (by simpa [hn] using ha)

end

end Async
end CloudGaming
