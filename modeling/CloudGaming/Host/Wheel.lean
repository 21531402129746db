import CloudGaming.Host.InputSchema
import CloudGaming.Host.Keyboard
import CloudGaming.Async.Along
import Mathlib.Tactic.Linarith
/-!
# Wheel — what the mouse handler makes of the wheel's deltas

A wheel event adds its delta to what the handler has accumulated; whole multiples of the scale are injected, the rest is
kept.  Vertical events read `deltaY`, horizontal ones `deltaX`.
-/
namespace CloudGaming
namespace Host
namespace WheelInput

open Async

/-- One axis: `gWheelAccumX` or `gWheelAccumY`.  The rest is history: the steps injected, each as a `WHEEL_DELTA`, and the sum of the deltas that
were accepted. -/
structure Track where
  accum : Int := 0
  injected : Int := 0
  accepted : ℚ := 0
  deriving DecidableEq

structure Wheel where
  x : Track := {}
  y : Track := {}
  deriving DecidableEq

/-- A message, and the attempt to inject what it makes up. -/
structure Move where
  payload : Payload
  shot : Shot

/-- `j[key].get<int>()`, 0 where there is none. -/
def readDelta (j : Json) (key : String) : Option Int :=
  match j.field? key with
  | none => some 0
  | some v => v.int32?

/-- The number that a value is. -/
def number : Json → ℚ
  | .int n => n
  | .float q => q
  | _ => 0

/-- The delta that a message has for an axis. -/
def delta (j : Json) (key : String) : ℚ := ((j.field? key).map number).getD 0

namespace Track

section

variable (wheelScale : Int) (t : Track)

/-- `simulateWindowsMouseEvent`, at a wheel event of the axis; a sum that is no `int` has no meaning. -/
def simulate (delta : Int) (lands : Bool) : Option Track :=
  let accum := t.accum + delta
  if accum < -2 ^ 31 ∨ 2 ^ 31 ≤ accum then none
  else
    let steps := accum.tdiv wheelScale
    let t := { t with accum := accum.tmod wheelScale }
    if steps = 0 then some t
    else if lands then some { t with injected := t.injected + steps }
    else some t

def accept (delta : ℚ) : Track := { t with accepted := t.accepted + delta }

/-- The steps that were injected and what is left make up the deltas. -/
def Conserved : Prop := ((t.injected * wheelScale + t.accum : Int) : ℚ) = t.accepted

instance : Decidable (t.Conserved wheelScale) := inferInstanceAs (Decidable (_ = _))

/-- The delta is a whole number, and a full step can be injected. -/
def Whole (delta : ℚ) (lands : Bool) : Prop :=
  (∃ n : Int, delta = n) ∧ ((wheelScale : ℚ) ≤ |(t.accum : ℚ) + delta| → lands = true)

end

end Track

section

variable (wheelScale : Int)

/-- The events of a message that was accepted. -/
def Wheel.handle (s : Wheel) (lands : Bool) (e : InputSchema.Event) : Option Wheel :=
  match readDelta e.value "deltaX", readDelta e.value "deltaY" with
  | some deltaX, some deltaY =>
    if e.eventType = "wheel" then
      (s.y.simulate wheelScale deltaY lands).map fun y =>
        ⟨s.x.accept (delta e.value "deltaX"), y.accept (delta e.value "deltaY")⟩
    else if e.eventType = "hwheel" then
      (s.x.simulate wheelScale deltaX lands).map fun x =>
        ⟨x.accept (delta e.value "deltaX"), s.y.accept (delta e.value "deltaY")⟩
    else some s
  | _, _ => some s

/-- A message: only those that are accepted reach the handler. -/
def step (s : Wheel) (m : Move) : Option Wheel :=
  match InputSchema.accepted m.payload with
  | none => some s
  | some e => s.handle wheelScale m.shot.lands e

/-- Every axis is conserved. -/
def Conserved (s : Wheel) : Prop := s.x.Conserved wheelScale ∧ s.y.Conserved wheelScale

instance (s : Wheel) : Decidable (Conserved wheelScale s) := inferInstanceAs (Decidable (_ ∧ _))

/-- An event of one axis: its own delta is whole, a full step of it can be injected, and it has no delta for the
other. -/
def Lossless (s : Wheel) (m : Move) : Prop :=
  ∀ e, InputSchema.accepted m.payload = some e →
    (e.eventType = "wheel" → s.y.Whole wheelScale (delta e.value "deltaY") m.shot.lands ∧ delta e.value "deltaX" = 0) ∧
    (e.eventType = "hwheel" → s.x.Whole wheelScale (delta e.value "deltaX") m.shot.lands ∧ delta e.value "deltaY" = 0)

end

/-! ## What the schema lets through -/

section

variable {j : Json} {key : String}

theorem wrap_of_abs_le {n : Int} (h : |n| ≤ 10000) : wrap 32 (wrap 64 n) = n := by
  have := abs_le.1 h
  unfold wrap
  norm_num
  omega

theorem abs_truncate_le {q : ℚ} (h : |q| ≤ 10000) : |truncate q| ≤ 10000 := by
  obtain ⟨hlow, hhigh⟩ := abs_le.1 h
  rw [abs_le]
  unfold truncate
  split
  · rename_i hq
    have h0 : (0 : Int) ≤ q.floor := Rat.le_floor_iff.2 hq
    have hle : (q.floor : ℚ) ≤ 10000 := (Rat.floor_le q).trans hhigh
    have : q.floor ≤ 10000 := by exact_mod_cast hle
    omega
  · rename_i hq
    have h0 : q.ceil ≤ 0 := Rat.ceil_le_iff.2 (le_of_not_ge hq)
    have hle : (-10000 : ℚ) ≤ q.ceil := hlow.trans Rat.le_ceil
    have : -10000 ≤ q.ceil := by exact_mod_cast hle
    omega

/-- **A delta that the schema lets through is read without its fraction.** -/
theorem readDelta_of_wheelDelta (h : ∀ v, j.field? key = some v → InputSchema.wheelDelta v = true) :
    readDelta j key = some (truncate (delta j key)) := by
  unfold readDelta delta
  cases hf : j.field? key with
  | none => simp [show truncate 0 = 0 from truncate_intCast 0]
  | some v =>
    have hv := h v hf
    cases v with
    | int n =>
      have hn : |n| ≤ 10000 := by
        have : |(n : ℚ)| ≤ 10000 := of_decide_eq_true hv
        exact_mod_cast this
      simp [Json.int32?, Json.int64?, number, wrap_of_abs_le hn]
    | float q =>
      have hq := abs_truncate_le (of_decide_eq_true hv)
      exact congrArg some (wrap_of_abs_le hq)
    | null | bool | str | arr | obj => cases hv

end

/-! ## What an event keeps -/

section

variable {wheelScale : Int} {t t' : Track} {q : ℚ} {lands : Bool}

theorem tdiv_eq_zero_iff (hscale : 0 < wheelScale) (a : Int) : a.tdiv wheelScale = 0 ↔ |a| < wheelScale := by
  rw [← Int.natAbs_eq_zero, Int.natAbs_tdiv, Int.abs_eq_natAbs]
  have hdiv : a.natAbs.div wheelScale.natAbs = 0 ↔ a.natAbs < wheelScale.natAbs := Nat.div_eq_zero_iff_lt (by omega)
  rw [hdiv]
  omega

/-- **What an event adds is what it injects and what is left of it, but for a step that cannot be injected.** -/
theorem simulate_eq {n : Int} (h : t.simulate wheelScale n lands = some t') :
    t'.accepted = t.accepted ∧
      t'.injected * wheelScale + t'.accum = t.injected * wheelScale + t.accum + n -
        if lands then 0 else (t.accum + n).tdiv wheelScale * wheelScale := by
  have hsplit := Int.tmod_add_tdiv_mul (t.accum + n) wheelScale
  unfold Track.simulate at h
  dsimp only at h
  split at h
  · cases h
  split at h
  · rename_i hzero
    obtain rfl := Option.some.inj h
    rw [hzero] at hsplit ⊢
    refine ⟨rfl, ?_⟩
    dsimp only
    split <;> omega
  · split at h
    · rename_i hlands
      obtain rfl := Option.some.inj h
      refine ⟨rfl, ?_⟩
      dsimp only
      rw [if_pos hlands, Int.add_mul]
      omega
    · rename_i hlands
      obtain rfl := Option.some.inj h
      refine ⟨rfl, ?_⟩
      dsimp only
      rw [if_neg hlands]
      omega

/-- **The axis of an event stays conserved exactly if its delta is whole and a full step can be injected.** -/
theorem conserved_simulate_iff (hscale : 0 < wheelScale) (hc : t.Conserved wheelScale)
    (h : t.simulate wheelScale (truncate q) lands = some t') :
    (t'.accept q).Conserved wheelScale ↔ t.Whole wheelScale q lands := by
  obtain ⟨haccepted, hsum⟩ := simulate_eq h
  unfold Track.Conserved at hc ⊢
  unfold Track.accept
  dsimp only
  rw [haccepted, hsum, ← hc]
  have hfull : ∀ n : Int, q = n → ((wheelScale : ℚ) ≤ |(t.accum : ℚ) + q| ↔
      (t.accum + n).tdiv wheelScale ≠ 0) := by
    rintro n rfl
    rw [ne_eq, tdiv_eq_zero_iff hscale, not_lt]
    exact_mod_cast Iff.rfl
  generalize hlost : (if lands then 0 else (t.accum + truncate q).tdiv wheelScale * wheelScale) = lost
  constructor
  · intro heq
    push_cast at heq
    have hq : q = ((truncate q - lost : Int) : ℚ) := by
      push_cast
      linarith
    have hwhole : ∃ n : Int, q = n := ⟨_, hq⟩
    refine ⟨hwhole, fun hge => ?_⟩
    obtain ⟨n, rfl⟩ := hwhole
    rw [truncate_intCast] at hq hlost
    have hzero : lost = 0 := by
      have : n = n - lost := by exact_mod_cast hq
      omega
    by_contra hlands
    rw [if_neg hlands, hzero, Int.mul_eq_zero] at hlost
    rcases hlost with hdiv | hs
    · exact (hfull n rfl).1 hge hdiv
    · omega
  · rintro ⟨⟨n, rfl⟩, hlands⟩
    have hzero : lost = 0 := by
      rw [← hlost, truncate_intCast]
      split
      · rfl
      · rename_i hnot
        have hdiv : (t.accum + n).tdiv wheelScale = 0 := by
          by_contra hne
          exact hnot (hlands ((hfull n rfl).2 hne))
        rw [hdiv, Int.zero_mul]
    rw [hzero, truncate_intCast]
    push_cast
    rw [sub_zero]

/-- The other axis of an event stays conserved exactly if the event has no delta for it. -/
theorem conserved_accept_iff (hc : t.Conserved wheelScale) : (t.accept q).Conserved wheelScale ↔ q = 0 := by
  unfold Track.Conserved at hc ⊢
  unfold Track.accept
  dsimp only
  rw [hc]
  constructor
  · intro h
    linarith
  · rintro rfl
    rw [add_zero]

end

section

variable {wheelScale : Int} {s s' : Wheel} {m : Move}

/-- **A message keeps both axes conserved exactly if nothing of it is lost.** -/
theorem conserved_step_iff (hscale : 0 < wheelScale) (hc : Conserved wheelScale s)
    (hs : step wheelScale s m = some s') : Conserved wheelScale s' ↔ Lossless wheelScale s m := by
  unfold step at hs
  unfold Lossless
  cases he : InputSchema.accepted m.payload with
  | none =>
    rw [he] at hs
    obtain rfl := Option.some.inj hs
    exact iff_of_true hc (by simp)
  | some e =>
    rw [he] at hs
    simp only [Option.some.injEq, forall_eq']
    by_cases hwheel : e.eventType = "wheel" ∨ e.eventType = "hwheel"
    · have hx := readDelta_of_wheelDelta fun v hv => InputSchema.wheelDelta_of_accepted he hwheel (.inl rfl) hv
      have hy := readDelta_of_wheelDelta fun v hv => InputSchema.wheelDelta_of_accepted he hwheel (.inr rfl) hv
      simp only [Wheel.handle, hx, hy] at hs
      rcases hwheel with ht | ht
      · rw [if_pos ht] at hs
        obtain ⟨y, hy', rfl⟩ := Option.map_eq_some_iff.1 hs
        simp only [ht, String.reduceEq, forall_const, false_implies, and_true]
        exact (and_congr (conserved_accept_iff hc.1) (conserved_simulate_iff hscale hc.2 hy')).trans and_comm
      · rw [if_neg (by rw [ht]; decide), if_pos ht] at hs
        obtain ⟨x, hx', rfl⟩ := Option.map_eq_some_iff.1 hs
        simp only [ht, String.reduceEq, forall_const, false_implies, true_and]
        exact and_congr (conserved_simulate_iff hscale hc.1 hx') (conserved_accept_iff hc.2)
    · have hsame : s' = s := by
        simp only [not_or] at hwheel
        simp only [Wheel.handle, hwheel.1, hwheel.2, if_false] at hs
        split at hs
        · exact (Option.some.inj hs).symm
        · exact (Option.some.inj hs).symm
      subst hsame
      simp only [not_or] at hwheel
      exact iff_of_true hc ⟨fun h => absurd h hwheel.1, fun h => absurd h hwheel.2⟩

end

/-- **The wheel is conserved over a run exactly if no event of it has a fraction, a delta for the other axis, or a full
step that cannot be injected.** -/
theorem wheel_conserved_iff (wheelScale : Int) (hscale : 0 < wheelScale) (moves : List Move) :
    Throughout (step wheelScale) (Conserved wheelScale) {} moves ↔
      Along (step wheelScale) (Lossless wheelScale) {} moves :=
  throughout_iff_along (I := fun _ => True) (d := fun _ _ => True) (fun _ _ _ _ _ _ => trivial)
    (fun _ _ _ _ _ hc hs => conserved_step_iff hscale hc hs) trivial ⟨by simp [Track.Conserved], by simp [Track.Conserved]⟩
    along_true

/-- The game is in the foreground, and `SendInput` takes the event. -/
def foreground : Shot := ⟨⟨some 1, some 1, fun _ => true, fun _ => true, fun _ => false, fun _ => true⟩, true⟩

/-- A touch pad scrolls by fractions. -/
def scroll (deltaY : ℚ) : Move :=
  ⟨⟨41, some (.obj [("deltaY", .float deltaY), ("type", .str "wheel"), ("x", .int 0), ("y", .int 0)])⟩, foreground⟩

theorem wheel_conserved_iff_scroll :
    Throughout (step 120) (Conserved 120) {} [scroll (1 / 2), scroll 240] ↔
      Along (step 120) (Lossless 120) {} [scroll (1 / 2), scroll 240] :=
  wheel_conserved_iff 120 (by decide) [scroll (1 / 2), scroll 240]

theorem wheel_not_conserved :
    ¬ ∀ wheelScale : Int, 0 < wheelScale → ∀ moves, Throughout (step wheelScale) (Conserved wheelScale) {} moves := by
  intro h
  have hs : after (step 120) {} [scroll (1 / 2)] = some ⟨{}, ⟨0, 0, 1 / 2⟩⟩ := by decide +kernel
  exact absurd ((h 120 (by decide) [scroll (1 / 2)]).after hs) (by decide +kernel)

end WheelInput
end Host
end CloudGaming
