import CloudGaming.Host.Json
import CloudGaming.Host.Profiles
import Mathlib.Tactic.Linarith
/-!
# Bitrate — the controller of the video bitrate

The configuration, the limits, the ceiling of the profile and the controller have a setter each, and bounds of their own.
A report of the receiver lowers the bitrate at a loss, and raises it by a step after enough clean ones.  Both go through
`AdjustBitrate`, which clamps to the limits and the ceiling; the setters of the configuration and of the controller do
not.
-/
namespace CloudGaming
namespace Host
namespace Bitrate

open Async
open StreamProfileManager (clamp)

/-- What the encoder keeps for its bitrate, in bits per second.  The clock and the times that are read off it are in
nanoseconds. -/
structure State where
  startBitrateBps : Int := 8000000
  minBitrateBps : Int := 4000000
  maxBitrateBps : Int := 12000000
  minBitrateController : Int := 4000000
  maxBitrateController : Int := 12000000
  increaseStep : Int := 1000000
  decreaseCooldownMs : Int := 1000
  cleanSamplesRequired : Int := 3
  increaseIntervalMs : Int := 1000
  currentBitrate : Int := 8000000
  profileBitrateCeiling : Int := 2147483647
  bitrateGeneration : UInt64 := 0
  appliedBitrateGeneration : UInt64 := 0
  cleanSamples : Int := 0
  congestionCeiling : Int := 0
  lastChange : Nat := 0
  ceilingSetTime : Nat := 0
  minPliLossThreshold : ℚ := 3 / 100
  clock : Nat := 0
  deriving DecidableEq

/-- The calls that the encoder gets.  `elapsed` is the time since the report before. -/
inductive Move where
  | setBitrateConfig (startBps minBps maxBps : Int)
  | setBitrateLimits (minBps maxBps : Int)
  | setProfileBitrateCeiling (maxBps : Int)
  | configureBitrateController
      (minBps maxBps increaseStepBps decreaseCooldownMs cleanSamplesRequired increaseIntervalMs : Int)
  | configurePliPolicy (minLossThreshold : ℚ)
  | adjustBitrate (newBitrate : Int)
  | initializeEncoder (opens : Bool)
  | report (elapsed : Nat) (packetLoss rtt : ℚ)

/-- A setter takes positive values over and leaves the rest. -/
def ifPositive (value old : Int) : Int := if 0 < value then value else old

/-- The time of a round trip on the machine itself, in milliseconds. -/
def isLocalhost (rtt : ℚ) : Bool := rtt < 20

namespace State

section

variable (s : State)

/-- `effectiveMax` of `AdjustBitrate`. -/
def effectiveMax : Int := max s.minBitrateBps (min s.maxBitrateBps s.profileBitrateCeiling)

def adjustBitrate (newBitrate : Int) : State :=
  let clamped := clamp newBitrate s.minBitrateBps s.effectiveMax
  if s.currentBitrate = clamped then s
  else { s with currentBitrate := clamped, bitrateGeneration := s.bitrateGeneration + 1 }

def setBitrateConfig (startBps minBps maxBps : Int) : State :=
  let start := ifPositive startBps s.startBitrateBps
  { s with
    startBitrateBps := start
    minBitrateBps := ifPositive minBps s.minBitrateBps
    maxBitrateBps := ifPositive maxBps s.maxBitrateBps
    currentBitrate := start
    bitrateGeneration := s.bitrateGeneration + 1 }

/-- `std::clamp` has no meaning where the bounds are the wrong way round. -/
def setBitrateLimits (minBps maxBps : Int) : Option State :=
  let low := ifPositive minBps s.minBitrateBps
  let high := if low ≤ maxBps then maxBps else s.maxBitrateBps
  if high < low then none
  else some { s with
    minBitrateBps := low
    maxBitrateBps := high
    currentBitrate := clamp s.currentBitrate low high }

def setProfileBitrateCeiling (maxBps : Int) : State :=
  { s with profileBitrateCeiling := ifPositive maxBps 2147483647 }.adjustBitrate s.currentBitrate

def configureBitrateController
    (minBps maxBps increaseStepBps decreaseCooldownMs cleanSamplesRequired increaseIntervalMs : Int) : State :=
  { s with
    minBitrateController := ifPositive minBps s.minBitrateController
    maxBitrateController := ifPositive maxBps s.maxBitrateController
    increaseStep := ifPositive increaseStepBps s.increaseStep
    decreaseCooldownMs := ifPositive decreaseCooldownMs s.decreaseCooldownMs
    cleanSamplesRequired := ifPositive cleanSamplesRequired s.cleanSamplesRequired
    increaseIntervalMs := ifPositive increaseIntervalMs s.increaseIntervalMs }

def configurePliPolicy (minLossThreshold : ℚ) : State :=
  if 0 ≤ minLossThreshold then { s with minPliLossThreshold := minLossThreshold } else s

/-- What `InitializeEncoder` does to the bitrate once the codec is open. -/
def initializeEncoder (opens : Bool) : State :=
  if opens then { s with appliedBitrateGeneration := s.bitrateGeneration } else s

def tick (elapsed : Nat) : State := { s with clock := s.clock + elapsed }

/-! ## A report -/

/-- The milliseconds since the last change. -/
def since : Int := ((s.clock - s.lastChange) / 1000000 : Nat)

def effectiveLossThreshold (rtt : ℚ) : ℚ := if isLocalhost rtt then 1 / 4 else s.minPliLossThreshold

/-- The report is classified as a loss. -/
def Lossy (packetLoss rtt : ℚ) : Prop := s.effectiveLossThreshold rtt ≤ packetLoss

instance (packetLoss rtt : ℚ) : Decidable (s.Lossy packetLoss rtt) := inferInstanceAs (Decidable (_ ≤ _))

/-- `OnRtcpFeedback`, at a loss. -/
def decrease (packetLoss rtt : ℚ) : State :=
  if s.decreaseCooldownMs ≤ s.since then
    let factor : ℚ := if isLocalhost rtt then 9 / 10 else if 1 / 10 ≤ packetLoss then 6 / 10 else 8 / 10
    let target := truncate (s.currentBitrate * factor)
    let remembered :=
      { s with congestionCeiling := truncate (s.currentBitrate * (9 / 10)), ceilingSetTime := s.clock }
    { remembered.adjustBitrate (max s.minBitrateController target) with lastChange := s.clock, cleanSamples := 0 }
  else { s with cleanSamples := 0 }

/-- A clean sample, and the congestion ceiling half a minute after it was set. -/
def counted : State :=
  { s with
    cleanSamples := s.cleanSamples + 1
    congestionCeiling :=
      if 0 < s.congestionCeiling ∧ 30 < (s.clock - s.ceilingSetTime) / 1000000000 then 0 else s.congestionCeiling }

/-- Enough samples, a long enough time after the last change. -/
def Due (rtt : ℚ) : Prop :=
  (if isLocalhost rtt then 500 else s.increaseIntervalMs) ≤ s.since ∧
    (if isLocalhost rtt then 1 else s.cleanSamplesRequired) ≤ s.cleanSamples

instance (rtt : ℚ) : Decidable (s.Due rtt) := inferInstanceAs (Decidable (_ ∧ _))

def increase (rtt : ℚ) : Int := if isLocalhost rtt then s.increaseStep * 2 else s.increaseStep

/-- `effectiveMax` of `OnRtcpFeedback`. -/
def controllerMax : Int :=
  let effectiveMax := min s.maxBitrateController s.profileBitrateCeiling
  if 0 < s.congestionCeiling ∧ s.congestionCeiling < effectiveMax then s.congestionCeiling else effectiveMax

/-- `OnRtcpFeedback`, without a loss.  A sum that is no `int` has no meaning. -/
def clean (rtt : ℚ) : Option State :=
  if 2 ^ 31 ≤ s.cleanSamples + 1 then none
  else if s.counted.Due rtt then
    let target := s.currentBitrate + s.increase rtt
    if 2 ^ 31 ≤ s.increase rtt ∨ 2 ^ 31 ≤ target then none
    else if target ≤ s.counted.controllerMax then
      some { s.counted.adjustBitrate target with lastChange := s.clock, cleanSamples := 0 }
    else some { s.counted with cleanSamples := 0 }
  else some s.counted

def onRtcpFeedback (packetLoss rtt : ℚ) : Option State :=
  if s.Lossy packetLoss rtt then some (s.decrease packetLoss rtt) else s.clean rtt

/-- The bitrate is at least the configured minimum, and at most what `AdjustBitrate` clamps to. -/
def Bounded : Prop := s.minBitrateBps ≤ s.currentBitrate ∧ s.currentBitrate ≤ s.effectiveMax

instance : Decidable s.Bounded := inferInstanceAs (Decidable (_ ∧ _))

/-- **What a report has to do**: a loss does not raise the bitrate, a clean report does not lower it, and both leave it
bounded. -/
def Sound (packetLoss rtt : ℚ) (s' : State) : Prop :=
  (s.Lossy packetLoss rtt → s'.currentBitrate ≤ s.currentBitrate) ∧
    (¬s.Lossy packetLoss rtt → s.currentBitrate ≤ s'.currentBitrate) ∧ s'.Bounded

/-- A clean report raises the bitrate. -/
def Raises (rtt : ℚ) : Prop := s.counted.Due rtt ∧ s.currentBitrate + s.increase rtt ≤ s.counted.controllerMax

instance (rtt : ℚ) : Decidable (s.Raises rtt) := inferInstanceAs (Decidable (_ ∧ _))

/-- **Where the setters have left the bitrate in its bounds**: a report that changes nothing finds it bounded, one that
raises it finds it below the upper bound, and one that lowers it finds it above the lower bounds, the one of the
controller counting only below the upper bound. -/
def InBounds (packetLoss rtt : ℚ) : Prop :=
  if s.Lossy packetLoss rtt then
    if s.decreaseCooldownMs ≤ s.since then
      s.minBitrateBps ≤ s.currentBitrate ∧
        (s.minBitrateController ≤ s.currentBitrate ∨ s.effectiveMax ≤ s.currentBitrate)
    else s.Bounded
  else if s.Raises rtt then s.currentBitrate ≤ s.effectiveMax
  else s.Bounded

end

end State

open State

def step (s : State) : Move → Option State
  | .setBitrateConfig startBps minBps maxBps => some (s.setBitrateConfig startBps minBps maxBps)
  | .setBitrateLimits minBps maxBps => s.setBitrateLimits minBps maxBps
  | .setProfileBitrateCeiling maxBps => some (s.setProfileBitrateCeiling maxBps)
  | .configureBitrateController minBps maxBps stepBps cooldownMs required intervalMs =>
    some (s.configureBitrateController minBps maxBps stepBps cooldownMs required intervalMs)
  | .configurePliPolicy minLossThreshold => some (s.configurePliPolicy minLossThreshold)
  | .adjustBitrate newBitrate => some (s.adjustBitrate newBitrate)
  | .initializeEncoder opens => some (s.initializeEncoder opens)
  | .report elapsed packetLoss rtt => (s.tick elapsed).onRtcpFeedback packetLoss rtt

/-- Every report does what it has to do. -/
def SoundStep (s : State) : Move → Prop
  | .report elapsed packetLoss rtt =>
    ∀ s', step s (.report elapsed packetLoss rtt) = some s' → (s.tick elapsed).Sound packetLoss rtt s'
  | _ => True

/-- Every report finds the bitrate in its bounds. -/
def InBoundsStep (s : State) : Move → Prop
  | .report elapsed packetLoss rtt => (s.tick elapsed).InBounds packetLoss rtt
  | _ => True

/-! ## What a report does -/

section

variable {s s' : State} {packetLoss rtt : ℚ}

/-- Every setter keeps the bitrates and the step positive. -/
structure WellFormed (s : State) : Prop where
  start_pos : 0 < s.startBitrateBps
  min_pos : 0 < s.minBitrateBps
  current_pos : 0 < s.currentBitrate
  step_pos : 0 < s.increaseStep

theorem ifPositive_pos {value old : Int} (h : 0 < old) : 0 < ifPositive value old := by
  unfold ifPositive
  split <;> assumption

theorem clamp_eq {n low high : Int} (h : low ≤ high) : clamp n low high = max low (min high n) := by
  unfold clamp
  split
  · omega
  · split <;> omega

theorem min_le_effectiveMax (s : State) : s.minBitrateBps ≤ s.effectiveMax := le_max_left _ _

/-- What `AdjustBitrate` makes of a bitrate. -/
def limited (s : State) (bitrate : Int) : Int := max s.minBitrateBps (min s.effectiveMax bitrate)

/-- **`AdjustBitrate` changes the bitrate and its generation only.** -/
theorem adjustBitrate_cases (s : State) (newBitrate : Int) :
    ∃ generation, s.adjustBitrate newBitrate =
      { s with currentBitrate := limited s newBitrate, bitrateGeneration := generation } := by
  unfold adjustBitrate
  dsimp only
  rw [clamp_eq (min_le_effectiveMax s)]
  change ∃ _, (if s.currentBitrate = limited s newBitrate then _ else _) = _
  split
  · rename_i h
    exact ⟨s.bitrateGeneration, by rw [← h]⟩
  · exact ⟨_, rfl⟩

/-- A fraction of a bitrate, truncated, is at most the bitrate. -/
theorem truncate_mul_le {n : Int} (hn : 0 < n) {factor : ℚ} (h0 : 0 ≤ factor) (h1 : factor ≤ 1) :
    truncate (n * factor) ≤ n := by
  have hpos : (0 : ℚ) < n := by exact_mod_cast hn
  rw [truncate_of_nonneg (mul_nonneg hpos.le h0)]
  have hle : ((n * factor : ℚ).floor : ℚ) ≤ n :=
    (Rat.floor_le _).trans (mul_le_of_le_one_right hpos.le h1)
  exact_mod_cast hle

/-- **A loss writes a smaller bitrate, as the limits and the controller allow, or keeps it.** -/
theorem decrease_cases (hw : WellFormed s) (packetLoss rtt : ℚ) :
    ∃ current generation ceiling change set,
      s.decrease packetLoss rtt =
        { s with
          currentBitrate := current
          bitrateGeneration := generation
          cleanSamples := 0
          congestionCeiling := ceiling
          lastChange := change
          ceilingSetTime := set } ∧
      ((s.decreaseCooldownMs ≤ s.since ∧
          ∃ target ≤ s.currentBitrate, current = limited s (max s.minBitrateController target)) ∨
        (¬s.decreaseCooldownMs ≤ s.since ∧ current = s.currentBitrate)) := by
  unfold decrease
  by_cases hover : s.decreaseCooldownMs ≤ s.since
  · rw [if_pos hover]
    dsimp only
    generalize hfactor : (if isLocalhost rtt then (9 / 10 : ℚ) else if 1 / 10 ≤ packetLoss then 6 / 10 else 8 / 10) =
      factor
    have hunit : 0 ≤ factor ∧ factor ≤ 1 := by
      rw [← hfactor]
      split
      · norm_num
      · split <;> norm_num
    have htarget := truncate_mul_le hw.current_pos hunit.1 hunit.2
    generalize truncate (s.currentBitrate * factor) = target at htarget ⊢
    obtain ⟨generation, hadjust⟩ := adjustBitrate_cases
      { s with congestionCeiling := truncate (s.currentBitrate * (9 / 10)), ceilingSetTime := s.clock }
      (max s.minBitrateController target)
    rw [hadjust]
    exact ⟨_, _, _, _, _, rfl, .inl ⟨hover, target, htarget, rfl⟩⟩
  · rw [if_neg hover]
    exact ⟨_, _, _, _, _, rfl, .inr ⟨hover, rfl⟩⟩

/-- **A clean report adds a step, as the limits allow, or keeps the bitrate.** -/
theorem clean_cases (h : s.clean rtt = some s') :
    ∃ current generation samples ceiling change,
      s' = { s with
        currentBitrate := current
        bitrateGeneration := generation
        cleanSamples := samples
        congestionCeiling := ceiling
        lastChange := change } ∧
      ((s.Raises rtt ∧ current = limited s (s.currentBitrate + s.increase rtt)) ∨
        (¬s.Raises rtt ∧ current = s.currentBitrate)) := by
  unfold clean at h
  dsimp only at h
  split at h
  · cases h
  split at h
  · rename_i hdue
    split at h
    · cases h
    split at h
    · rename_i hle
      obtain rfl := Option.some.inj h
      obtain ⟨generation, hadjust⟩ := adjustBitrate_cases s.counted (s.currentBitrate + s.increase rtt)
      rw [hadjust]
      exact ⟨_, _, _, _, _, rfl, .inl ⟨⟨hdue, hle⟩, rfl⟩⟩
    · rename_i hgt
      obtain rfl := Option.some.inj h
      exact ⟨_, _, _, _, _, rfl, .inr ⟨fun hr => hgt hr.2, rfl⟩⟩
  · rename_i hnotDue
    obtain rfl := Option.some.inj h
    exact ⟨_, _, _, _, _, rfl, .inr ⟨fun hr => hnotDue hr.1, rfl⟩⟩

theorem increase_pos (hw : WellFormed s) (rtt : ℚ) : 0 < s.increase rtt := by
  have := hw.step_pos
  unfold increase
  split <;> omega

/-- **A report does what it has to do exactly where it finds the bitrate in its bounds.** -/
theorem sound_iff_inBounds (hw : WellFormed s) (h : s.onRtcpFeedback packetLoss rtt = some s') :
    s.Sound packetLoss rtt s' ↔ s.InBounds packetLoss rtt := by
  have hmax := min_le_effectiveMax s
  unfold onRtcpFeedback at h
  unfold Sound InBounds
  by_cases hlossy : s.Lossy packetLoss rtt
  · rw [if_pos hlossy] at h ⊢
    obtain rfl := Option.some.inj h
    obtain ⟨current, _, _, _, _, heq, ⟨hover, target, htarget, rfl⟩ | ⟨hcool, rfl⟩⟩ :=
      decrease_cases hw packetLoss rtt
    · rw [if_pos hover, heq]
      simp only [hlossy, forall_const, not_true_eq_false, false_implies, true_and]
      change limited s _ ≤ _ ∧ s.minBitrateBps ≤ limited s _ ∧ limited s _ ≤ s.effectiveMax ↔ _
      unfold limited
      omega
    · rw [if_neg hcool, heq]
      simp only [le_refl, implies_true, true_and]
      exact Iff.rfl
  · rw [if_neg hlossy] at h ⊢
    have hstep := increase_pos hw rtt
    obtain ⟨current, _, _, _, _, rfl, ⟨hraises, rfl⟩ | ⟨hstays, rfl⟩⟩ := clean_cases h
    · rw [if_pos hraises]
      simp only [hlossy, false_implies, not_false_eq_true, forall_const, true_and]
      change _ ≤ limited s _ ∧ s.minBitrateBps ≤ limited s _ ∧ limited s _ ≤ s.effectiveMax ↔ _
      unfold limited
      omega
    · rw [if_neg hstays]
      simp only [le_refl, implies_true, true_and]
      exact Iff.rfl

end

/-! ## Runs -/

section

variable {s s' : State}

theorem limited_pos (hw : WellFormed s) (bitrate : Int) : 0 < limited s bitrate := by
  have := hw.min_pos
  unfold limited
  omega

theorem wellFormed_tick (hw : WellFormed s) (elapsed : Nat) : WellFormed (s.tick elapsed) :=
  ⟨hw.start_pos, hw.min_pos, hw.current_pos, hw.step_pos⟩

theorem wellFormed_adjustBitrate (hw : WellFormed s) (newBitrate : Int) : WellFormed (s.adjustBitrate newBitrate) := by
  obtain ⟨generation, h⟩ := adjustBitrate_cases s newBitrate
  rw [h]
  exact ⟨hw.start_pos, hw.min_pos, limited_pos hw _, hw.step_pos⟩

theorem wellFormed_report {packetLoss rtt : ℚ} (hw : WellFormed s)
    (h : s.onRtcpFeedback packetLoss rtt = some s') : WellFormed s' := by
  unfold onRtcpFeedback at h
  split at h
  · obtain rfl := Option.some.inj h
    obtain ⟨current, _, _, _, _, heq, ⟨-, target, -, rfl⟩ | ⟨-, rfl⟩⟩ := decrease_cases hw packetLoss rtt
    · rw [heq]
      exact ⟨hw.start_pos, hw.min_pos, limited_pos hw _, hw.step_pos⟩
    · rw [heq]
      exact ⟨hw.start_pos, hw.min_pos, hw.current_pos, hw.step_pos⟩
  · obtain ⟨current, _, _, _, _, rfl, ⟨-, rfl⟩ | ⟨-, rfl⟩⟩ := clean_cases h
    · exact ⟨hw.start_pos, hw.min_pos, limited_pos hw _, hw.step_pos⟩
    · exact ⟨hw.start_pos, hw.min_pos, hw.current_pos, hw.step_pos⟩

theorem wellFormed_step (m : Move) (hw : WellFormed s) (hs : step s m = some s') : WellFormed s' := by
  cases m with
  | setBitrateConfig startBps minBps maxBps =>
    obtain rfl := Option.some.inj hs
    exact ⟨ifPositive_pos hw.start_pos, ifPositive_pos hw.min_pos, ifPositive_pos hw.start_pos, hw.step_pos⟩
  | setBitrateLimits minBps maxBps =>
    have hlow : 0 < ifPositive minBps s.minBitrateBps := ifPositive_pos hw.min_pos
    unfold step setBitrateLimits at hs
    dsimp only at hs
    generalize (if ifPositive minBps s.minBitrateBps ≤ maxBps then maxBps else s.maxBitrateBps) = high at hs
    split at hs
    · cases hs
    · rename_i hle
      obtain rfl := Option.some.inj hs
      refine ⟨hw.start_pos, hlow, ?_, hw.step_pos⟩
      dsimp only
      rw [clamp_eq (not_lt.1 hle)]
      omega
  | setProfileBitrateCeiling maxBps =>
    obtain rfl := Option.some.inj hs
    exact wellFormed_adjustBitrate (s := { s with profileBitrateCeiling := ifPositive maxBps 2147483647 })
      ⟨hw.start_pos, hw.min_pos, hw.current_pos, hw.step_pos⟩ s.currentBitrate
  | configureBitrateController minBps maxBps stepBps cooldownMs required intervalMs =>
    obtain rfl := Option.some.inj hs
    exact ⟨hw.start_pos, hw.min_pos, hw.current_pos, ifPositive_pos hw.step_pos⟩
  | configurePliPolicy minLossThreshold =>
    obtain rfl := Option.some.inj hs
    unfold configurePliPolicy
    split
    · exact ⟨hw.start_pos, hw.min_pos, hw.current_pos, hw.step_pos⟩
    · exact hw
  | adjustBitrate newBitrate =>
    obtain rfl := Option.some.inj hs
    exact wellFormed_adjustBitrate hw newBitrate
  | initializeEncoder opens =>
    obtain rfl := Option.some.inj hs
    unfold initializeEncoder
    split
    · exact ⟨hw.start_pos, hw.min_pos, hw.current_pos, hw.step_pos⟩
    · exact hw
  | report elapsed packetLoss rtt =>
    exact wellFormed_report (wellFormed_tick hw elapsed) hs

theorem wellFormed_init : WellFormed {} := ⟨by decide, by decide, by decide, by decide⟩

theorem soundStep_iff (m : Move) (hw : WellFormed s) (hs : step s m = some s') :
    SoundStep s m ↔ InBoundsStep s m := by
  cases m with
  | report elapsed packetLoss rtt =>
    have hw' := wellFormed_tick hw elapsed
    have hiff := sound_iff_inBounds hw' hs
    exact ⟨fun h => hiff.1 (h s' hs), fun h t ht => (sound_iff_inBounds hw' ht).2 h⟩
  | _ => exact Iff.rfl

end

/-- **Every report of a run does what it has to do exactly if each of them finds the bitrate in its bounds.** -/
theorem bitrate_sound_iff (moves : List Move) : Along step SoundStep {} moves ↔ Along step InBoundsStep {} moves :=
  along_iff_along (I := WellFormed) (fun _ m _ hw _ hs => wellFormed_step m hw hs)
    (fun _ m _ hw hs => soundStep_iff m hw hs) wellFormed_init

/-- A start bitrate above the configured maximum, and a clean report at once. -/
theorem bitrate_not_sound : ¬∀ moves : List Move, Along step SoundStep {} moves := by
  intro h
  have hreport : step (State.setBitrateConfig {} 20000000 4000000 12000000) (.report 0 0 100) =
      some (State.setBitrateConfig {} 20000000 4000000 12000000).counted := by decide +kernel
  have hrun := h [.setBitrateConfig 20000000 4000000 12000000, .report 0 0 100]
  have hsound := ((hrun _ rfl).2 _ hreport).1 _ hreport
  exact absurd hsound.2.2 (by decide +kernel)

/-! ## The bounds that the setters agree on -/

section

variable {s s' : State}

/-- The bitrate is bounded, and the minimum of the controller is no larger than the configured one. -/
def Tuned (s : State) : Prop := WellFormed s ∧ s.Bounded ∧ s.minBitrateController ≤ s.minBitrateBps

/-- The calls while a stream runs: none of them sets the limits or the controller. -/
def Running : Move → Prop
  | .setBitrateConfig .. | .setBitrateLimits .. | .configureBitrateController .. => False
  | _ => True

theorem Tuned.inBounds (h : Tuned s) (packetLoss rtt : ℚ) : s.InBounds packetLoss rtt := by
  obtain ⟨-, hbounded, hcontroller⟩ := h
  obtain ⟨hlow, hhigh⟩ := hbounded
  unfold InBounds
  split
  · split
    · exact ⟨hlow, .inl (hcontroller.trans hlow)⟩
    · exact ⟨hlow, hhigh⟩
  · split
    · exact hhigh
    · exact ⟨hlow, hhigh⟩

theorem Tuned.tick (h : Tuned s) (elapsed : Nat) : Tuned (s.tick elapsed) := ⟨wellFormed_tick h.1 elapsed, h.2⟩

theorem tuned_adjustBitrate (hw : WellFormed s) (hcontroller : s.minBitrateController ≤ s.minBitrateBps)
    (newBitrate : Int) : Tuned (s.adjustBitrate newBitrate) := by
  refine ⟨wellFormed_adjustBitrate hw newBitrate, ?_⟩
  obtain ⟨generation, h⟩ := adjustBitrate_cases s newBitrate
  have hmax := min_le_effectiveMax s
  rw [h]
  refine ⟨⟨?_, ?_⟩, hcontroller⟩
  · exact le_max_left _ _
  · change limited s newBitrate ≤ s.effectiveMax
    unfold limited
    omega

theorem tuned_step (m : Move) (h : Tuned s) (hm : Running m) (hs : step s m = some s') : Tuned s' := by
  have hw' := wellFormed_step m h.1 hs
  have htick := h.tick
  obtain ⟨hw, hbounded, hcontroller⟩ := h
  cases m with
  | setBitrateConfig | setBitrateLimits | configureBitrateController => exact hm.elim
  | setProfileBitrateCeiling maxBps =>
    obtain rfl := Option.some.inj hs
    exact tuned_adjustBitrate (s := { s with profileBitrateCeiling := ifPositive maxBps 2147483647 })
      ⟨hw.start_pos, hw.min_pos, hw.current_pos, hw.step_pos⟩ hcontroller s.currentBitrate
  | configurePliPolicy minLossThreshold =>
    refine ⟨hw', ?_⟩
    obtain rfl := Option.some.inj hs
    unfold configurePliPolicy
    split <;> exact ⟨hbounded, hcontroller⟩
  | adjustBitrate newBitrate =>
    obtain rfl := Option.some.inj hs
    exact tuned_adjustBitrate hw hcontroller newBitrate
  | initializeEncoder opens =>
    refine ⟨hw', ?_⟩
    obtain rfl := Option.some.inj hs
    unfold initializeEncoder
    split <;> exact ⟨hbounded, hcontroller⟩
  | report elapsed packetLoss rtt =>
    have hsound := (sound_iff_inBounds (htick elapsed).1 hs).2 ((htick elapsed).inBounds packetLoss rtt)
    have hkept : s'.minBitrateController ≤ s'.minBitrateBps := by
      change (s.tick elapsed).onRtcpFeedback packetLoss rtt = some s' at hs
      unfold onRtcpFeedback at hs
      split at hs
      · obtain rfl := Option.some.inj hs
        obtain ⟨_, _, _, _, _, heq, -⟩ := decrease_cases (htick elapsed).1 packetLoss rtt
        rw [heq]
        exact hcontroller
      · obtain ⟨_, _, _, _, _, rfl, -⟩ := clean_cases hs
        exact hcontroller
    exact ⟨hw', hsound.2.2, hkept⟩

/-- **From a bitrate in its bounds, with a controller whose minimum is not above the configured one, every report does
what it has to do**, as long as no setter of them is called. -/
theorem sound_of_tuned {moves : List Move} (h : Tuned s) (hrun : ∀ m ∈ moves, Running m) :
    Along step SoundStep s moves := by
  have hrunning : Along step (fun _ m => Running m) s moves := by
    induction moves generalizing s with
    | nil => trivial
    | cons m ms ih =>
      exact fun s' hs => ⟨hrun m (by simp), ih (tuned_step m h (hrun m (by simp)) hs) fun n hn => hrun n (by simp [hn])⟩
  refine Along.of_along (I := Tuned) (fun _ m _ ht hm hs => tuned_step m ht hm hs) (fun t m ht hm => ?_) h hrunning
  cases m with
  | report elapsed packetLoss rtt =>
    have htick := ht.tick elapsed
    exact fun s' hs => (sound_iff_inBounds htick.1 hs).2 (htick.inBounds packetLoss rtt)
  | setBitrateConfig | setBitrateLimits | configureBitrateController => exact hm.elim
  | _ => trivial

end

end Bitrate
end Host
end CloudGaming
