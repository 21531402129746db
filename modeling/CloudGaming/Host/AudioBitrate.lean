import CloudGaming.Async.Along
import CloudGaming.Host.Bitrate
/-!
# AudioBitrate — the controller of the audio bitrate and of the FEC

A report of the receiver lowers the bitrate at a loss, raises it by a step after enough clean ones, and turns the FEC on
and off; what it decides waits in a queue of one update for the thread of the encoder.  `OnRtcpFeedback` has no meaning
where `std::clamp` gets its bounds the wrong way round or an `int` overflows; both are `none`.
-/
namespace CloudGaming
namespace Host
namespace AudioBitrate

open Async
open StreamProfileManager (clamp)

/-- What `bitrateAdaptation` sets. -/
structure Adaptation where
  minAudioBitrate : Int := 8000
  maxAudioBitrate : Int := 128000
  decreaseCooldownMs : Int := 2000
  increaseIntervalMs : Int := 10000
  increaseStep : Int := 8000
  cleanSamplesRequired : Int := 30
  highLossThreshold : ℚ := 1 / 20
  lowLossThreshold : ℚ := 1 / 100
  fecEnableThreshold : ℚ := 3 / 100
  fecDisableThreshold : ℚ := 1 / 200
  deriving DecidableEq

/-- `get<double>` -/
def double? : Json → Option ℚ
  | .int n => some n
  | .float q => some q
  | _ => none

/-- `value(key, default)` at a `double`. -/
def valueDouble (j : Json) (key : String) (default : ℚ) : Option ℚ :=
  match j.field? key with
  | none => some default
  | some v => double? v

/-- A value that is read is written; one of the wrong type throws, and the rest stays as it is. -/
def assignNext {α : Type} (z : Adaptation) (value : Option α) (write : Adaptation → α → Adaptation)
    (next : Adaptation → Adaptation) : Adaptation :=
  match value with
  | none => z
  | some v => next (write z v)

/-- The block of `SetAudioConfig` that reads `bitrateAdaptation`. -/
def setBitrateAdaptation (adaptConfig : Json) (z : Adaptation) : Adaptation :=
  if !adaptConfig.isObject then z
  else
    match adaptConfig.valueBool "enabled" true with
    | none => z
    | some false => z
    | some true =>
      assignNext z (adaptConfig.valueInt "minBitrate" 8000) (fun z v => { z with minAudioBitrate := v }) fun z =>
      assignNext z (adaptConfig.valueInt "maxBitrate" 128000) (fun z v => { z with maxAudioBitrate := v }) fun z =>
      assignNext z (adaptConfig.valueInt "decreaseCooldownMs" 2000)
        (fun z v => { z with decreaseCooldownMs := v }) fun z =>
      assignNext z (adaptConfig.valueInt "increaseIntervalMs" 10000)
        (fun z v => { z with increaseIntervalMs := v }) fun z =>
      assignNext z (adaptConfig.valueInt "increaseStep" 8000) (fun z v => { z with increaseStep := v }) fun z =>
      assignNext z (valueDouble adaptConfig "highLossThreshold" (1 / 20))
        (fun z v => { z with highLossThreshold := v }) fun z =>
      assignNext z (valueDouble adaptConfig "lowLossThreshold" (1 / 100))
        (fun z v => { z with lowLossThreshold := v }) fun z =>
      assignNext z (adaptConfig.valueInt "cleanSamplesRequired" 30)
        (fun z v => { z with cleanSamplesRequired := v }) fun z =>
      assignNext z (valueDouble adaptConfig "fecEnableThreshold" (3 / 100))
        (fun z v => { z with fecEnableThreshold := v }) fun z =>
      assignNext z (valueDouble adaptConfig "fecDisableThreshold" (1 / 200))
        (fun z v => { z with fecDisableThreshold := v }) id

/-- What the controller reads: the adaptation, and whether the latency profile holds the FEC back. -/
structure Config extends Adaptation where
  ultraLowLatencyProfile : Bool := false
  disableFecInLowLatency : Bool := true

/-- An update of the encoder; 0 in the bitrate and -1 elsewhere mean no change. -/
structure OpusParameterUpdate where
  bitrate : Int
  expectedLossPerc : Int
  complexity : Int
  fecEnabled : Int
  deriving DecidableEq, Repr

/-- What the Opus encoder is set to. -/
structure Settings where
  bitrate : Int
  expectedLossPerc : Int
  complexity : Int
  fec : Bool
  deriving DecidableEq, Repr

/-- The queue is only pushed to while it is empty.  `submitted` is history: the updates that were queued, the newest
first. The clock and the time that is read off it are in nanoseconds. -/
structure State where
  encoder : Settings
  fecCurrentlyEnabled : Bool
  currentAudioBitrate : Int := 64000
  lastAudioChange : Nat := 0
  cleanSamples : Int := 0
  parameterUpdateQueue : Option OpusParameterUpdate := none
  clock : Nat := 0
  submitted : List OpusParameterUpdate := []
  deriving DecidableEq, Repr

/-- A report: the time since the one before, the loss, a fraction of 256, and whether the Go layer says that the audio
queue is congested. -/
structure Report where
  elapsed : Nat
  packetLoss : ℚ
  queueCongested : Bool
  nonneg : 0 ≤ packetLoss
  le_one : packetLoss ≤ 1

/-- Which calls of `opus_encoder_ctl` succeed; without an encoder none does. -/
structure Ctl where
  bitrate : Bool
  fec : Bool
  expectedLoss : Bool
  complexity : Bool
  deriving DecidableEq, Repr

inductive Move where
  | report (r : Report)
  | check (ctl : Ctl)

/-- An `int`, where the value fits. -/
def toInt (n : Int) : Option Int := if -2147483648 ≤ n ∧ n ≤ 2147483647 then some n else none

namespace State

section

variable (s : State)

def queueParameterUpdate (update : OpusParameterUpdate) : State :=
  { s with parameterUpdateQueue := some update, submitted := update :: s.submitted }

/-- `UpdateOpusParameters`, which drops what is out of range. -/
def updateOpusParameters (bitrate expectedLossPerc complexity fecEnabled : Int) : State :=
  if bitrate ≠ 0 ∧ (bitrate < 6000 ∨ 1020000 < bitrate) then s
  else if expectedLossPerc < -1 ∨ 100 < expectedLossPerc then s
  else if complexity < -1 ∨ 10 < complexity then s
  else if fecEnabled < -1 ∨ 1 < fecEnabled then s
  else s.queueParameterUpdate
    ⟨bitrate, expectedLossPerc, if complexity < 0 then -1 else complexity, fecEnabled⟩

end

end State

/-- What the encoder makes of an update. -/
def OpusParameterUpdate.apply (update : OpusParameterUpdate) (ctl : Ctl) (e : Settings) : Settings where
  bitrate := if 6000 ≤ update.bitrate ∧ update.bitrate ≤ 1020000 ∧ ctl.bitrate then update.bitrate else e.bitrate
  fec := if 0 ≤ update.fecEnabled ∧ ctl.fec then update.fecEnabled ≠ 0 else e.fec
  expectedLossPerc := if 0 ≤ update.expectedLossPerc ∧ ctl.expectedLoss then
      min 100 (max 0 update.expectedLossPerc)
    else e.expectedLossPerc
  complexity := if 0 ≤ update.complexity ∧ update.complexity ≤ 10 ∧ ctl.complexity then update.complexity
    else e.complexity

namespace State

section

variable (s : State)

def checkForParameterUpdates (ctl : Ctl) : State :=
  match s.parameterUpdateQueue with
  | none => s
  | some update =>
    { s with
      parameterUpdateQueue := none
      encoder := update.apply ctl s.encoder
      currentAudioBitrate :=
        if 6000 ≤ update.bitrate ∧ update.bitrate ≤ 1020000 ∧ ctl.bitrate then update.bitrate
        else s.currentAudioBitrate }

def tick (elapsed : Nat) : State := { s with clock := s.clock + elapsed }

/-- The milliseconds since the bitrate was last changed. -/
def since : Int := ((s.clock - s.lastAudioChange) / 1000000 : Nat)

variable (z : Config) (packetLoss : ℚ)

/-- The FEC after a report of this loss. -/
def fecControl : Bool :=
  let lowLatency := z.ultraLowLatencyProfile && z.disableFecInLowLatency
  let shouldEnableFec :=
    if lowLatency then
      if z.fecEnableThreshold < packetLoss ∧ packetLoss < 1 / 10 then false else decide (1 / 10 ≤ packetLoss)
    else decide (z.fecEnableThreshold ≤ packetLoss)
  let shouldDisableFec := decide (packetLoss ≤ z.fecDisableThreshold)
  if shouldEnableFec && !s.fecCurrentlyEnabled then true
  else if shouldDisableFec && s.fecCurrentlyEnabled then false
  else s.fecCurrentlyEnabled

end

end State

namespace Config

variable (z : Config)

def effectiveMin : Int := max z.minAudioBitrate 6000

def effectiveMax : Int := min z.maxAudioBitrate 510000

end Config

/-- `static_cast<int>(packetLoss * 100.0)` -/
def percent (packetLoss : ℚ) : Int := truncate (packetLoss * 100)

namespace State

section

variable (s : State) (z : Config) (packetLoss : ℚ)

/-- What a loss report writes: half of the bitrate or seven tenths, and no less than the minimum. -/
def decreased : Int :=
  max z.effectiveMin (truncate (s.currentAudioBitrate * if 1 / 10 ≤ packetLoss then 1 / 2 else 7 / 10))

/-- A report of a loss or of a congestion. -/
def decrease : State :=
  if z.decreaseCooldownMs ≤ s.since then
    { s with lastAudioChange := s.clock, cleanSamples := 0 }.updateOpusParameters (s.decreased z packetLoss)
      (min 20 (percent packetLoss)) (if 1 / 10 ≤ packetLoss then 3 else 5) 1
  else { s with cleanSamples := 0 }

/-- A clean report; `fecStateChanged` says that it has turned the FEC on or off. -/
def clean (fecStateChanged : Bool) : Option State :=
  match toInt (s.cleanSamples + 1) with
  | none => none
  | some cleanSamples =>
    if packetLoss ≤ z.lowLossThreshold ∧ z.increaseIntervalMs ≤ s.since ∧ z.cleanSamplesRequired ≤ cleanSamples then
      match toInt (s.currentAudioBitrate + z.increaseStep) with
      | none => none
      | some target =>
        if z.effectiveMax < z.effectiveMin then none
        else
          let newBitrate := clamp target z.effectiveMin z.effectiveMax
          if s.currentAudioBitrate < newBitrate then
            some ({ s with lastAudioChange := s.clock, cleanSamples := 0 }.updateOpusParameters newBitrate
              (max 1 (percent packetLoss)) (if packetLoss ≤ 1 / 50 then 6 else 5)
              (if fecStateChanged then (if s.fecCurrentlyEnabled then 1 else 0) else -1))
          else some { s with cleanSamples := 0 }
    else if fecStateChanged then
      some ({ s with cleanSamples }.updateOpusParameters s.currentAudioBitrate (max 1 (percent packetLoss)) (-1)
        (if s.fecCurrentlyEnabled then 1 else 0))
    else some { s with cleanSamples }

/-- `OnRtcpFeedback`, with an active instance. -/
def onRtcpFeedback (queueCongested : Bool) : Option State :=
  let fec := s.fecControl z packetLoss
  if z.highLossThreshold ≤ packetLoss ∨ queueCongested then
    some ({ s with fecCurrentlyEnabled := fec }.decrease z packetLoss)
  else { s with fecCurrentlyEnabled := fec }.clean z packetLoss (fec ≠ s.fecCurrentlyEnabled)

end

end State

/-- A report, or a look of the encoder thread into the queue. -/
def step (z : Config) (s : State) : Move → Option State
  | .report r => (s.tick r.elapsed).onRtcpFeedback z r.packetLoss r.queueCongested
  | .check ctl => some (s.checkForParameterUpdates ctl)

/-! ## What a report does -/

namespace State

section

variable (s : State) (z : Config) (r : Report)

/-- The report is of a loss or of a congestion. -/
def Lossy : Prop := z.highLossThreshold ≤ r.packetLoss ∨ r.queueCongested = true

/-- The clean report is one after which the bitrate is raised. -/
def Due : Prop :=
  r.packetLoss ≤ z.lowLossThreshold ∧ z.increaseIntervalMs ≤ s.since ∧ z.cleanSamplesRequired ≤ s.cleanSamples + 1

/-- There is room for a larger bitrate. -/
def Rises : Prop :=
  s.currentAudioBitrate < z.effectiveMax ∧ (0 < z.increaseStep ∨ s.currentAudioBitrate < z.effectiveMin)

/-- The arithmetic of a clean report has a meaning. -/
def Defined : Prop :=
  s.cleanSamples < 2147483647 ∧ (s.Due z r →
    (-2147483648 ≤ s.currentAudioBitrate + z.increaseStep ∧ s.currentAudioBitrate + z.increaseStep ≤ 2147483647) ∧
      z.effectiveMin ≤ z.effectiveMax)

instance : Decidable (Lossy z r) := inferInstanceAs (Decidable (_ ∨ _))
instance : Decidable (s.Due z r) := inferInstanceAs (Decidable (_ ∧ _))
instance : Decidable (s.Rises z) := inferInstanceAs (Decidable (_ ∧ _))
instance : Decidable (s.Defined z r) := inferInstanceAs (Decidable (_ ∧ (_ → _)))

/-- What every run keeps. -/
structure WellFormed : Prop where
  min_le : 6000 ≤ s.currentAudioBitrate
  le_max : s.currentAudioBitrate ≤ 1020000
  samples : 0 ≤ s.cleanSamples

/-- What a report of the instance leaves, in the order of the branches of the source. -/
inductive Outcome : State → Prop where
  | cooling (hlossy : Lossy z r) (hcool : ¬z.decreaseCooldownMs ≤ s.since) :
      Outcome { s with fecCurrentlyEnabled := s.fecControl z r.packetLoss, cleanSamples := 0 }
  | refused (hlossy : Lossy z r) (hcool : z.decreaseCooldownMs ≤ s.since) (hlarge : 1020000 < z.effectiveMin) :
      Outcome { s with
        fecCurrentlyEnabled := s.fecControl z r.packetLoss, lastAudioChange := s.clock, cleanSamples := 0 }
  | lowered (hlossy : Lossy z r) (hcool : z.decreaseCooldownMs ≤ s.since) (hsmall : z.effectiveMin ≤ 1020000)
      (update : OpusParameterUpdate) (hmin : z.effectiveMin ≤ update.bitrate)
      (hmax : update.bitrate ≤ max s.currentAudioBitrate z.effectiveMin)
      (hloss : 0 ≤ update.expectedLossPerc ∧ update.expectedLossPerc ≤ 100)
      (hcomplexity : 0 ≤ update.complexity ∧ update.complexity ≤ 10) (hfec : update.fecEnabled = 1) :
      Outcome ({ s with
        fecCurrentlyEnabled := s.fecControl z r.packetLoss
        lastAudioChange := s.clock
        cleanSamples := 0 }.queueParameterUpdate update)
  | raised (hclean : ¬Lossy z r) (hdue : s.Due z r) (hrises : s.Rises z) (hbounds : z.effectiveMin ≤ z.effectiveMax)
      (update : OpusParameterUpdate) (hmin : z.effectiveMin ≤ update.bitrate) (hmax : update.bitrate ≤ z.effectiveMax)
      (hlarger : s.currentAudioBitrate < update.bitrate)
      (hloss : 0 ≤ update.expectedLossPerc ∧ update.expectedLossPerc ≤ 100)
      (hcomplexity : 0 ≤ update.complexity ∧ update.complexity ≤ 10)
      (hfec : update.fecEnabled = if s.fecControl z r.packetLoss ≠ s.fecCurrentlyEnabled then
        (if s.fecControl z r.packetLoss then 1 else 0) else -1) :
      Outcome ({ s with
        fecCurrentlyEnabled := s.fecControl z r.packetLoss
        lastAudioChange := s.clock
        cleanSamples := 0 }.queueParameterUpdate update)
  | stayed (hclean : ¬Lossy z r) (hdue : s.Due z r) (hroom : ¬s.Rises z) :
      Outcome { s with fecCurrentlyEnabled := s.fecControl z r.packetLoss, cleanSamples := 0 }
  | toggled (hclean : ¬Lossy z r) (hdue : ¬s.Due z r)
      (hchanged : s.fecControl z r.packetLoss ≠ s.fecCurrentlyEnabled)
      (update : OpusParameterUpdate) (hbitrate : update.bitrate = s.currentAudioBitrate)
      (hloss : 0 ≤ update.expectedLossPerc ∧ update.expectedLossPerc ≤ 100) (hcomplexity : update.complexity = -1)
      (hfec : update.fecEnabled = if s.fecControl z r.packetLoss then 1 else 0) :
      Outcome ({ s with
        fecCurrentlyEnabled := s.fecControl z r.packetLoss
        cleanSamples := s.cleanSamples + 1 }.queueParameterUpdate update)
  | counted (hclean : ¬Lossy z r) (hdue : ¬s.Due z r)
      (hsame : s.fecControl z r.packetLoss = s.fecCurrentlyEnabled) :
      Outcome { s with fecCurrentlyEnabled := s.fecControl z r.packetLoss, cleanSamples := s.cleanSamples + 1 }

end

end State

theorem percent_mem {packetLoss : ℚ} (h0 : 0 ≤ packetLoss) (h1 : packetLoss ≤ 1) :
    0 ≤ percent packetLoss ∧ percent packetLoss ≤ 100 := by
  have hle := Bitrate.truncate_mul_le (n := 100) (by decide) h0 h1
  have hnonneg : 0 ≤ packetLoss * 100 := by positivity
  refine ⟨?_, ?_⟩
  · rw [percent, truncate_of_nonneg hnonneg]
    exact Rat.le_floor_iff.2 (by exact_mod_cast hnonneg)
  · rw [percent, mul_comm]
    exact_mod_cast hle

theorem toInt_of_mem {n : Int} (h : -2147483648 ≤ n ∧ n ≤ 2147483647) : toInt n = some n := if_pos h

theorem toInt_of_not_mem {n : Int} (h : ¬(-2147483648 ≤ n ∧ n ≤ 2147483647)) : toInt n = none := if_neg h

namespace State

section

variable {s : State} {z : Config} {r : Report}

theorem updateOpusParameters_eq (s : State) {bitrate loss complexity fec : Int}
    (hbitrate : 6000 ≤ bitrate ∧ bitrate ≤ 1020000) (hloss : 0 ≤ loss ∧ loss ≤ 100)
    (hcomplexity : -1 ≤ complexity ∧ complexity ≤ 10) (hfec : -1 ≤ fec ∧ fec ≤ 1) :
    s.updateOpusParameters bitrate loss complexity fec = s.queueParameterUpdate ⟨bitrate, loss, complexity, fec⟩ := by
  rw [updateOpusParameters, if_neg (by omega), if_neg (by omega), if_neg (by omega), if_neg (by omega)]
  congr 2
  split
  · omega
  · rfl

theorem updateOpusParameters_of_large (s : State) {bitrate : Int} (h : 1020000 < bitrate)
    (loss complexity fec : Int) : s.updateOpusParameters bitrate loss complexity fec = s := if_pos (by omega)

theorem decreased_mem (hw : s.WellFormed) (z : Config) (packetLoss : ℚ) :
    z.effectiveMin ≤ s.decreased z packetLoss ∧
      s.decreased z packetLoss ≤ max s.currentAudioBitrate z.effectiveMin := by
  have hpos : 0 < s.currentAudioBitrate := by have := hw.min_le; omega
  have htarget : truncate (s.currentAudioBitrate * if (1 / 10 : ℚ) ≤ packetLoss then 1 / 2 else 7 / 10) ≤
      s.currentAudioBitrate := by
    apply Bitrate.truncate_mul_le hpos
    · split <;> norm_num
    · split <;> norm_num
  unfold decreased
  omega

theorem lt_clamp_iff (s : State) {z : Config} (h : z.effectiveMin ≤ z.effectiveMax) :
    s.currentAudioBitrate < clamp (s.currentAudioBitrate + z.increaseStep) z.effectiveMin z.effectiveMax ↔
      s.Rises z := by
  unfold clamp Rises
  split
  · omega
  · split
    · omega
    · omega

/-- What a loss does. -/
theorem onRtcpFeedback_lossy (hw : s.WellFormed) (hlossy : Lossy z r) :
    ∃ s', s.onRtcpFeedback z r.packetLoss r.queueCongested = some s' ∧ s.Outcome z r s' := by
  refine ⟨_, if_pos hlossy, ?_⟩
  have hpercent := percent_mem r.nonneg r.le_one
  have hmem := decreased_mem hw z r.packetLoss
  have hmin : 6000 ≤ z.effectiveMin := le_max_right _ _
  have hmax := hw.le_max
  have hsince : ({ s with fecCurrentlyEnabled := s.fecControl z r.packetLoss } : State).since = s.since := rfl
  unfold decrease
  rw [hsince]
  by_cases hcool : z.decreaseCooldownMs ≤ s.since
  · rw [if_pos hcool]
    change s.Outcome z r (updateOpusParameters _ (s.decreased z r.packetLoss) _ _ _)
    rcases lt_or_ge 1020000 z.effectiveMin with hlarge | hsmall
    · rw [updateOpusParameters_of_large _ (by omega)]
      exact Outcome.refused hlossy hcool hlarge
    · rw [updateOpusParameters_eq _ (by omega) (by omega) (by split <;> omega) (by omega)]
      exact Outcome.lowered hlossy hcool hsmall _ hmem.1 hmem.2 (by dsimp only; omega)
        (by dsimp only; split <;> omega) rfl
  · rw [if_neg hcool]
    exact Outcome.cooling hlossy hcool

theorem clean_of_due (s : State) {z : Config} {r : Report}
    (hcount : toInt (s.cleanSamples + 1) = some (s.cleanSamples + 1))
    (hdue : s.Due z r)
    (hfits : toInt (s.currentAudioBitrate + z.increaseStep) = some (s.currentAudioBitrate + z.increaseStep))
    (hbounds : z.effectiveMin ≤ z.effectiveMax) (changed : Bool) :
    s.clean z r.packetLoss changed =
      if s.currentAudioBitrate < clamp (s.currentAudioBitrate + z.increaseStep) z.effectiveMin z.effectiveMax then
        some ({ s with lastAudioChange := s.clock, cleanSamples := 0 }.updateOpusParameters
          (clamp (s.currentAudioBitrate + z.increaseStep) z.effectiveMin z.effectiveMax) (max 1 (percent r.packetLoss))
          (if r.packetLoss ≤ 1 / 50 then 6 else 5) (if changed then (if s.fecCurrentlyEnabled then 1 else 0) else -1))
      else some { s with cleanSamples := 0 } := by
  rw [clean, hcount]
  dsimp only
  rw [if_pos (show _ ∧ _ ∧ _ from hdue), hfits]
  dsimp only
  rw [if_neg (not_lt.2 hbounds)]

theorem clean_of_not_due (s : State) {z : Config} {r : Report}
    (hcount : toInt (s.cleanSamples + 1) = some (s.cleanSamples + 1)) (hdue : ¬s.Due z r) (changed : Bool) :
    s.clean z r.packetLoss changed =
      if changed then
        some ({ s with cleanSamples := s.cleanSamples + 1 }.updateOpusParameters s.currentAudioBitrate
          (max 1 (percent r.packetLoss)) (-1) (if s.fecCurrentlyEnabled then 1 else 0))
      else some { s with cleanSamples := s.cleanSamples + 1 } := by
  rw [clean, hcount]
  dsimp only
  rw [if_neg (show ¬(_ ∧ _ ∧ _) from hdue)]

theorem flag_mem (b : Bool) : -1 ≤ (if b then 1 else 0 : Int) ∧ (if b then 1 else 0 : Int) ≤ 1 := by
  revert b
  decide

/-- What a clean report does. -/
theorem onRtcpFeedback_clean (hw : s.WellFormed) (hclean : ¬Lossy z r) (hdef : s.Defined z r) :
    ∃ s', s.onRtcpFeedback z r.packetLoss r.queueCongested = some s' ∧ s.Outcome z r s' := by
  have hpercent := percent_mem r.nonneg r.le_one
  have hmin : 6000 ≤ z.effectiveMin := le_max_right _ _
  have hmax : z.effectiveMax ≤ 510000 := min_le_right _ _
  have hlow := hw.min_le
  have hhigh := hw.le_max
  have hsamples := hw.samples
  obtain ⟨hcount, hdueDef⟩ := hdef
  have hcount' : toInt (s.cleanSamples + 1) = some (s.cleanSamples + 1) := toInt_of_mem (by omega)
  have heq : s.onRtcpFeedback z r.packetLoss r.queueCongested =
      State.clean { s with fecCurrentlyEnabled := s.fecControl z r.packetLoss } z r.packetLoss
        (s.fecControl z r.packetLoss ≠ s.fecCurrentlyEnabled) := if_neg hclean
  rw [heq]
  by_cases hdue : s.Due z r
  · obtain ⟨hfits, hbounds⟩ := hdueDef hdue
    rw [clean_of_due { s with fecCurrentlyEnabled := s.fecControl z r.packetLoss } hcount' hdue (toInt_of_mem hfits)
      hbounds]
    dsimp only
    by_cases hrises : s.Rises z
    · have hlt := (lt_clamp_iff s hbounds).2 hrises
      have hclamp : z.effectiveMin ≤ clamp (s.currentAudioBitrate + z.increaseStep) z.effectiveMin z.effectiveMax ∧
          clamp (s.currentAudioBitrate + z.increaseStep) z.effectiveMin z.effectiveMax ≤ z.effectiveMax := by
        unfold clamp
        split
        · omega
        · split <;> omega
      rw [if_pos hlt, updateOpusParameters_eq _ (by omega) (by omega) (by split <;> omega) (by
        split
        · exact flag_mem _
        · omega)]
      exact ⟨_, rfl, Outcome.raised hclean hdue hrises hbounds _ hclamp.1 hclamp.2 hlt (by dsimp only; omega)
        (by dsimp only; split <;> omega) (by simp)⟩
    · rw [if_neg fun h => hrises ((lt_clamp_iff s hbounds).1 h)]
      exact ⟨_, rfl, Outcome.stayed hclean hdue hrises⟩
  · rw [clean_of_not_due { s with fecCurrentlyEnabled := s.fecControl z r.packetLoss } hcount' hdue]
    by_cases hchanged : s.fecControl z r.packetLoss ≠ s.fecCurrentlyEnabled
    · rw [if_pos (decide_eq_true hchanged),
        updateOpusParameters_eq _ ⟨hlow, hhigh⟩ (by omega) (by omega) (flag_mem _)]
      exact ⟨_, rfl, Outcome.toggled hclean hdue hchanged _ rfl (by dsimp only; omega) rfl rfl⟩
    · rw [if_neg (by simpa using hchanged)]
      exact ⟨_, rfl, Outcome.counted hclean hdue (not_not.1 hchanged)⟩

/-- **What a report does.** -/
theorem onRtcpFeedback_some (hw : s.WellFormed) (hdef : ¬Lossy z r → s.Defined z r) :
    ∃ s', s.onRtcpFeedback z r.packetLoss r.queueCongested = some s' ∧ s.Outcome z r s' := by
  by_cases hlossy : Lossy z r
  · exact onRtcpFeedback_lossy hw hlossy
  · exact onRtcpFeedback_clean hw hlossy (hdef hlossy)

/-- A clean report whose arithmetic has no meaning. -/
theorem onRtcpFeedback_none (hw : s.WellFormed) (hclean : ¬Lossy z r) (hdef : ¬s.Defined z r) :
    s.onRtcpFeedback z r.packetLoss r.queueCongested = none := by
  have hsamples := hw.samples
  have heq : s.onRtcpFeedback z r.packetLoss r.queueCongested =
      State.clean { s with fecCurrentlyEnabled := s.fecControl z r.packetLoss } z r.packetLoss
        (s.fecControl z r.packetLoss ≠ s.fecCurrentlyEnabled) := if_neg hclean
  rw [heq, clean]
  dsimp only
  by_cases hcount : s.cleanSamples < 2147483647
  · obtain ⟨hdue, hbad⟩ : s.Due z r ∧ ¬((-2147483648 ≤ s.currentAudioBitrate + z.increaseStep ∧
        s.currentAudioBitrate + z.increaseStep ≤ 2147483647) ∧ z.effectiveMin ≤ z.effectiveMax) := by
      by_contra hno
      exact hdef ⟨hcount, fun hdue => by_contra fun hbad => hno ⟨hdue, hbad⟩⟩
    obtain ⟨hloss, htime, hclear⟩ := hdue
    rw [toInt_of_mem (by omega)]
    dsimp only
    rw [if_pos ⟨hloss, htime, hclear⟩]
    by_cases hfits : -2147483648 ≤ s.currentAudioBitrate + z.increaseStep ∧
        s.currentAudioBitrate + z.increaseStep ≤ 2147483647
    · rw [toInt_of_mem hfits]
      dsimp only
      rw [if_pos (by omega)]
    · rw [toInt_of_not_mem hfits]
  · rw [toInt_of_not_mem (by omega)]

end

end State

/-! ## The bounds of the bitrate -/

/-- The state when the controller is loaded. -/
def State.start (encoder : Settings) (fec : Bool) : State := { encoder, fecCurrentlyEnabled := fec }

/-- A report does its arithmetic and queues, if anything, a bitrate in the bounds of its branch. -/
def Sound (z : Config) (s : State) : Move → Prop
  | .check _ => True
  | .report r =>
    let t := s.tick r.elapsed
    ∃ s', t.onRtcpFeedback z r.packetLoss r.queueCongested = some s' ∧ ∀ update, s'.submitted = update :: t.submitted →
      (State.Lossy z r → update.bitrate ≤ max t.currentAudioBitrate z.effectiveMin ∧
        z.effectiveMin ≤ update.bitrate) ∧
      (¬State.Lossy z r → t.currentAudioBitrate ≤ update.bitrate ∧
        (t.currentAudioBitrate < update.bitrate → z.effectiveMin ≤ update.bitrate)) ∧
      update.bitrate ≤ max t.currentAudioBitrate z.effectiveMax

/-- The bounds are the right way round where a report reads them, and the `int`s it computes fit. -/
def InRange (z : Config) (s : State) : Move → Prop
  | .check _ => True
  | .report r =>
    let t := s.tick r.elapsed
    if State.Lossy z r then
      z.decreaseCooldownMs ≤ t.since → z.effectiveMin ≤ 1020000 →
        z.effectiveMin ≤ max t.currentAudioBitrate z.effectiveMax
    else t.Defined z r

section

variable {z : Config} {s s' : State}

theorem State.WellFormed.tick (hw : s.WellFormed) (elapsed : Nat) : (s.tick elapsed).WellFormed :=
  ⟨hw.min_le, hw.le_max, hw.samples⟩

theorem State.WellFormed.check (hw : s.WellFormed) (ctl : Ctl) : (s.checkForParameterUpdates ctl).WellFormed := by
  unfold State.checkForParameterUpdates
  split
  · exact hw
  · have hlow := hw.min_le
    have hhigh := hw.le_max
    refine ⟨?_, ?_, hw.samples⟩
    · dsimp only
      split <;> omega
    · dsimp only
      split <;> omega

theorem State.WellFormed.outcome {r : Report} (hw : s.WellFormed) (h : s.Outcome z r s') : s'.WellFormed := by
  have hsamples := hw.samples
  cases h with
  | toggled | counted => exact ⟨hw.min_le, hw.le_max, Int.add_nonneg hsamples (by decide)⟩
  | _ => exact ⟨hw.min_le, hw.le_max, Int.le_refl 0⟩

/-- **What a report that is taken does.** -/
theorem outcome_of_step {r : Report} (hw : s.WellFormed) (h : step z s (.report r) = some s') :
    (s.tick r.elapsed).Outcome z r s' := by
  have hdef : ¬State.Lossy z r → (s.tick r.elapsed).Defined z r := by
    intro hclean
    by_contra hdef
    have hnone := State.onRtcpFeedback_none (hw.tick r.elapsed) hclean hdef
    rw [step, hnone] at h
    cases h
  obtain ⟨t, ht, hout⟩ := State.onRtcpFeedback_some (hw.tick r.elapsed) hdef
  rw [step, ht] at h
  exact Option.some.inj h ▸ hout

theorem wellFormed_step (m : Move) (hw : s.WellFormed) (h : step z s m = some s') : s'.WellFormed := by
  cases m with
  | report r => exact (hw.tick r.elapsed).outcome (outcome_of_step hw h)
  | check ctl => exact Option.some.inj h ▸ hw.check ctl

theorem wellFormed_start (encoder : Settings) (fec : Bool) : (State.start encoder fec).WellFormed :=
  ⟨by change (6000 : Int) ≤ 64000; decide, by change (64000 : Int) ≤ 1020000; decide, Int.le_refl 0⟩

theorem sound_iff_inRange (hw : s.WellFormed) (m : Move) : Sound z s m ↔ InRange z s m := by
  cases m with
  | check ctl => exact Iff.rfl
  | report r =>
    have hw' := hw.tick r.elapsed
    have hshort : ∀ update : OpusParameterUpdate,
        (s.tick r.elapsed).submitted ≠ update :: (s.tick r.elapsed).submitted :=
      fun update => (List.cons_ne_self update _).symm
    unfold Sound InRange
    dsimp only
    by_cases hdef : ¬State.Lossy z r → (s.tick r.elapsed).Defined z r
    · obtain ⟨s', hs', hout⟩ := State.onRtcpFeedback_some hw' hdef
      rw [hs']
      generalize s.tick r.elapsed = t at *
      cases hout with
      | cooling hlossy hcool =>
        rw [if_pos hlossy]
        exact ⟨fun _ hover => absurd hover hcool, fun _ => ⟨_, rfl, fun update h => absurd h (hshort update)⟩⟩
      | refused hlossy hcool hlarge =>
        rw [if_pos hlossy]
        exact ⟨fun _ _ hsmall => absurd hsmall (not_le.2 hlarge),
          fun _ => ⟨_, rfl, fun update h => absurd h (hshort update)⟩⟩
      | lowered hlossy hcool hsmall update hmin hmax hloss hcomplexity hfec =>
        rw [if_pos hlossy]
        constructor
        · rintro ⟨_, hs, hall⟩ _ _
          obtain rfl := Option.some.inj hs
          exact hmin.trans (hall update rfl).2.2
        · intro hcond
          have hle := hcond hcool hsmall
          refine ⟨_, rfl, ?_⟩
          rintro _ heq
          obtain rfl := List.head_eq_of_cons_eq heq
          exact ⟨fun _ => ⟨hmax, hmin⟩, fun hclean => absurd hlossy hclean,
            hmax.trans (max_le (le_max_left _ _) hle)⟩
      | raised hclean hdue hrises hbounds update hmin hmax hlarger hloss hcomplexity hfec =>
        rw [if_neg hclean]
        refine ⟨fun _ => hdef hclean, fun _ => ⟨_, rfl, ?_⟩⟩
        rintro _ heq
        obtain rfl := List.head_eq_of_cons_eq heq
        exact ⟨fun hlossy => absurd hlossy hclean, fun _ => ⟨hlarger.le, fun _ => hmin⟩, hmax.trans (le_max_right _ _)⟩
      | toggled hclean hdue hchanged update hbitrate hloss hcomplexity hfec =>
        rw [if_neg hclean]
        refine ⟨fun _ => hdef hclean, fun _ => ⟨_, rfl, ?_⟩⟩
        rintro _ heq
        obtain rfl := List.head_eq_of_cons_eq heq
        rw [hbitrate]
        exact ⟨fun hlossy => absurd hlossy hclean, fun _ => ⟨le_refl _, fun h => absurd h (lt_irrefl _)⟩,
          le_max_left _ _⟩
      | stayed hclean | counted hclean =>
        rw [if_neg hclean]
        exact ⟨fun _ => hdef hclean, fun _ => ⟨_, rfl, fun update h => absurd h (hshort update)⟩⟩
    · obtain ⟨hclean, hbad⟩ := Classical.not_imp.1 hdef
      rw [State.onRtcpFeedback_none hw' hclean hbad, if_neg hclean]
      constructor
      · rintro ⟨_, h, _⟩
        cases h
      · exact fun h => absurd h hbad

end

/-- **The reports of a run keep to the bounds of their branches exactly where these are the right way round and the
arithmetic fits.** -/
theorem audio_bitrate_sound_iff (z : Config) (encoder : Settings) (fec : Bool) (moves : List Move) :
    Each (step z) (Sound z) (State.start encoder fec) moves ↔
      Each (step z) (InRange z) (State.start encoder fec) moves :=
  each_iff_each (I := State.WellFormed) (fun _ m _ hw hs => wellFormed_step m hw hs)
    (fun _ m hw => sound_iff_inRange hw m) (wellFormed_start encoder fec)

/-- A minimum above the maximum, and a loss of a tenth. -/
theorem audio_bitrate_not_sound : ¬∀ (z : Config) (encoder : Settings) (fec : Bool) (moves : List Move),
    Each (step z) (Sound z) (State.start encoder fec) moves := by
  intro h
  have hsound := (h { toAdaptation := setBitrateAdaptation (.obj [("minBitrate", .int 200000)]) {} }
    ⟨64000, 5, 5, false⟩ false
    [.report ⟨2000000000, 1 / 10, false, by norm_num, by norm_num⟩]).1
  obtain ⟨s', hs', hall⟩ := hsound
  have hqueued : s' = ⟨⟨64000, 5, 5, false⟩, true, 64000, 2000000000, 0, some ⟨200000, 10, 3, 1⟩, 2000000000,
      [⟨200000, 10, 3, 1⟩]⟩ := by
    apply Option.some.inj
    rw [← hs']
    decide +kernel
  subst hqueued
  exact absurd (hall _ rfl).2.2 (by decide)

/-! ## The updates reach the encoder -/

/-- Every call of `opus_encoder_ctl` succeeds. -/
def Ctl.ok : Ctl := ⟨true, true, true, true⟩

def Move.Succeeds : Move → Prop
  | .report _ => True
  | .check ctl => ctl = Ctl.ok

/-- The settings after an update, where what it says not to change is kept. -/
def OpusParameterUpdate.override (update : OpusParameterUpdate) (e : Settings) : Settings where
  bitrate := if update.bitrate = 0 then e.bitrate else update.bitrate
  expectedLossPerc := if update.expectedLossPerc = -1 then e.expectedLossPerc else update.expectedLossPerc
  complexity := if update.complexity = -1 then e.complexity else update.complexity
  fec := if update.fecEnabled = -1 then e.fec else update.fecEnabled ≠ 0

/-- The last value that was queued for each setting. -/
def lastQueued (start : Settings) : List OpusParameterUpdate → Settings
  | [] => start
  | update :: older => update.override (lastQueued start older)

/-- After a look into the queue, the encoder has what was last queued, and its FEC is that of the controller. -/
def Settled (start : Settings) (s : State) : Prop :=
  let t := s.checkForParameterUpdates Ctl.ok
  t.parameterUpdateQueue = none → t.encoder.fec = t.fecCurrentlyEnabled ∧ t.encoder = lastQueued start t.submitted

/-- The report turns the FEC only where it queues this, and queues no update in the place of one that it needs. -/
def Kept (z : Config) (s : State) : Move → Prop
  | .check _ => True
  | .report r =>
    let t := s.tick r.elapsed
    let fec := t.fecControl z r.packetLoss
    if State.Lossy z r then
      if z.decreaseCooldownMs ≤ t.since ∧ z.effectiveMin ≤ 1020000 then fec = true else fec = t.fecCurrentlyEnabled
    else if t.Due z r then
      if t.Rises z then fec = t.fecCurrentlyEnabled → t.encoder.fec = t.fecCurrentlyEnabled
      else fec = t.fecCurrentlyEnabled
    else fec ≠ t.fecCurrentlyEnabled → ∀ update, t.parameterUpdateQueue = some update →
      update.complexity = -1 ∨ update.complexity = t.encoder.complexity

/-- An update as a report queues it. -/
structure OpusParameterUpdate.Valid (update : OpusParameterUpdate) : Prop where
  bitrate : 6000 ≤ update.bitrate ∧ update.bitrate ≤ 1020000
  expectedLossPerc : 0 ≤ update.expectedLossPerc ∧ update.expectedLossPerc ≤ 100
  complexity : -1 ≤ update.complexity ∧ update.complexity ≤ 10
  fecEnabled : -1 ≤ update.fecEnabled

structure State.Waiting (s : State) : Prop where
  wellFormed : s.WellFormed
  valid : ∀ update, s.parameterUpdateQueue = some update → update.Valid

section

variable {z : Config} {s s' : State} {start : Settings}

theorem State.Waiting.tick (hs : s.Waiting) (elapsed : Nat) : (s.tick elapsed).Waiting :=
  ⟨hs.wellFormed.tick elapsed, hs.valid⟩

theorem State.Waiting.outcome {r : Report} (hs : s.Waiting) (h : s.Outcome z r s') : s'.Waiting := by
  refine ⟨hs.wellFormed.outcome h, ?_⟩
  have hmin : 6000 ≤ z.effectiveMin := le_max_right _ _
  have hmax : z.effectiveMax ≤ 510000 := min_le_right _ _
  have hlow := hs.wellFormed.min_le
  have hhigh := hs.wellFormed.le_max
  cases h with
  | lowered hlossy hcool hsmall update hge hle hloss hcomplexity hfec =>
    intro _ heq
    obtain rfl := Option.some.inj heq
    exact ⟨by omega, hloss, by omega, by omega⟩
  | raised hclean hdue hrises hbounds update hge hle hlarger hloss hcomplexity hfec =>
    intro _ heq
    obtain rfl := Option.some.inj heq
    refine ⟨by omega, hloss, by omega, ?_⟩
    rw [hfec]
    split
    · exact (State.flag_mem _).1
    · exact Int.le_refl _
  | toggled hclean hdue hchanged update hbitrate hloss hcomplexity hfec =>
    intro _ heq
    obtain rfl := Option.some.inj heq
    exact ⟨by omega, hloss, by omega, hfec ▸ (State.flag_mem _).1⟩
  | _ => exact hs.valid

theorem State.Waiting.check (hs : s.Waiting) (ctl : Ctl) : (s.checkForParameterUpdates ctl).Waiting := by
  refine ⟨hs.wellFormed.check ctl, ?_⟩
  unfold State.checkForParameterUpdates
  cases hq : s.parameterUpdateQueue with
  | none => exact hs.valid
  | some update => exact fun _ h => absurd h (by simp)

end

theorem along_of_forall {z : Config} {p : Move → Prop} {moves : List Move} (h : ∀ m ∈ moves, p m) (s : State) :
    Along (step z) (fun _ m => p m) s moves := by
  induction moves generalizing s with
  | nil => trivial
  | cons m ms ih => exact fun s' _ => ⟨h m List.mem_cons_self, ih (fun n hn => h n (List.mem_cons_of_mem m hn)) s'⟩

end AudioBitrate
end Host
end CloudGaming
