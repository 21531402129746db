import CloudGaming.Async.Along
import Mathlib.Algebra.Order.Field.Rat
import Mathlib.Tactic.Linarith
/-!
# Quality — the frames that the adaptive quality control drops

`shouldDropFrame` accumulates the drop ratio of the network condition and drops a frame for each whole one.  It leaves
early where no minimum interval is set and the statistics, when they last came in, called for no drops; the configuration
can be set at any time.  Numbers are exact, and the clock is in nanoseconds.
-/
namespace CloudGaming
namespace Host
namespace Quality

open Async

inductive NetworkCondition where
  | excellent
  | good
  | fair
  | poor
  | critical
  deriving DecidableEq, Repr

structure DroppingConfig where
  rttExcellentThreshold : ℚ := 10
  rttGoodThreshold : ℚ := 50
  rttFairThreshold : ℚ := 100
  rttPoorThreshold : ℚ := 200
  lossExcellentThreshold : ℚ := 1 / 100
  lossGoodThreshold : ℚ := 5 / 100
  lossFairThreshold : ℚ := 10 / 100
  lossPoorThreshold : ℚ := 20 / 100
  queueExcellentThreshold : UInt32 := 1
  queueGoodThreshold : UInt32 := 2
  queueFairThreshold : UInt32 := 5
  queuePoorThreshold : UInt32 := 10
  excellentDropRatio : ℚ := 0
  goodDropRatio : ℚ := 0
  fairDropRatio : ℚ := 1 / 4
  poorDropRatio : ℚ := 1 / 2
  criticalDropRatio : ℚ := 3 / 4
  enableAdaptiveDropping : Bool := true
  minFrameIntervalMs : UInt32 := 5
  deriving DecidableEq

structure NetworkStats where
  packetLoss : ℚ := 0
  rttMs : ℚ := 0
  pacerQueueLength : UInt32 := 0
  deriving DecidableEq

structure QualityDecision where
  shouldDropFrame : Bool := false
  condition : NetworkCondition := .excellent
  dropRatio : ℚ := 0
  framesUntilNext : Nat := 0
  deriving DecidableEq

structure DroppingState where
  frameCounter : UInt32 := 0
  framesDropped : UInt32 := 0
  framesSent : UInt32 := 0
  dropAccumulator : ℚ := 0
  lastFrameTime : Nat := 0
  deriving DecidableEq

structure QualityController where
  config : DroppingConfig := {}
  currentStats : NetworkStats := {}
  droppingState : DroppingState := {}
  isEnabled : Bool := false
  dropMayBeNeeded : Bool := false
  clock : Nat := 0
  deriving DecidableEq

/-- `elapsed` is the time since the frame before. -/
inductive Move where
  | setConfig (newConfig : DroppingConfig)
  | enable
  | disable
  | updateNetworkStats (stats : NetworkStats)
  | webrtcStatsCallback (stats : NetworkStats)
  | frame (elapsed : Nat)
  deriving DecidableEq

/-- The ratio that is configured for a condition. -/
def DroppingConfig.ratioOf (config : DroppingConfig) : NetworkCondition → ℚ
  | .excellent => config.excellentDropRatio
  | .good => config.goodDropRatio
  | .fair => config.fairDropRatio
  | .poor => config.poorDropRatio
  | .critical => config.criticalDropRatio

/-- The ratio of a condition as it is used; without adaptive dropping, only critical conditions have one. -/
def DroppingConfig.dropRatio (config : DroppingConfig) (condition : NetworkCondition) : ℚ :=
  let ratio := if !config.enableAdaptiveDropping && condition ≠ .critical then 0 else config.ratioOf condition
  if ratio < 0 then 0 else if 1 < ratio then 1 else ratio

namespace QualityController

section

variable (c : QualityController)

def assessNetworkCondition : NetworkCondition :=
  let stats := c.currentStats
  let config := c.config
  if config.rttPoorThreshold ≤ stats.rttMs ∧ config.lossPoorThreshold ≤ stats.packetLoss ∧
      config.queuePoorThreshold ≤ stats.pacerQueueLength then .critical
  else if config.rttPoorThreshold ≤ stats.rttMs ∨ config.lossPoorThreshold ≤ stats.packetLoss ∨
      config.queuePoorThreshold ≤ stats.pacerQueueLength then .poor
  else if config.rttFairThreshold ≤ stats.rttMs ∨ config.lossFairThreshold ≤ stats.packetLoss ∨
      config.queueFairThreshold ≤ stats.pacerQueueLength then .fair
  else if stats.rttMs ≤ config.rttExcellentThreshold ∧ stats.packetLoss ≤ config.lossExcellentThreshold ∧
      stats.pacerQueueLength ≤ config.queueExcellentThreshold then .excellent
  else if stats.rttMs ≤ config.rttGoodThreshold ∧ stats.packetLoss ≤ config.lossGoodThreshold ∧
      stats.pacerQueueLength ≤ config.queueGoodThreshold then .good
  else .good

def setConfig (newConfig : DroppingConfig) : QualityController := { c with config := newConfig }

def enable : QualityController := { c with isEnabled := true }

def disable : QualityController := { c with isEnabled := false }

def updateNetworkStats (stats : NetworkStats) : QualityController :=
  let c := { c with currentStats := stats }
  { c with dropMayBeNeeded :=
      c.assessNetworkCondition = .fair ∨ c.assessNetworkCondition = .poor ∨ c.assessNetworkCondition = .critical }

def webrtcStatsCallback (stats : NetworkStats) : QualityController :=
  if c.isEnabled then c.updateNetworkStats stats else c

def tick (elapsed : Nat) : QualityController := { c with clock := c.clock + elapsed }

/-- `shouldDropFrame`, where it leaves early. -/
def FastPath : Prop := c.isEnabled ∧ ¬c.dropMayBeNeeded ∧ c.config.minFrameIntervalMs = 0

instance : Decidable c.FastPath := inferInstanceAs (Decidable (_ ∧ _))

/-- The accumulated ratio, and whether it makes up a frame to drop. -/
def accumulate (ratio : ℚ) : Bool × ℚ :=
  if 0 < ratio then
    let accumulator := c.droppingState.dropAccumulator + ratio
    if 1 ≤ accumulator then (true, accumulator - 1) else (false, accumulator)
  else (false, 0)

/-- The minimum interval since the last frame has not passed. -/
def Early : Prop := (c.clock - c.droppingState.lastFrameTime) / 1000000 < c.config.minFrameIntervalMs.toNat

instance : Decidable c.Early := inferInstanceAs (Decidable (_ < _))

/-- The frames until the accumulated ratio makes up one to drop. -/
def framesUntilNext (accumulator ratio : ℚ) : Nat := if 0 < ratio then ((1 - accumulator) / ratio).ceil.toNat else 0

/-- `shouldDropFrame`, where it does not leave early.  A number of frames that is no `uint32_t` has no meaning. -/
def fullPath : Option (QualityDecision × QualityController) :=
  let state := c.droppingState
  if c.Early then
    some (⟨true, .excellent, 0, 1⟩,
      { c with droppingState :=
        { state with frameCounter := state.frameCounter + 1, framesDropped := state.framesDropped + 1 } })
  else
    let condition := c.assessNetworkCondition
    let ratio := c.config.dropRatio condition
    let (shouldDrop, accumulator) := c.accumulate ratio
    if 2 ^ 32 ≤ framesUntilNext accumulator ratio then none
    else
      let state := { state with dropAccumulator := accumulator, frameCounter := state.frameCounter + 1 }
      if shouldDrop then
        some (⟨true, condition, ratio, framesUntilNext accumulator ratio⟩,
          { c with droppingState := { state with framesDropped := state.framesDropped + 1 } })
      else
        some (⟨false, condition, ratio, 0⟩,
          { c with droppingState := { state with framesSent := state.framesSent + 1, lastFrameTime := c.clock } })

def shouldDropFrame : Option (QualityDecision × QualityController) :=
  if !c.isEnabled then some ({}, c)
  else if c.FastPath then some ({}, c)
  else c.fullPath

/-- What a frame leaves: the decision to drop it, and what is accumulated. -/
def outcome (r : QualityDecision × QualityController) : Bool × ℚ :=
  (r.1.shouldDropFrame, r.2.droppingState.dropAccumulator)

end

end QualityController

open QualityController

def step (c : QualityController) : Move → Option QualityController
  | .setConfig newConfig => some (c.setConfig newConfig)
  | .enable => some c.enable
  | .disable => some c.disable
  | .updateNetworkStats stats => some (c.updateNetworkStats stats)
  | .webrtcStatsCallback stats => some (c.webrtcStatsCallback stats)
  | .frame elapsed => (c.tick elapsed).shouldDropFrame.map (·.2)

/-- **Where a frame leaves early, the full path would have decided the same and left the same accumulated.** -/
def Agrees (c : QualityController) : Move → Prop
  | .frame elapsed =>
    (c.tick elapsed).FastPath →
      (c.tick elapsed).shouldDropFrame.map outcome = (c.tick elapsed).fullPath.map outcome
  | _ => True

/-- **Where a frame leaves early, nothing is accumulated, and the condition has no ratio to add.** -/
def Calm (c : QualityController) : Move → Prop
  | .frame elapsed =>
    (c.tick elapsed).FastPath →
      c.droppingState.dropAccumulator = 0 ∧
        (c.config.ratioOf c.assessNetworkCondition ≤ 0 ∨
          c.config.enableAdaptiveDropping = false ∧ c.assessNetworkCondition ≠ .critical)
  | _ => True

instance (c : QualityController) : ∀ m, Decidable (Agrees c m)
  | .frame _ => inferInstanceAs (Decidable (_ → _))
  | .setConfig _ | .enable | .disable | .updateNetworkStats _ | .webrtcStatsCallback _ => .isTrue trivial

/-! ## A frame -/

section

variable {c c' : QualityController} {d : QualityDecision}

theorem dropRatio_mem (config : DroppingConfig) (condition : NetworkCondition) :
    0 ≤ config.dropRatio condition ∧ config.dropRatio condition ≤ 1 := by
  unfold DroppingConfig.dropRatio
  dsimp only
  generalize (if (!config.enableAdaptiveDropping && decide (condition ≠ .critical)) = true then (0 : ℚ)
    else config.ratioOf condition) = ratio
  split
  · norm_num
  · split
    · norm_num
    · constructor <;> linarith

theorem dropRatio_eq_zero_iff (config : DroppingConfig) (condition : NetworkCondition) :
    config.dropRatio condition = 0 ↔
      config.ratioOf condition ≤ 0 ∨ config.enableAdaptiveDropping = false ∧ condition ≠ .critical := by
  unfold DroppingConfig.dropRatio
  dsimp only
  by_cases hoff : config.enableAdaptiveDropping = false ∧ condition ≠ .critical
  · simp [hoff]
  · have hon : ¬(!config.enableAdaptiveDropping && decide (condition ≠ .critical)) = true := by
      simpa using hoff
    rw [if_neg hon]
    simp only [hoff, or_false]
    split
    · rename_i h
      exact iff_of_true rfl h.le
    · rename_i h
      split
      · rename_i h1
        exact iff_of_false one_ne_zero (by linarith)
      · exact ⟨le_of_eq, fun hle => le_antisymm hle (not_lt.1 h)⟩

/-- The accumulator stays below a frame, and what is dropped comes off it. -/
theorem accumulate_mem {ratio : ℚ} (h0 : 0 ≤ c.droppingState.dropAccumulator)
    (h1 : c.droppingState.dropAccumulator < 1) (hr : ratio ≤ 1) :
    0 ≤ (c.accumulate ratio).2 ∧ (c.accumulate ratio).2 < 1 := by
  unfold accumulate
  split
  · dsimp only
    split <;> constructor <;> dsimp only <;> linarith
  · norm_num

theorem accumulate_add {ratio : ℚ} (hr : 0 < ratio) :
    (c.accumulate ratio).2 + (if (c.accumulate ratio).1 then 1 else 0) = c.droppingState.dropAccumulator + ratio := by
  unfold accumulate
  rw [if_pos hr]
  dsimp only
  split <;> simp

/-- The ratio of the condition as it is. -/
def currentRatio (c : QualityController) : ℚ := c.config.dropRatio c.assessNetworkCondition

/-- **The full path decides by what is accumulated**, once the minimum interval has passed. -/
theorem fullPath_outcome (c : QualityController) :
    c.fullPath.map outcome =
      if c.Early then some (true, c.droppingState.dropAccumulator)
      else if 2 ^ 32 ≤ framesUntilNext (c.accumulate (currentRatio c)).2 (currentRatio c) then none
      else some (c.accumulate (currentRatio c)) := by
  unfold fullPath currentRatio
  dsimp only
  split
  · rfl
  · split
    · rfl
    · split
      · rename_i hdrop
        exact congrArg some (Prod.ext hdrop.symm rfl)
      · rename_i hdrop
        exact congrArg some (Prod.ext (Bool.eq_false_iff.2 hdrop).symm rfl)

/-- It writes the dropping state only, and counts the frames it drops. -/
theorem fullPath_cases (h : c.fullPath = some (d, c')) :
    ∃ state, c' = { c with droppingState := state } ∧
      state.framesDropped = c.droppingState.framesDropped + if d.shouldDropFrame then 1 else 0 := by
  unfold fullPath at h
  dsimp only at h
  split at h
  · obtain ⟨rfl, rfl⟩ := Prod.mk.inj (Option.some.inj h)
    exact ⟨_, rfl, rfl⟩
  · split at h
    · cases h
    · split at h
      · obtain ⟨rfl, rfl⟩ := Prod.mk.inj (Option.some.inj h)
        exact ⟨_, rfl, rfl⟩
      · obtain ⟨rfl, rfl⟩ := Prod.mk.inj (Option.some.inj h)
        exact ⟨_, rfl, (UInt32.add_zero _).symm⟩

/-- Without a minimum interval no frame is early. -/
theorem not_early_of_fastPath (h : c.FastPath) : ¬c.Early := by
  unfold Early
  rw [h.2.2]
  exact Nat.not_lt_zero _

theorem agrees_iff_calm (c : QualityController) (m : Move) : Agrees c m ↔ Calm c m := by
  cases m with
  | frame elapsed =>
    unfold Agrees Calm
    refine imp_congr_right fun hfast => ?_
    have hleft : (c.tick elapsed).shouldDropFrame = some ({}, c.tick elapsed) := by
      unfold shouldDropFrame
      rw [if_neg (by simp [hfast.1]), if_pos hfast]
    rw [hleft, fullPath_outcome, if_neg (not_early_of_fastPath hfast)]
    change some (false, c.droppingState.dropAccumulator) = (if 2 ^ 32 ≤ framesUntilNext (c.accumulate (currentRatio c)).2
      (currentRatio c) then none else some (c.accumulate (currentRatio c))) ↔ _
    rw [← dropRatio_eq_zero_iff]
    change _ ↔ _ ∧ currentRatio c = 0
    constructor
    · intro h
      have heq : (false, c.droppingState.dropAccumulator) = c.accumulate (currentRatio c) := by
        split at h
        · cases h
        · exact Option.some.inj h
      -- A ratio that is added would show in what is accumulated.
      have hzero : currentRatio c = 0 := by
        by_contra hne
        have hpos : 0 < currentRatio c := lt_of_le_of_ne (dropRatio_mem _ _).1 (Ne.symm hne)
        have hadd := accumulate_add (c := c) hpos
        rw [← heq] at hadd
        simp only [Bool.false_eq_true, if_false, add_zero] at hadd
        linarith
      refine ⟨?_, hzero⟩
      rw [hzero] at heq
      exact congrArg Prod.snd heq
    · rintro ⟨hacc, hzero⟩
      rw [hzero, hacc]
      rfl
  | _ => exact Iff.rfl

end

/-! ## Runs -/

/-- **Where frames leave early, the full path would do the same, over a whole run, exactly if each of them finds nothing
accumulated and a condition without a ratio.** -/
theorem fast_path_agrees_iff (moves : List Move) : Along step Agrees {} moves ↔ Along step Calm {} moves :=
  along_iff_along (I := fun _ => True) (fun _ _ _ _ _ _ => trivial) (fun c m _ _ _ => agrees_iff_calm c m) trivial

/-- The default ratios, without a minimum interval: a fair spell leaves a quarter behind, which the full path clears when
the network recovers. -/
theorem fast_path_disagrees : ¬∀ moves : List Move, Along step Agrees {} moves := by
  intro h
  have hrun := h [.setConfig { minFrameIntervalMs := 0 }, .enable, .updateNetworkStats { rttMs := 100 }, .frame 1000000,
    .updateNetworkStats { rttMs := 20 }, .frame 1000000]
  exact absurd hrun (by decide +kernel)

/-! ## What is dropped -/

section

variable {c c' : QualityController}

/-- Less than a frame is accumulated. -/
def Below (c : QualityController) : Prop :=
  0 ≤ c.droppingState.dropAccumulator ∧ c.droppingState.dropAccumulator < 1

theorem below_fullPath {d : QualityDecision} (h : Below c) (hs : c.fullPath = some (d, c')) : Below c' := by
  have hout := fullPath_outcome c
  rw [hs, Option.map_some] at hout
  have hmem := accumulate_mem h.1 h.2 (dropRatio_mem c.config c.assessNetworkCondition).2
  unfold Below
  split at hout
  · have heq : c'.droppingState.dropAccumulator = c.droppingState.dropAccumulator :=
      congrArg Prod.snd (Option.some.inj hout)
    rw [heq]
    exact h
  · split at hout
    · cases hout
    · have heq : c'.droppingState.dropAccumulator = (c.accumulate (currentRatio c)).2 :=
        congrArg Prod.snd (Option.some.inj hout)
      rw [heq]
      exact hmem

theorem below_step (m : Move) (h : Below c) (hs : step c m = some c') : Below c' := by
  cases m with
  | frame elapsed =>
    obtain ⟨⟨d, t⟩, hd, rfl⟩ := Option.map_eq_some_iff.1 hs
    unfold shouldDropFrame at hd
    split at hd
    · obtain ⟨-, rfl⟩ := Prod.mk.inj (Option.some.inj hd)
      exact h
    · split at hd
      · obtain ⟨-, rfl⟩ := Prod.mk.inj (Option.some.inj hd)
        exact h
      · exact below_fullPath (c := c.tick elapsed) h hd
  | webrtcStatsCallback stats =>
    obtain rfl := Option.some.inj hs
    unfold webrtcStatsCallback
    split <;> exact h
  | setConfig | enable | disable | updateNetworkStats =>
    obtain rfl := Option.some.inj hs
    exact h

/-- **Less than a frame is accumulated in every state of every run.** -/
theorem below_throughout (moves : List Move) : Throughout step Below {} moves :=
  Throughout.of_along (I := Below) (c := fun _ _ => True) (fun _ m _ h _ hs => below_step m h hs) ⟨by decide, by decide⟩
    along_true

/-- The full path is taken, and has the ratio given. -/
structure Dropping (c : QualityController) (ratio : ℚ) : Prop where
  enabled : c.isEnabled = true
  needed : c.dropMayBeNeeded = true
  no_interval : c.config.minFrameIntervalMs = 0
  ratio_eq : currentRatio c = ratio

theorem dropping_frame {ratio : ℚ} {elapsed : Nat} (h : Dropping c ratio) (hr : 0 < ratio)
    (hs : step c (.frame elapsed) = some c') :
    Dropping c' ratio ∧ ∃ dropped : Bool,
      c'.droppingState.dropAccumulator + (if dropped then 1 else 0) = c.droppingState.dropAccumulator + ratio ∧
      c'.droppingState.framesDropped = c.droppingState.framesDropped + if dropped then 1 else 0 := by
  obtain ⟨⟨d, t⟩, hd, rfl⟩ := Option.map_eq_some_iff.1 hs
  have hfull : (c.tick elapsed).fullPath = some (d, t) := by
    rw [← hd]
    unfold shouldDropFrame
    have hon : (c.tick elapsed).isEnabled = true := h.enabled
    have hslow : ¬(c.tick elapsed).FastPath := fun hfast => hfast.2.1 h.needed
    rw [if_neg (by simp [hon]), if_neg hslow]
  have hout := fullPath_outcome (c.tick elapsed)
  have hearly : ¬(c.tick elapsed).Early := by
    unfold Early
    rw [show (c.tick elapsed).config.minFrameIntervalMs = 0 from h.no_interval]
    exact Nat.not_lt_zero _
  have hratio : currentRatio (c.tick elapsed) = ratio := h.ratio_eq
  rw [hfull, Option.map_some, if_neg hearly, hratio] at hout
  obtain ⟨state, rfl, hdropped⟩ := fullPath_cases hfull
  refine ⟨⟨h.enabled, h.needed, h.no_interval, h.ratio_eq⟩, d.shouldDropFrame, ?_, hdropped⟩
  split at hout
  · cases hout
  · have heq := Option.some.inj hout
    have hadd := accumulate_add (c := c.tick elapsed) hr
    rw [← heq] at hadd
    exact hadd

/-- **While the ratio stays as it is, the frames that are dropped are those it makes up**: the whole part of what was
accumulated and the ratio for each frame. -/
theorem dropped_eq_floor {ratio : ℚ} (elapses : List Nat) (h : Dropping c ratio) (hr : 0 < ratio) (hb : Below c)
    (ha : after step c (elapses.map .frame) = some c') :
    c'.droppingState.framesDropped = c.droppingState.framesDropped +
      UInt32.ofNat (c.droppingState.dropAccumulator + elapses.length * ratio).floor.toNat := by
  -- What was dropped and what is accumulated make up the ratios.
  have hsum : ∃ dropped : Nat,
      c'.droppingState.dropAccumulator + dropped = c.droppingState.dropAccumulator + elapses.length * ratio ∧
      c'.droppingState.framesDropped = c.droppingState.framesDropped + UInt32.ofNat dropped ∧ Below c' := by
    induction elapses generalizing c with
    | nil =>
      obtain rfl := Option.some.inj ha
      exact ⟨0, by simp, (UInt32.add_zero _).symm, hb⟩
    | cons elapsed rest ih =>
      simp only [List.map_cons, after] at ha
      obtain ⟨t, ht, ha⟩ := Option.bind_eq_some_iff.1 ha
      obtain ⟨hkept, dropped, hacc, hcount⟩ := dropping_frame h hr ht
      obtain ⟨n, hn, hcount', hb'⟩ := ih hkept (below_step _ hb ht) ha
      refine ⟨n + (if dropped then 1 else 0), ?_, ?_, hb'⟩
      · rw [List.length_cons]
        push_cast
        linarith
      · rw [hcount', hcount, UInt32.ofNat_add, UInt32.add_assoc, UInt32.add_comm (UInt32.ofNat n)]
        cases dropped <;> rfl
  obtain ⟨dropped, hacc, hcount, hlow, hhigh⟩ := hsum
  have hfloor : (c.droppingState.dropAccumulator + elapses.length * ratio).floor = dropped := by
    rw [← hacc]
    refine le_antisymm (Int.lt_add_one_iff.1 (Rat.floor_lt_iff.2 ?_)) (Rat.le_floor_iff.2 ?_)
    · push_cast
      linarith
    · push_cast
      linarith
  rw [hcount, hfloor, Int.toNat_natCast]

end

end Quality
end Host
end CloudGaming
