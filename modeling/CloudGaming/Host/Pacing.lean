import CloudGaming.Async.Along
import CloudGaming.Host.GoMedia
import CloudGaming.Host.Signaling
/-!
# Pacing — the durations of the encoded frames, from the capture clock to the Go layer

The encoder derives the duration of every packet from the timestamps of its packets, and the Go layer checks it.  The codec
is outside: its packets come with the move.  Times are microseconds.
-/
namespace CloudGaming
namespace Host

open Async
open GoMedia (VideoArgs Globals validateVideoDuration)

namespace Encoder

structure AVRational where
  num : Int
  den : Int
  deriving DecidableEq

/-- `av_rescale_q`, of a time that is not negative. -/
def avRescaleQ (a : Int) (bq cq : AVRational) : Int :=
  let b := bq.num * cq.den
  let c := cq.num * bq.den
  (a * b + c / 2) / c

structure AVCodecContext where
  timeBase : AVRational
  framerate : AVRational

/-- A packet of the codec; without `pts` it is `AV_NOPTS_VALUE`. -/
structure AVPacket where
  data : Bool
  size : Int
  pts : Option Int
  isKeyframe : Bool

structure PendingSample where
  size : Int
  durationUs : Int
  isKeyframe : Bool

end Encoder

open Encoder

/-- The statics of the encoder that the pacing reads, and the target rate of the capture. -/
structure Encoder where
  targetFps : Int := 120
  codecCtx : Option AVCodecContext := none
  lastCaptureTsUs : Int := 0
  smoothedDurUs : Int := 0

namespace Encoder

def computeFrameDurationUsLocked (e : Encoder) : Int :=
  let fpsNum := match e.codecCtx with
    | some ctx => ctx.framerate.num
    | none => 60
  let fpsDen := match e.codecCtx with
    | some ctx => ctx.framerate.den
    | none => 1
  if 0 < fpsNum then 1000000 * (if 0 < fpsDen then fpsDen else 1) / fpsNum
  else 8333 -- ~120fps fallback

/-- The last duration taken from two timestamps, or that of the frame rate. -/
def heldDuration (e : Encoder) : Int := if 0 < e.smoothedDurUs then e.smoothedDurUs else e.computeFrameDurationUsLocked

def updatePacingFromTimestamp (e : Encoder) (currentTsUs : Int) : Int × Encoder :=
  if currentTsUs ≤ 0 then (e.heldDuration, e)
  else
    let prevTs := e.lastCaptureTsUs
    let e := { e with lastCaptureTsUs := currentTsUs }
    let delta := currentTsUs - prevTs
    if 0 < prevTs ∧ 500 < delta ∧ delta < 2000000 then (delta, { e with smoothedDurUs := delta })
    else (e.heldDuration, e)

/-- The timestamp that a packet hands to the pacing. -/
def packetTsUs (pkt : AVPacket) (ctx : Option AVCodecContext) (fallbackTsUs : Int) : Int :=
  match pkt.pts, ctx with
  | some pts, some ctx => if 0 ≤ pts then avRescaleQ pts ctx.timeBase ⟨1, 1000000⟩ else fallbackTsUs
  | _, _ => fallbackTsUs

def makePendingSampleFromPacket (e : Encoder) (pkt : AVPacket) (fallbackTsUs : Int) : Option PendingSample × Encoder :=
  if !pkt.data || pkt.size ≤ 0 then (none, e)
  else
    let (durationUs, e) := e.updatePacingFromTimestamp (packetTsUs pkt e.codecCtx fallbackTsUs)
    let durationUs := if durationUs ≤ 0 then e.computeFrameDurationUsLocked else durationUs
    let durationUs := if durationUs ≤ 0 then 8333 else durationUs
    (some ⟨pkt.size, durationUs, pkt.isKeyframe⟩, e)

/-- What `EnqueueEncodedSample` passes to `sendVideoSample`. -/
def enqueueEncodedSample (sample : PendingSample) : VideoArgs := ⟨true, sample.size, sample.durationUs, sample.isKeyframe⟩

def setCaptureTargetFps (e : Encoder) (fps : Int) : Encoder := if 0 < fps then { e with targetFps := fps } else e

/-- A context that does not open gives no packets, and is none here. -/
def initializeEncoder (e : Encoder) (opened : Bool) : Encoder :=
  { e with
    lastCaptureTsUs := 0
    smoothedDurUs := 0
    codecCtx := if opened then some ⟨⟨1, 1000000⟩, ⟨e.targetFps, 1⟩⟩ else none }

def finalizeEncoder (e : Encoder) : Encoder := { e with codecCtx := none }

/-! ## Runs -/

/-- A profile that the stream profile manager hands to the encode loop. -/
structure SupportedProfile where
  manager : StreamProfileManager
  profile : Profile
  supported : manager.isSupported profile = .ok ()

inductive EncoderMove where
  | takePending (requested : SupportedProfile)
  | initializeEncoder (opened : Bool)
  | finalizeEncoder
  -- `SubmitHwFrame` receives a packet, where there is a codec
  | receivePacket (pkt : AVPacket) (timestampUs : Int)

def sample (e : Encoder) (pkt : AVPacket) (timestampUs : Int) : Option PendingSample × Encoder :=
  match e.codecCtx with
  | some _ => e.makePendingSampleFromPacket pkt timestampUs
  | none => (none, e)

def step (e : Encoder) : EncoderMove → Option Encoder
  | .takePending requested => some (e.setCaptureTargetFps requested.profile.fps)
  | .initializeEncoder opened => some (e.initializeEncoder opened)
  | .finalizeEncoder => some e.finalizeEncoder
  | .receivePacket pkt timestampUs => some (e.sample pkt timestampUs).2

/-- The Go layer accepts the duration of the frame that the move sends: the call is not answered `-3`. -/
def Accepted (e : Encoder) : EncoderMove → Prop
  | .receivePacket pkt timestampUs => ∀ sample, (e.sample pkt timestampUs).1 = some sample →
    validateVideoDuration (enqueueEncodedSample sample).durationUs = true ∧
      ∀ g : Globals, (enqueueEncodedSample sample).check g ≠ .ret (-3)
  | _ => True

/-- The packet's timestamp is not between one and two seconds, the bounds left out, after the one before it. -/
def ShortGap (e : Encoder) : EncoderMove → Prop
  | .receivePacket pkt timestampUs =>
    e.codecCtx ≠ none → pkt.data = true → 0 < pkt.size → 0 < e.lastCaptureTsUs →
      ¬(1000000 < packetTsUs pkt e.codecCtx timestampUs - e.lastCaptureTsUs ∧
        packetTsUs pkt e.codecCtx timestampUs - e.lastCaptureTsUs < 2000000)
  | _ => True

/-! ## One packet -/

variable {e : Encoder} {pkt : AVPacket} {timestampUs : Int}

/-- The Go layer's bounds. -/
theorem validateVideoDuration_iff (d : Int) : validateVideoDuration d = true ↔ 100 ≤ d ∧ d ≤ 1000000 := by
  unfold validateVideoDuration
  constructor
  · intro h
    split at h
    · cases h
    · split at h
      · cases h
      · split at h
        · cases h
        · split at h
          · cases h
          · omega
  · rintro ⟨hlow, hhigh⟩
    rw [if_neg (by omega), if_neg (by omega), if_neg (by omega), if_neg (by omega)]

theorem check_ne (sample : PendingSample) (h : validateVideoDuration sample.durationUs = true) (g : Globals) :
    (enqueueEncodedSample sample).check g ≠ .ret (-3) := by
  unfold VideoArgs.check
  split
  · simp
  · split
    · split
      · simp
      · rw [if_pos (show validateVideoDuration (enqueueEncodedSample sample).durationUs = true from h)]
        simp
    · simp

/-- The frame rates of the profiles. -/
def FrameRate (fps : Int) : Prop := fps = 30 ∨ fps = 60 ∨ fps = 120

theorem SupportedProfile.frameRate (requested : SupportedProfile) : FrameRate requested.profile.fps := by
  have h := requested.supported
  by_contra hfps
  have hrate : (requested.profile.fps = 30 || requested.profile.fps = 60 ||
      (requested.manager.allow120Fps && requested.profile.fps = 120)) = false := by
    simp only [FrameRate, not_or] at hfps
    simp [hfps]
  simp only [StreamProfileManager.isSupported, hrate] at h
  by_cases hsize : (requested.profile.width, requested.profile.height) ∈ [((1280 : Int), (720 : Int)), (1920, 1080),
      (2560, 1440)]
  · rw [if_pos hsize] at h
    cases h
  · rw [if_neg hsize] at h
    cases h

/-- What the pacing has between two frames: rates of profiles, the clock of the capture, and a duration that the Go layer
accepts, if any. -/
structure WellPaced (e : Encoder) : Prop where
  target : FrameRate e.targetFps
  clock : ∀ ctx, e.codecCtx = some ctx → ctx.timeBase = ⟨1, 1000000⟩
  rate : ∀ ctx, e.codecCtx = some ctx → ctx.framerate.den = 1 ∧ FrameRate ctx.framerate.num
  smoothed : e.smoothedDurUs = 0 ∨ (500 < e.smoothedDurUs ∧ e.smoothedDurUs ≤ 1000000)

theorem WellPaced.computeFrameDuration (h : WellPaced e) :
    100 ≤ e.computeFrameDurationUsLocked ∧ e.computeFrameDurationUsLocked ≤ 1000000 := by
  unfold computeFrameDurationUsLocked
  cases hc : e.codecCtx with
  | none => decide
  | some ctx =>
    obtain ⟨hden, hnum⟩ := h.rate ctx hc
    simp only [hden]
    obtain hnum | hnum | hnum := hnum <;> rw [hnum] <;> decide

theorem WellPaced.heldDuration (h : WellPaced e) : 100 ≤ e.heldDuration ∧ e.heldDuration ≤ 1000000 := by
  unfold Encoder.heldDuration
  split
  · have := h.smoothed
    omega
  · exact h.computeFrameDuration

/-- The gap before a packet is its duration. -/
def Paced (e : Encoder) (currentTsUs : Int) : Prop :=
  0 < e.lastCaptureTsUs ∧ 500 < currentTsUs - e.lastCaptureTsUs ∧ currentTsUs - e.lastCaptureTsUs < 2000000

theorem updatePacing_of_paced {currentTsUs : Int} (h : Paced e currentTsUs) :
    e.updatePacingFromTimestamp currentTsUs = (currentTsUs - e.lastCaptureTsUs,
      { e with lastCaptureTsUs := currentTsUs, smoothedDurUs := currentTsUs - e.lastCaptureTsUs }) := by
  unfold updatePacingFromTimestamp
  have hpos : ¬currentTsUs ≤ 0 := by
    obtain ⟨hlast, hgap, -⟩ := h
    omega
  rw [if_neg hpos]
  exact if_pos h

theorem updatePacing_of_not_paced {currentTsUs : Int} (h : ¬Paced e currentTsUs) :
    (e.updatePacingFromTimestamp currentTsUs).1 = e.heldDuration ∧
      ∃ last, (e.updatePacingFromTimestamp currentTsUs).2 = { e with lastCaptureTsUs := last } := by
  unfold updatePacingFromTimestamp
  by_cases hpos : currentTsUs ≤ 0
  · rw [if_pos hpos]
    exact ⟨rfl, e.lastCaptureTsUs, rfl⟩
  · rw [if_neg hpos]
    rw [Paced] at h
    dsimp only
    rw [if_neg h]
    exact ⟨rfl, currentTsUs, rfl⟩

/-- **The codec gives the timestamps of the capture back as they are.** -/
theorem WellPaced.packetTsUs (h : WellPaced e) (hc : e.codecCtx ≠ none) {pts : Int} (hp : pkt.pts = some pts)
    (hpos : 0 ≤ pts) : Encoder.packetTsUs pkt e.codecCtx timestampUs = pts := by
  unfold Encoder.packetTsUs
  cases hctx : e.codecCtx with
  | none => exact absurd hctx hc
  | some ctx =>
    simp only [hp, hpos, if_true, h.clock ctx hctx, avRescaleQ]
    omega

/-! ## Runs of the encoder -/

theorem WellPaced.updatePacing (h : WellPaced e) {currentTsUs : Int}
    (hgap : 0 < e.lastCaptureTsUs → ¬(1000000 < currentTsUs - e.lastCaptureTsUs ∧
      currentTsUs - e.lastCaptureTsUs < 2000000)) : WellPaced (e.updatePacingFromTimestamp currentTsUs).2 := by
  by_cases hp : Paced e currentTsUs
  · rw [updatePacing_of_paced hp]
    obtain ⟨hlast, hlow, hhigh⟩ := hp
    have := hgap hlast
    exact ⟨h.target, h.clock, h.rate, .inr ⟨hlow, by dsimp only; omega⟩⟩
  · obtain ⟨last, hs⟩ := (updatePacing_of_not_paced hp).2
    rw [hs]
    exact ⟨h.target, h.clock, h.rate, h.smoothed⟩

/-- What a packet sends is the duration of the pacing, as it is. -/
theorem WellPaced.makePendingSample (h : WellPaced e) (hd : pkt.data = true) (hs : 0 < pkt.size) :
    e.makePendingSampleFromPacket pkt timestampUs =
      (some ⟨pkt.size, (e.updatePacingFromTimestamp (Encoder.packetTsUs pkt e.codecCtx timestampUs)).1, pkt.isKeyframe⟩,
        (e.updatePacingFromTimestamp (Encoder.packetTsUs pkt e.codecCtx timestampUs)).2) := by
  have hpos : ¬(e.updatePacingFromTimestamp (Encoder.packetTsUs pkt e.codecCtx timestampUs)).1 ≤ 0 := by
    by_cases hp : Paced e (Encoder.packetTsUs pkt e.codecCtx timestampUs)
    · rw [updatePacing_of_paced hp]
      have := hp.2.1
      dsimp only
      omega
    · rw [(updatePacing_of_not_paced hp).1]
      have := h.heldDuration.1
      omega
  unfold makePendingSampleFromPacket
  rw [if_neg (by simp only [hd]; simpa using hs)]
  dsimp only
  rw [if_neg hpos, if_neg hpos]

theorem step_wellPaced (h : WellPaced e) (m : EncoderMove) (hg : ShortGap e m) {e' : Encoder} (hs : e.step m = some e') :
    WellPaced e' := by
  cases m with
  | takePending requested =>
    obtain rfl := Option.some.inj hs
    unfold setCaptureTargetFps
    split
    · exact ⟨requested.frameRate, h.clock, h.rate, h.smoothed⟩
    · exact h
  | initializeEncoder opened =>
    obtain rfl := Option.some.inj hs
    have hctx : ∀ ctx, (e.initializeEncoder opened).codecCtx = some ctx → ctx = ⟨⟨1, 1000000⟩, ⟨e.targetFps, 1⟩⟩ := by
      intro ctx hctx
      cases opened with
      | false => cases hctx
      | true => exact (Option.some.inj hctx).symm
    constructor
    · exact h.target
    · exact fun ctx hc => hctx ctx hc ▸ rfl
    · exact fun ctx hc => hctx ctx hc ▸ ⟨rfl, h.target⟩
    · exact .inl rfl
  | finalizeEncoder =>
    obtain rfl := Option.some.inj hs
    exact ⟨h.target, fun _ hctx => (by cases hctx), fun _ hctx => (by cases hctx), h.smoothed⟩
  | receivePacket pkt timestampUs =>
    obtain rfl := Option.some.inj hs
    unfold sample
    cases hctx : e.codecCtx with
    | none => exact h
    | some ctx =>
      by_cases hfull : pkt.data = true ∧ 0 < pkt.size
      · rw [h.makePendingSample hfull.1 hfull.2]
        exact h.updatePacing (hg (by simp [hctx]) hfull.1 hfull.2)
      · unfold makePendingSampleFromPacket
        rw [if_pos (by simp only [Bool.or_eq_true, Bool.not_eq_true', decide_eq_true_eq]; grind)]
        exact h

theorem accepted_iff_shortGap (h : WellPaced e) (m : EncoderMove) : Accepted e m ↔ ShortGap e m := by
  cases m with
  | receivePacket pkt timestampUs =>
    by_cases hfull : e.codecCtx ≠ none ∧ pkt.data = true ∧ 0 < pkt.size
    · obtain ⟨hctx, hdata, hsize⟩ := hfull
      have hsample : e.sample pkt timestampUs = e.makePendingSampleFromPacket pkt timestampUs := by
        unfold sample
        cases hc : e.codecCtx with
        | none => exact absurd hc hctx
        | some ctx => rfl
      simp only [Accepted, ShortGap]
      rw [hsample, h.makePendingSample hdata hsize]
      constructor
      · intro hacc _ _ _ hlast hgap
        have hp : Paced e (Encoder.packetTsUs pkt e.codecCtx timestampUs) := ⟨hlast, by omega, hgap.2⟩
        have hd := (validateVideoDuration_iff _).1 (hacc _ rfl).1
        rw [updatePacing_of_paced hp] at hd
        exact absurd hd.2 (by dsimp only [enqueueEncodedSample]; omega)
      · rintro hgap sample hs
        obtain rfl := Option.some.inj hs
        have hd : validateVideoDuration (e.updatePacingFromTimestamp
            (Encoder.packetTsUs pkt e.codecCtx timestampUs)).1 = true := by
          rw [validateVideoDuration_iff]
          by_cases hp : Paced e (Encoder.packetTsUs pkt e.codecCtx timestampUs)
          · have := hgap hctx hdata hsize hp.1
            rw [updatePacing_of_paced hp]
            obtain ⟨-, hlow, hhigh⟩ := hp
            dsimp only
            omega
          · rw [(updatePacing_of_not_paced hp).1]
            exact h.heldDuration
        exact ⟨hd, check_ne _ hd⟩
    · -- no codec, or an empty packet: nothing is sent
      have hnone : (e.sample pkt timestampUs).1 = none := by
        unfold sample makePendingSampleFromPacket
        cases hc : e.codecCtx with
        | none => rfl
        | some ctx =>
          rw [if_pos (by simp only [Bool.or_eq_true, Bool.not_eq_true', decide_eq_true_eq]; grind)]
      constructor
      · exact fun _ hctx hdata hsize => absurd ⟨hctx, hdata, hsize⟩ hfull
      · intro _ sample hs
        rw [hnone] at hs
        cases hs
  | _ => exact Iff.rfl

/-- **The Go layer accepts every duration of a run exactly when no frame comes between one and two seconds after the
one before it.** -/
theorem durations_iff (moves : List EncoderMove) : Along step Accepted {} moves ↔ Along step ShortGap {} moves :=
  along_iff_along (I := WellPaced) (fun _ m _ h hg hs => step_wellPaced h m hg hs)
    (fun _ m _ h _ => accepted_iff_shortGap h m)
    ⟨.inr (.inr rfl), fun _ h => (by cases h), fun _ h => (by cases h), .inl rfl⟩

/-- A keyframe captured at the time given. -/
def frameAt (pts : Int) : EncoderMove := .receivePacket ⟨true, 1000, some pts, true⟩ pts

/-- A new encoder, and the frames captured at the times given. -/
def captured (timestamps : List Int) : List EncoderMove := .initializeEncoder true :: timestamps.map frameAt

/-- **The frame after a pause of one and a half seconds is rejected.** -/
theorem not_durations : ¬∀ timestamps : List Int, (∀ t ∈ timestamps, 0 < t) → timestamps.Pairwise (· ≤ ·) →
    Along step Accepted {} (captured timestamps) := by
  intro h
  have hrun := h [1000000, 2500000] (by decide) (by decide)
  change Along _ _ _ (captured [1000000] ++ [frameAt 2500000]) at hrun
  have hlast := hrun.last rfl rfl
  have hduration := (hlast ⟨1000, 1500000, true⟩ rfl).1
  revert hduration
  decide

end Encoder

end Host
end CloudGaming
