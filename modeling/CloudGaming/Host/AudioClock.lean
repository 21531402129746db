import Mathlib.Algebra.Group.Nat.Defs
import Mathlib.Algebra.Order.Group.Unbundled.Int
import Mathlib.Data.List.Forall2
/-!
# AudioClock — the RTP timestamps the Go layer gives the audio frames

`TimestampForPTS` puts a capture time, in microseconds, onto the grid of Opus frames that starts at the first one, and
never gives out less than a frame beyond the timestamp before.  Timestamps are words of 32 bits and capture times of
64; the reference counts frames without a bound.
-/
namespace CloudGaming
namespace Host
namespace AudioClock

structure AudioRTPState where
  sequence : UInt32 := 0
  timestamp : UInt32 := 0
  rtpBaseline : UInt32 := 0
  ptsBaseline : Int64 := 0
  baselineSet : Bool := false
  deriving DecidableEq, Repr

/-- The global `audioFrameDuration`: 10 ms at 48 kHz. -/
def audioFrameDuration : UInt32 := 480

/-- Go's `uint32` of an `int64`. -/
def uint32 (x : Int64) : UInt32 := x.toUInt64.toUInt32

namespace AudioRTPState

/-- `GetNextSequence`: the number before the increment. -/
def getNextSequence (s : AudioRTPState) : UInt16 × AudioRTPState :=
  let seq := s.sequence + 1
  ((seq - 1).toUInt16, { s with sequence := seq })

def setBaseline (s : AudioRTPState) (pts : Int64) : AudioRTPState :=
  let rtpBaseline := uint32 (pts * 48 / 1000)
  { s with rtpBaseline, ptsBaseline := pts, timestamp := rtpBaseline, baselineSet := true }

def frameUs : Int64 := audioFrameDuration.toUInt64.toInt64 * 1000000 / 48000

def timestampForPTS (s : AudioRTPState) (pts : Int64) : UInt32 × AudioRTPState :=
  let s := if s.baselineSet then s else s.setBaseline pts
  if pts ≤ 0 ∨ pts < s.ptsBaseline ∨ frameUs ≤ 0 then
    let ts := s.timestamp + audioFrameDuration
    (ts - audioFrameDuration, { s with timestamp := ts })
  else
    let elapsedFrames := (pts - s.ptsBaseline + frameUs / 2) / frameUs
    let candidate := s.rtpBaseline + uint32 elapsedFrames * audioFrameDuration
    let next := s.timestamp
    let candidate := if (candidate - next).toInt32 < 0 then next else candidate
    (candidate, { s with timestamp := candidate + audioFrameDuration })

/-- The timestamps of capture times given one after another. -/
def timestamps (s : AudioRTPState) : List Int64 → List UInt32
  | [] => []
  | pts :: rest => (s.timestampForPTS pts).1 :: (s.timestampForPTS pts).2.timestamps rest

end AudioRTPState

/-! ## The reference -/

/-- The place on the frame grid that is nearest to a time in microseconds. -/
def nearestFrame (elapsed : Int) : Int := (elapsed + 5000) / 10000

theorem nearestFrame_le (elapsed k : Int) :
    |10000 * nearestFrame elapsed - elapsed| ≤ |10000 * k - elapsed| := by
  unfold nearestFrame
  rw [Int.abs_eq_natAbs, Int.abs_eq_natAbs]
  omega

/-- The capture time counts: it is positive, and not before the first. -/
def Counts (first pts : Int64) : Prop := 0 < pts.toInt ∧ first.toInt ≤ pts.toInt

instance (first pts : Int64) : Decidable (Counts first pts) := by unfold Counts; infer_instance

def nextFrame (first : Int64) (u : Int) (pts : Int64) : Int :=
  if Counts first pts then max (nearestFrame (pts.toInt - first.toInt)) (u + 1) else u + 1

/-- The frames of the capture times that follow the one at frame `u`. -/
def frames (first : Int64) (u : Int) : List Int64 → List Int
  | [] => []
  | pts :: rest => nextFrame first u pts :: frames first (nextFrame first u pts) rest

/-- The frames of a whole sequence of capture times, the first of which is frame 0. -/
def reference : List Int64 → List Int
  | [] => []
  | first :: rest => 0 :: frames first 0 rest

/-- At each step the grid position of the capture time is less than `2 ^ 31` samples from the frame after the one
before. -/
def Near (first : Int64) (u : Int) : List Int64 → Prop
  | [] => True
  | pts :: rest =>
    (Counts first pts → |480 * nearestFrame (pts.toInt - first.toInt) - (480 * u + 480)| < 2 ^ 31) ∧
      Near first (nextFrame first u pts) rest

instance decidableNear (first : Int64) : ∀ u rest, Decidable (Near first u rest)
  | _, [] => .isTrue trivial
  | u, pts :: rest =>
    have := decidableNear first (nextFrame first u pts) rest
    inferInstanceAs (Decidable (_ ∧ _))

/-- The time elapsed at each step, and half a frame, is one of 64 bits. -/
def Fits (first : Int64) (rest : List Int64) : Prop := ∀ pts ∈ rest, pts.toInt - first.toInt < 2 ^ 63 - 5000

instance (first : Int64) (rest : List Int64) : Decidable (Fits first rest) := List.decidableBAll _ rest

/-! ## Words and numbers -/

/-- The word that is `n` samples after the baseline. -/
def Samples (baseline : UInt32) (n : Int) (t : UInt32) : Prop := (t.toNat : Int) = (baseline.toNat + n) % 2 ^ 32

theorem toNat_uint32 (x : Int64) : ((uint32 x).toNat : Int) = x.toInt % 2 ^ 32 := by
  have h : ((uint32 x).toNat : Int) = (x.toBitVec.toNat % 2 ^ 32 : Nat) := rfl
  have hx : x.toInt = x.toBitVec.toInt := rfl
  have hb : x.toBitVec.toNat < 2 ^ 64 := x.toBitVec.isLt
  rw [h, hx, BitVec.toInt_eq_toNat_cond]
  split <;> omega

theorem toInt32_neg (x : UInt32) : x.toInt32 < 0 ↔ 2 ^ 31 ≤ x.toNat := by
  have hx : x.toInt32.toInt = x.toBitVec.toInt := rfl
  have hn : x.toBitVec.toNat = x.toNat := rfl
  rw [Int32.lt_iff_toInt_lt, hx, Int32.toInt_zero, BitVec.toInt_neg_iff, hn]
  omega

theorem frameUs_eq : AudioRTPState.frameUs = 10000 := by decide

theorem Samples.add {b t : UInt32} {n : Int} (h : Samples b n t) : Samples b (n + 480) (t + audioFrameDuration) := by
  unfold Samples at *
  have ha : (t + audioFrameDuration).toNat = (t.toNat + 480) % 2 ^ 32 := UInt32.toNat_add ..
  omega

theorem Samples.of_mul (b : UInt32) (x : Int64) :
    Samples b (480 * x.toInt) (b + uint32 x * audioFrameDuration) := by
  have hx := toNat_uint32 x
  have hm : (uint32 x * audioFrameDuration).toNat = (uint32 x).toNat * 480 % 2 ^ 32 := UInt32.toNat_mul ..
  unfold Samples
  rw [UInt32.toNat_add, hm]
  omega

/-- The signed test tells which of two words less than `2 ^ 31` samples apart is ahead. -/
theorem Samples.behind {b c t : UInt32} {m n : Int} (hc : Samples b m c) (ht : Samples b n t) (hmn : |m - n| < 2 ^ 31) :
    (c - t).toInt32 < 0 ↔ m < n := by
  unfold Samples at hc ht
  have hct : c.toNat < 2 ^ 32 := c.toNat_lt
  have htt : t.toNat < 2 ^ 32 := t.toNat_lt
  rw [toInt32_neg, UInt32.toNat_sub]
  rw [abs_lt] at hmn
  omega

/-! ## A call -/

namespace AudioRTPState

variable {s : AudioRTPState} {first pts : Int64}

theorem timestampForPTS_not_counts (hs : s.baselineSet) (h : ¬ Counts s.ptsBaseline pts) :
    s.timestampForPTS pts = (s.timestamp, { s with timestamp := s.timestamp + audioFrameDuration }) := by
  have hc : pts ≤ 0 ∨ pts < s.ptsBaseline ∨ frameUs ≤ 0 := by
    rw [Int64.le_iff_toInt_le, Int64.lt_iff_toInt_lt, Int64.toInt_zero]
    unfold Counts at h
    omega
  simp only [timestampForPTS, hs, if_true, if_pos hc]
  rw [UInt32.add_sub_cancel]

/-- The place on the grid that the call computes, in words. -/
def candidate (s : AudioRTPState) (pts : Int64) : UInt32 :=
  s.rtpBaseline + uint32 ((pts - s.ptsBaseline + frameUs / 2) / frameUs) * audioFrameDuration

theorem timestampForPTS_counts (hs : s.baselineSet) (h : Counts s.ptsBaseline pts) :
    s.timestampForPTS pts =
      let t := if (s.candidate pts - s.timestamp).toInt32 < 0 then s.timestamp else s.candidate pts
      (t, { s with timestamp := t + audioFrameDuration }) := by
  have hc : ¬ (pts ≤ 0 ∨ pts < s.ptsBaseline ∨ frameUs ≤ 0) := by
    rw [frameUs_eq, Int64.le_iff_toInt_le, Int64.lt_iff_toInt_lt, Int64.toInt_zero]
    obtain ⟨hp, hf⟩ := h
    rintro (hp' | hf' | hfr)
    · omega
    · omega
    · exact absurd hfr (by decide)
  simp only [timestampForPTS, hs, if_true, if_neg hc]
  rfl

/-- A call with the baseline set keeps it, and puts the clock one frame beyond the timestamp it returns. -/
theorem timestampForPTS_state (hs : s.baselineSet) (pts : Int64) :
    (s.timestampForPTS pts).2 = { s with timestamp := (s.timestampForPTS pts).1 + audioFrameDuration } := by
  by_cases h : Counts s.ptsBaseline pts
  · rw [timestampForPTS_counts hs h]
  · rw [timestampForPTS_not_counts hs h]

/-- The first call sets the baseline. -/
theorem timestampForPTS_first (hs : s.baselineSet = false) :
    s.timestampForPTS pts = (s.setBaseline pts).timestampForPTS pts := by
  simp only [timestampForPTS, hs, setBaseline, Bool.false_eq_true, if_false, if_true]

/-- **A call never goes back**: its timestamp is less than `2 ^ 31` samples beyond the clock. -/
theorem timestampForPTS_ahead (hs : s.baselineSet) (pts : Int64) :
    ((s.timestampForPTS pts).1 - s.timestamp).toNat < 2 ^ 31 := by
  by_cases h : Counts s.ptsBaseline pts
  · rw [timestampForPTS_counts hs h]
    dsimp only
    split
    · rw [UInt32.sub_self]
      decide
    · rename_i hc
      rw [toInt32_neg] at hc
      omega
  · rw [timestampForPTS_not_counts hs h, UInt32.sub_self]
    decide

/-- **A call stays on the grid.** -/
theorem timestampForPTS_grid (hs : s.baselineSet) {k : Int} (hk : Samples s.rtpBaseline (480 * k) s.timestamp)
    (pts : Int64) :
    ∃ j : Int, Samples s.rtpBaseline (480 * j) (s.timestampForPTS pts).1 := by
  by_cases h : Counts s.ptsBaseline pts
  · rw [timestampForPTS_counts hs h]
    dsimp only
    split
    · exact ⟨k, hk⟩
    · exact ⟨_, Samples.of_mul _ _⟩
  · rw [timestampForPTS_not_counts hs h]
    exact ⟨k, hk⟩

/-- The place on the grid, where the time elapsed is one of 64 bits. -/
theorem candidate_samples (h : Counts s.ptsBaseline pts) (hf : pts.toInt - s.ptsBaseline.toInt < 2 ^ 63 - 5000) :
    Samples s.rtpBaseline (480 * nearestFrame (pts.toInt - s.ptsBaseline.toInt)) (s.candidate pts) := by
  have he : ((pts - s.ptsBaseline + 5000) / 10000).toInt = nearestFrame (pts.toInt - s.ptsBaseline.toInt) := by
    have hd : (pts - s.ptsBaseline).toInt = pts.toInt - s.ptsBaseline.toInt := by
      rw [Int64.toInt_sub]
      exact Int.bmod_eq_of_le (by have := h.2; omega) (by omega)
    have ha : (pts - s.ptsBaseline + 5000).toInt = pts.toInt - s.ptsBaseline.toInt + 5000 := by
      rw [Int64.toInt_add, hd]
      exact Int.bmod_eq_of_le (by have := h.2; change _ ≤ _ + 5000; omega) (by change _ + 5000 < _; omega)
    rw [Int64.toInt_div_of_ne_right _ _ (by decide), ha, nearestFrame]
    exact Int.tdiv_eq_ediv_of_nonneg (by have := h.2; omega)
  have hhalf : (10000 / 2 : Int64) = 5000 := by decide
  rw [← he, candidate, frameUs_eq, hhalf]
  exact Samples.of_mul _ _

/-! ## A run -/

/-- The clock of a state stands one frame beyond frame `u` of the grid that starts at the capture time `first`. -/
structure At (first : Int64) (u : Int) (s : AudioRTPState) : Prop where
  baselineSet : s.baselineSet
  ptsBaseline : s.ptsBaseline = first
  timestamp : Samples s.rtpBaseline (480 * (u + 1)) s.timestamp

/-- **A call gives the frame of the reference**, where its capture time is near the clock. -/
theorem At.step {u : Int} (ha : At first u s)
    (hn : Counts first pts → |480 * nearestFrame (pts.toInt - first.toInt) - (480 * u + 480)| < 2 ^ 31)
    (hf : pts.toInt - first.toInt < 2 ^ 63 - 5000) :
    Samples s.rtpBaseline (480 * nextFrame first u pts) (s.timestampForPTS pts).1 ∧
      At first (nextFrame first u pts) (s.timestampForPTS pts).2 := by
  obtain ⟨hs, rfl, ht⟩ := ha
  have hsamples : Samples s.rtpBaseline (480 * nextFrame s.ptsBaseline u pts) (s.timestampForPTS pts).1 := by
    by_cases h : Counts s.ptsBaseline pts
    · have hc := candidate_samples h hf
      have hb := hc.behind ht (by rw [show 480 * (u + 1) = 480 * u + 480 by omega]; exact hn h)
      rw [timestampForPTS_counts hs h, nextFrame, if_pos h]
      dsimp only
      by_cases hlt : (s.candidate pts - s.timestamp).toInt32 < 0
      · rw [if_pos hlt, max_eq_right (by have := hb.1 hlt; omega)]
        exact ht
      · rw [if_neg hlt, max_eq_left (by have := mt hb.2 hlt; omega)]
        exact hc
    · rw [timestampForPTS_not_counts hs h, nextFrame, if_neg h]
      exact ht
  refine ⟨hsamples, ?_, ?_, ?_⟩
  · rw [timestampForPTS_state hs]
    exact hs
  · rw [timestampForPTS_state hs]
  · rw [timestampForPTS_state hs]
    have := hsamples.add
    rwa [show 480 * nextFrame s.ptsBaseline u pts + 480 = 480 * (nextFrame s.ptsBaseline u pts + 1) by omega] at this

/-- The state after a sequence of calls. -/
def after (s : AudioRTPState) (times : List Int64) : AudioRTPState :=
  times.foldl (fun s pts => (s.timestampForPTS pts).2) s

@[simp] theorem after_nil : s.after [] = s := rfl

@[simp] theorem after_cons {rest : List Int64} : s.after (pts :: rest) = (s.timestampForPTS pts).2.after rest := rfl

theorem timestamps_append (times rest : List Int64) :
    s.timestamps (times ++ rest) = s.timestamps times ++ (s.after times).timestamps rest := by
  induction times generalizing s with
  | nil => rfl
  | cons pts times ih =>
    rw [List.cons_append, timestamps, timestamps, ih, after_cons, List.cons_append]

/-- **The timestamps of a run are those of the reference**, and the clock ends at its last frame. -/
theorem At.run {u : Int} (ha : At first u s) {rest : List Int64} (hn : Near first u rest) (hf : Fits first rest) :
    List.Forall₂ (fun u t => Samples s.rtpBaseline (480 * u) t) (frames first u rest) (s.timestamps rest) := by
  induction rest generalizing s u with
  | nil => exact .nil
  | cons pts rest ih =>
    obtain ⟨hs, ha'⟩ := ha.step hn.1 (hf pts List.mem_cons_self)
    have hb : (s.timestampForPTS pts).2.rtpBaseline = s.rtpBaseline := by rw [timestampForPTS_state ha.baselineSet]
    have hrest := ih ha' hn.2 (fun p hp => hf p (List.mem_cons_of_mem pts hp))
    rw [hb] at hrest
    exact .cons hs hrest

theorem grid_run (hs : s.baselineSet) {k : Int} (hk : Samples s.rtpBaseline (480 * k) s.timestamp) (times : List Int64) :
    ∀ t ∈ s.timestamps times, ∃ j : Int, Samples s.rtpBaseline (480 * j) t := by
  induction times generalizing s k with
  | nil => simp [timestamps]
  | cons pts times ih =>
    obtain ⟨j, hj⟩ := timestampForPTS_grid hs hk pts
    have hst := timestampForPTS_state hs pts
    intro t ht
    rcases List.mem_cons.1 ht with rfl | ht
    · exact ⟨j, hj⟩
    · have hj' := hj.add
      rw [show 480 * j + 480 = 480 * (j + 1) by omega] at hj'
      have hrest := ih (s := (s.timestampForPTS pts).2) (by rw [hst]; exact hs) (k := j + 1) (by rw [hst]; exact hj') t ht
      rwa [hst] at hrest

/-- Consecutive timestamps are at least a frame, and at most `2 ^ 31` samples and a frame, apart. -/
def Forward (t₁ t₂ : UInt32) : Prop := 480 ≤ (t₂ - t₁).toNat ∧ (t₂ - t₁).toNat ≤ 2 ^ 31 + 480

theorem forward_of_ahead {t₁ t₂ : UInt32} (h : (t₂ - (t₁ + audioFrameDuration)).toNat < 2 ^ 31) : Forward t₁ t₂ := by
  have ha : (t₁ + audioFrameDuration).toNat = (t₁.toNat + 480) % 2 ^ 32 := UInt32.toNat_add ..
  have h₁ : t₁.toNat < 2 ^ 32 := t₁.toNat_lt
  have h₂ : t₂.toNat < 2 ^ 32 := t₂.toNat_lt
  unfold Forward
  rw [UInt32.toNat_sub] at h ⊢
  omega

theorem forward_run (hs : s.baselineSet) (pts : Int64) (times : List Int64) :
    List.IsChain Forward (s.timestamps (pts :: times)) := by
  induction times generalizing s pts with
  | nil => exact .singleton _
  | cons pts' times ih =>
    have hst := timestampForPTS_state hs pts
    have hs' : (s.timestampForPTS pts).2.baselineSet := by rw [hst]; exact hs
    have hahead := timestampForPTS_ahead hs' pts'
    refine .cons_cons (forward_of_ahead ?_) (ih hs' pts')
    rwa [show (s.timestampForPTS pts).2.timestamp = (s.timestampForPTS pts).1 + audioFrameDuration by rw [hst]] at hahead

/-! ## The audio clock from its first call -/

/-- The RTP baseline that a first capture time sets. -/
def baselineOf (first : Int64) : UInt32 := uint32 (first * 48 / 1000)

theorem timestamps_start (first : Int64) (rest : List Int64) :
    ({} : AudioRTPState).timestamps (first :: rest) = (({} : AudioRTPState).setBaseline first).timestamps (first :: rest) := by
  rw [timestamps, timestamps, timestampForPTS_first rfl]

theorem samples_zero (b : UInt32) : Samples b 0 b := by
  have hb : b.toNat < 2 ^ 32 := b.toNat_lt
  unfold Samples
  omega

theorem at_setBaseline (first : Int64) : At first (-1) (({} : AudioRTPState).setBaseline first) :=
  ⟨rfl, rfl, samples_zero (baselineOf first)⟩

theorem nextFrame_first (first : Int64) : nextFrame first (-1) first = 0 := by
  unfold nextFrame
  split
  · rw [Int.sub_self]
    decide
  · rfl

/-- **The timestamps stay on the grid and go forward, and they are those of the reference where the capture times are
near**, as long as the time elapsed is one of 64 bits. -/
theorem timestamps_gridded (first : Int64) (rest : List Int64) :
    (∀ t ∈ ({} : AudioRTPState).timestamps (first :: rest), ∃ k : Int, Samples (baselineOf first) (480 * k) t) ∧
      List.IsChain Forward (({} : AudioRTPState).timestamps (first :: rest)) ∧
      (Near first 0 rest → Fits first rest →
        List.Forall₂ (fun u t => Samples (baselineOf first) (480 * u) t) (reference (first :: rest))
          (({} : AudioRTPState).timestamps (first :: rest))) := by
  have hat := at_setBaseline first
  rw [timestamps_start]
  refine ⟨?_, forward_run hat.baselineSet first rest, fun hn hf => ?_⟩
  · exact grid_run hat.baselineSet (k := 0) (samples_zero _) (first :: rest)
  · have hframes : frames first (-1) (first :: rest) = reference (first :: rest) := by
      rw [frames, nextFrame_first, reference]
    rw [← hframes]
    refine hat.run ⟨fun _ => ?_, ?_⟩ fun pts hpts => ?_
    · rw [Int.sub_self]
      decide
    · rw [nextFrame_first]
      exact hn
    · rcases List.mem_cons.1 hpts with rfl | hpts
      · omega
      · exact hf pts hpts

/-- A gap of three frames, and a capture time that goes back. -/
theorem timestamps_gridded_gap :
    List.Forall₂ (fun u t => Samples (baselineOf 1000) (480 * u) t) [0, 4, 5]
      (({} : AudioRTPState).timestamps [1000, 41000, 31000]) :=
  (timestamps_gridded 1000 [41000, 31000]).2.2 (by decide) (by decide)

/-! ## A clock that wraps -/

theorem frames_append (first : Int64) : ∀ (u : Int) (xs ys : List Int64),
    frames first u (xs ++ ys) = frames first u xs ++ frames first (xs.foldl (nextFrame first) u) ys
  | _, [], _ => rfl
  | u, x :: xs, ys => by
    rw [List.cons_append, frames, frames, frames_append first _ xs ys, List.foldl_cons, List.cons_append]

theorem near_append {first : Int64} : ∀ {u : Int} {xs ys : List Int64},
    Near first u xs → Near first (xs.foldl (nextFrame first) u) ys → Near first u (xs ++ ys)
  | _, [], _, _, hys => hys
  | _, _ :: _, _, hxs, hys => ⟨hxs.1, near_append hxs.2 hys⟩

theorem At.after {u : Int} (ha : At first u s) : ∀ {rest : List Int64}, Near first u rest → Fits first rest →
    At first (rest.foldl (nextFrame first) u) (s.after rest) ∧ (s.after rest).rtpBaseline = s.rtpBaseline := by
  intro rest hn hf
  induction rest generalizing s u with
  | nil => exact ⟨ha, rfl⟩
  | cons pts rest ih =>
    obtain ⟨-, ha'⟩ := ha.step hn.1 (hf pts List.mem_cons_self)
    obtain ⟨hat, hbaseline⟩ := ih ha' hn.2 fun p hp => hf p (List.mem_cons_of_mem pts hp)
    refine ⟨hat, hbaseline.trans ?_⟩
    rw [timestampForPTS_state ha.baselineSet]

/-- Capture times four million frames apart, from the second microsecond on. -/
def climb : Nat → List Int64
  | 0 => []
  | n + 1 => climb n ++ [Int64.ofInt (1 + (n + 1 : Nat) * 40000000000)]

/-- The climb can go on for some 292000 years. -/
theorem climb_spec : ∀ {n : Nat}, n ≤ 230584300 → Near 1 0 (climb n) ∧ Fits 1 (climb n) ∧
    (climb n).foldl (nextFrame 1) 0 = 4000000 * (n : Int)
  | 0, _ => ⟨trivial, (fun _ h => by cases h), rfl⟩
  | n + 1, hn => by
    obtain ⟨hnear, hfits, hend⟩ := climb_spec (Nat.le_of_succ_le hn)
    have hone : (1 : Int64).toInt = 1 := by decide
    have htime : (Int64.ofInt (1 + (n + 1 : Nat) * 40000000000)).toInt = 1 + (n + 1 : Nat) * 40000000000 := by
      have hsize : (Int64.size : Int) = 2 ^ 64 := rfl
      rw [Int64.toInt_ofInt]
      exact Int.bmod_eq_of_le (by omega) (by omega)
    have hcounts : Counts 1 (Int64.ofInt (1 + (n + 1 : Nat) * 40000000000)) := by
      unfold Counts
      rw [htime, hone]
      omega
    have hframe : nextFrame 1 (4000000 * (n : Int)) (Int64.ofInt (1 + (n + 1 : Nat) * 40000000000)) =
        4000000 * ((n + 1 : Nat) : Int) := by
      rw [nextFrame, if_pos hcounts, htime, hone, nearestFrame]
      omega
    refine ⟨near_append hnear ⟨fun _ => ?_, trivial⟩, fun pts hpts => ?_, ?_⟩
    · rw [hend, htime, hone, nearestFrame, abs_lt]
      omega
    · rcases List.mem_append.1 hpts with hpts | hpts
      · exact hfits pts hpts
      · rw [List.mem_singleton.1 hpts, htime, hone]
        omega
    · rw [climb, List.foldl_append, hend, List.foldl_cons, List.foldl_nil, hframe]

/-- At the end of the climb the last capture time of all is near, but the time elapsed wraps. -/
theorem wrapped (ha : At 1 922337200000000 s) :
    ¬Samples s.rtpBaseline (480 * nextFrame 1 922337200000000 Int64.maxValue) (s.timestampForPTS Int64.maxValue).1 := by
  have hframe : nextFrame 1 922337200000000 Int64.maxValue = 922337203685478 := by decide
  have hcounts : Counts 1 Int64.maxValue := by decide
  have helapsed : ((Int64.maxValue - 1 + frameUs / 2) / frameUs).toInt = -922337203685477 := by decide
  have hcandidate : Samples s.rtpBaseline (480 * -922337203685477) (s.candidate Int64.maxValue) := by
    rw [candidate, ha.ptsBaseline, ← helapsed]
    exact Samples.of_mul _ _
  have hclock := ha.timestamp
  rw [timestampForPTS_counts ha.baselineSet (ha.ptsBaseline ▸ hcounts), hframe]
  unfold Samples at *
  dsimp only
  split
  · omega
  · omega

theorem rel_of_forall₂_append {α β : Type} {R : α → β → Prop} {a : α} {b : β} : ∀ {xs : List α} {ys : List β},
    List.Forall₂ R (xs ++ [a]) (ys ++ [b]) → R a b := by
  intro xs ys h
  have hreverse := List.forall₂_reverse_iff.2 h
  rw [List.reverse_append, List.reverse_append] at hreverse
  cases hreverse with
  | cons hab _ => exact hab

/-- **The distance alone does not keep the timestamps with the reference**: at the end of the climb the time elapsed
wraps, and the timestamp is that of another frame. -/
theorem not_timestamps_follow :
    ¬∀ (first : Int64) (rest : List Int64),
      (∀ t ∈ ({} : AudioRTPState).timestamps (first :: rest), ∃ k : Int, Samples (baselineOf first) (480 * k) t) ∧
        List.IsChain Forward (({} : AudioRTPState).timestamps (first :: rest)) ∧
        (Near first 0 rest →
          List.Forall₂ (fun u t => Samples (baselineOf first) (480 * u) t) (reference (first :: rest))
            (({} : AudioRTPState).timestamps (first :: rest))) := by
  intro h
  obtain ⟨n, hn⟩ : ∃ n : Nat, n = 230584300 := ⟨_, rfl⟩
  obtain ⟨hnear, hfits, hend⟩ := climb_spec (Nat.le_of_eq hn)
  have hframes : (climb n).foldl (nextFrame 1) 0 = 922337200000000 := by
    rw [hend]
    omega
  have hnearest : Counts 1 Int64.maxValue →
      |480 * nearestFrame (Int64.maxValue.toInt - (1 : Int64).toInt) - (480 * 922337200000000 + 480)| < 2 ^ 31 := by decide
  have hall := (h 1 (climb n ++ [Int64.maxValue])).2.2 (near_append hnear (hframes ▸ ⟨hnearest, trivial⟩))
  -- the state at the end of the climb
  have hrun : Near 1 (-1) (1 :: climb n) := by
    refine ⟨fun _ => by decide, ?_⟩
    rw [nextFrame_first]
    exact hnear
  have hfit : Fits 1 (1 :: climb n) := by
    intro pts hpts
    rcases List.mem_cons.1 hpts with rfl | hpts
    · decide
    · exact hfits pts hpts
  obtain ⟨hat, hbaseline⟩ := (at_setBaseline 1).after hrun hfit
  rw [List.foldl_cons, nextFrame_first, hframes] at hat
  rw [timestamps_start, reference, frames_append, hframes, ← List.cons_append, ← List.cons_append, timestamps_append] at hall
  have hlast := rel_of_forall₂_append hall
  refine wrapped hat ?_
  rw [hbaseline]
  exact hlast

end AudioRTPState

end AudioClock
end Host
end CloudGaming
