import CloudGaming.Async.Ring
import CloudGaming.Host.Json
import Mathlib.Tactic.Linarith
import Mathlib.Tactic.Positivity
import Mathlib.Tactic.Ring
/-!
# AudioFraming — captured samples cut into frames, and the ring they wait in for the encoder

`ProcessAudioFrame` fills the current frame, pushes it when it is full and calls itself with what is left; a call that
takes nothing would never return, which is `none`.  The ring keeps the frames and their timestamps in arrays of their
own.  Times are in microseconds, and the seconds that the code computes in `double` are exact here.
-/
namespace CloudGaming
namespace Host
namespace AudioFraming

open RingQueue (window)

/-- The sizes `Initialize` takes from the settings of the encoder, and the channels of the configuration. -/
structure Layout where
  samplesPerFrame : Nat
  frameSizeSamples : Nat
  configChannels : Nat
  pos : 0 < samplesPerFrame

/-- The channels the samples of a chunk are spread over. -/
def Layout.channels (z : Layout) : Nat :=
  let channels := if 0 < z.frameSizeSamples then z.samplesPerFrame / z.frameSizeSamples % 2 ^ 32 else z.configChannels
  if channels = 0 then 2 else channels

/-- The duration of so many samples. -/
def Layout.duration (z : Layout) (samples : Nat) : ℚ := samples / (48000 * z.channels) * 1000000

/-- What the timestamp is advanced by, rounded to a microsecond. -/
def Layout.deltaUs (z : Layout) (samples : Nat) : Int := truncate (z.duration samples + 1 / 2)

/-- The current frame. -/
structure Framer (α : Type*) where
  currentFrameBuffer : List α
  currentFrameSamples : Nat := 0
  currentFrameTimestamp : Int := 0
  deriving DecidableEq, Repr

variable {α : Type*}

/-- `std::copy` to a place in a vector that has room for it. -/
def copyAt (samples : List α) (at_ : Nat) (buffer : List α) : List α :=
  buffer.take at_ ++ samples ++ buffer.drop (at_ + samples.length)

/-- `resize` of a vector that is shorter. -/
def growTo [Inhabited α] (n : Nat) (buffer : List α) : List α := buffer ++ List.replicate (n - buffer.length) default

/-- How many of the samples the current frame takes. -/
def samplesToCopy (sampleCount samplesNeeded : Nat) : Nat :=
  if sampleCount < samplesNeeded then sampleCount else samplesNeeded

/-- `ProcessAudioFrame`, with the frames it pushes and their timestamps, in order. -/
def processAudioFrame [Inhabited α] (z : Layout) (s : Framer α) (samples : List α) (timestampUs : Int) :
    Option (Framer α × List (List α × Int)) :=
  if samples.length = 0 then some (s, [])
  else
    let timestamp := if s.currentFrameSamples = 0 then timestampUs else s.currentFrameTimestamp
    let buffer := growTo z.samplesPerFrame s.currentFrameBuffer
    let copied := samplesToCopy samples.length (z.samplesPerFrame - s.currentFrameSamples)
    let buffer := if s.currentFrameSamples + copied ≤ buffer.length then
        copyAt (samples.take copied) s.currentFrameSamples buffer
      else buffer
    if z.samplesPerFrame ≤ s.currentFrameSamples + copied then
      if copied < samples.length then
        if copied = 0 then none
        else do
          let (s', pushed) ← processAudioFrame z ⟨buffer, 0, 0⟩ (samples.drop copied)
            (timestampUs + z.deltaUs copied)
          pure (s', (buffer, timestamp) :: pushed)
      else some (⟨buffer, 0, 0⟩, [(buffer, timestamp)])
    else some (⟨buffer, s.currentFrameSamples + copied, timestamp⟩, [])
termination_by samples.length
decreasing_by
  rw [List.length_drop]
  omega

/-- The calls one after the other, each a chunk with its timestamp. -/
def processAll [Inhabited α] (z : Layout) : Framer α → List (List α × Int) → Option (Framer α × List (List α × Int))
  | s, [] => some (s, [])
  | s, (samples, timestampUs) :: calls => do
    let (s₁, pushed) ← processAudioFrame z s samples timestampUs
    let (s₂, rest) ← processAll z s₁ calls
    pure (s₂, pushed ++ rest)

/-! ## What the frames are -/

/-- The samples of all calls. -/
def stream (calls : List (List α × Int)) : List α := (calls.map Prod.fst).flatten

/-- The blocks of `n` samples of a stream, one after the other. -/
def blocks (n : Nat) (samples : List α) : List (List α) :=
  (List.range (samples.length / n)).map fun i => (samples.drop (i * n)).take n

/-- The chunk a sample of the stream is from: its timestamp, and the samples before it in the chunk. -/
def origin : List (List α × Int) → Nat → Option (Int × Nat)
  | [], _ => none
  | (samples, timestampUs) :: calls, p =>
    if p < samples.length then some (timestampUs, p) else origin calls (p - samples.length)

/-- The time of a sample in a chunk, half a microsecond off for each frame that was completed in the chunk before it. -/
def Near (z : Layout) (timestampUs : Int) (before : Nat) (t : Int) : Prop :=
  |(t : ℚ) - (timestampUs + z.duration before)| ≤ ((before + z.samplesPerFrame - 1) / z.samplesPerFrame : Nat) / 2

/-- The timestamp of the frame of the stream with this number. -/
def Stamped (z : Layout) (calls : List (List α × Int)) (frame : Nat) (t : Int) : Prop :=
  ∃ timestampUs before, origin calls (frame * z.samplesPerFrame) = some (timestampUs, before) ∧
    Near z timestampUs before t

/-- The samples of the current frame. -/
def Framer.pending (s : Framer α) : List α := s.currentFrameBuffer.take s.currentFrameSamples

/-- The buffer is that of one frame, which is not full. -/
structure Framer.Sized (z : Layout) (s : Framer α) : Prop where
  buffer : s.currentFrameBuffer.length = z.samplesPerFrame
  filled : s.currentFrameSamples < z.samplesPerFrame

theorem blocks_unique {n : Nat} (hn : 0 < n) {frames : List (List α)} {rest samples : List α}
    (hlen : ∀ frame ∈ frames, frame.length = n) (hrest : rest.length < n) (h : frames.flatten ++ rest = samples) :
    frames = blocks n samples ∧ rest = samples.drop (samples.length / n * n) := by
  induction frames generalizing samples with
  | nil =>
    rw [List.flatten_nil, List.nil_append] at h
    subst h
    rw [blocks, Nat.div_eq_of_lt hrest, Nat.zero_mul]
    exact ⟨rfl, rfl⟩
  | cons frame frames ih =>
    have hframe := hlen frame List.mem_cons_self
    rw [List.flatten_cons, List.append_assoc] at h
    obtain ⟨hfr, hre⟩ := ih (fun f hf => hlen f (List.mem_cons_of_mem _ hf)) rfl
    subst h
    have hdiv : (frame ++ (frames.flatten ++ rest)).length / n = (frames.flatten ++ rest).length / n + 1 := by
      rw [List.length_append, hframe, Nat.add_comm, Nat.add_div_right _ hn]
    have hskip : ∀ i, (frame ++ (frames.flatten ++ rest)).drop (n + i) = (frames.flatten ++ rest).drop i := by
      intro i
      rw [← hframe, List.drop_append]
      simp
    constructor
    · rw [blocks, hdiv, List.range_succ_eq_map, List.map_cons, List.map_map, Nat.zero_mul, List.drop_zero]
      congr 1
      · rw [← hframe, List.take_left]
      · conv_lhs => rw [hfr]
        apply List.map_congr_left
        intro i _
        rw [Function.comp, Nat.succ_mul, Nat.add_comm _ n, hskip]
    · rw [hdiv, Nat.succ_mul, Nat.add_comm _ n, hskip]
      exact hre

theorem length_copyAt {samples buffer : List α} {at_ : Nat} (h : at_ + samples.length ≤ buffer.length) :
    (copyAt samples at_ buffer).length = buffer.length := by
  rw [copyAt, List.length_append, List.length_append, List.length_take, List.length_drop]
  omega

theorem take_copyAt {samples buffer : List α} {at_ : Nat} (h : at_ + samples.length ≤ buffer.length) :
    (copyAt samples at_ buffer).take (at_ + samples.length) = buffer.take at_ ++ samples := by
  have hlen : (buffer.take at_ ++ samples).length = at_ + samples.length := by
    rw [List.length_append, List.length_take]
    omega
  rw [copyAt, ← hlen, List.take_left]

/-! ## The timestamps -/

theorem Layout.duration_nonneg (z : Layout) (samples : Nat) : 0 ≤ z.duration samples := by
  unfold Layout.duration
  positivity

theorem Layout.duration_add (z : Layout) (a b : Nat) : z.duration (a + b) = z.duration a + z.duration b := by
  unfold Layout.duration
  push_cast
  ring

/-- Rounding is half a microsecond off at most. -/
theorem Layout.deltaUs_near (z : Layout) (samples : Nat) : |(z.deltaUs samples : ℚ) - z.duration samples| ≤ 1 / 2 := by
  have hnonneg := z.duration_nonneg samples
  have hle := Rat.floor_le (z.duration samples + 1 / 2)
  have hlt := Rat.lt_floor_add_one (z.duration samples + 1 / 2)
  push_cast at hlt
  rw [Layout.deltaUs, truncate_of_nonneg (by linarith), abs_le]
  constructor
  · linarith
  · linarith

theorem Near.start (z : Layout) (timestampUs : Int) : Near z timestampUs 0 timestampUs := by
  unfold Near Layout.duration
  simp only [Nat.cast_zero, zero_div, zero_mul, add_zero, sub_self, abs_zero]
  positivity

/-- A frame further on, there is one rounding more. -/
theorem Near.advance {z : Layout} {timestampUs t : Int} {before copied : Nat} (h : Near z timestampUs before t)
    (hcopied : before = 0 ∧ 0 < copied ∧ copied ≤ z.samplesPerFrame ∨ copied = z.samplesPerFrame) :
    Near z timestampUs (before + copied) (t + z.deltaUs copied) := by
  have hpos := z.pos
  have hone : (before + copied + z.samplesPerFrame - 1) / z.samplesPerFrame =
      (before + z.samplesPerFrame - 1) / z.samplesPerFrame + 1 := by
    rcases hcopied with ⟨rfl, hlt, hle⟩ | rfl
    · rw [Nat.zero_add, Nat.zero_add, Nat.div_eq_of_lt (by omega : z.samplesPerFrame - 1 < z.samplesPerFrame)]
      have : copied + z.samplesPerFrame - 1 = (copied - 1) + z.samplesPerFrame := by omega
      rw [this, Nat.add_div_right _ hpos, Nat.div_eq_of_lt (by omega)]
    · rw [← Nat.add_div_right _ hpos]
      congr 1
      omega
  have hdelta := abs_le.1 (z.deltaUs_near copied)
  have hold := abs_le.1 h
  unfold Near
  rw [hone, z.duration_add, abs_le]
  push_cast
  constructor
  · linarith [hdelta.1, hold.1]
  · linarith [hdelta.2, hold.2]

theorem origin_append (calls more : List (List α × Int)) {p : Nat} (hp : p < (stream calls).length) :
    origin (calls ++ more) p = origin calls p := by
  induction calls generalizing p with
  | nil => exact absurd hp (by simp [stream])
  | cons call calls ih =>
    obtain ⟨samples, timestampUs⟩ := call
    rw [List.cons_append, origin, origin]
    split
    · rfl
    · apply ih
      have : (stream ((samples, timestampUs) :: calls)).length = samples.length + (stream calls).length := by
        rw [stream, List.map_cons, List.flatten_cons, List.length_append, stream]
      omega

theorem origin_last (calls : List (List α × Int)) (samples : List α) (timestampUs : Int) {before : Nat}
    (hb : before < samples.length) :
    origin (calls ++ [(samples, timestampUs)]) ((stream calls).length + before) = some (timestampUs, before) := by
  induction calls with
  | nil =>
    rw [List.nil_append, origin, if_pos (by simpa [stream] using hb)]
    simp [stream]
  | cons call calls ih =>
    obtain ⟨s, t⟩ := call
    have hlen : (stream ((s, t) :: calls)).length = s.length + (stream calls).length := by
      rw [stream, List.map_cons, List.flatten_cons, List.length_append, stream]
    rw [List.cons_append, origin, if_neg (by omega), hlen, Nat.add_assoc, Nat.add_sub_cancel_left, ih]

/-! ## One call -/

section

variable [Inhabited α] {z : Layout} {s : Framer α}

theorem Framer.Sized.growTo (hs : s.Sized z) :
    growTo z.samplesPerFrame s.currentFrameBuffer = s.currentFrameBuffer := by
  rw [AudioFraming.growTo, hs.buffer, Nat.sub_self, List.replicate_zero, List.append_nil]

/-- The timestamp of the current frame, once it has samples. -/
def Framer.stamp (s : Framer α) (timestampUs : Int) : Int :=
  if s.currentFrameSamples = 0 then timestampUs else s.currentFrameTimestamp

/-- What is too short to fill the frame stays in it. -/
theorem processAudioFrame_short (hs : s.Sized z) {samples : List α} (hpos : 0 < samples.length)
    (hshort : s.currentFrameSamples + samples.length < z.samplesPerFrame) (timestampUs : Int) :
    processAudioFrame z s samples timestampUs =
      some (⟨copyAt samples s.currentFrameSamples s.currentFrameBuffer, s.currentFrameSamples + samples.length,
        s.stamp timestampUs⟩, []) := by
  have hcopied : samplesToCopy samples.length (z.samplesPerFrame - s.currentFrameSamples) = samples.length :=
    if_pos (by omega)
  have hroom : s.currentFrameSamples + samples.length ≤ s.currentFrameBuffer.length := by
    rw [hs.buffer]
    omega
  rw [processAudioFrame, if_neg (by omega)]
  simp only [hcopied, hs.growTo, List.take_length]
  rw [if_pos hroom, if_neg (by omega)]
  rfl

/-- What fills the frame pushes it, and the rest goes on with an empty frame. -/
theorem processAudioFrame_full (hs : s.Sized z) {samples : List α}
    (hfull : z.samplesPerFrame ≤ s.currentFrameSamples + samples.length) (timestampUs : Int) :
    processAudioFrame z s samples timestampUs =
      (processAudioFrame z
        ⟨copyAt (samples.take (z.samplesPerFrame - s.currentFrameSamples)) s.currentFrameSamples s.currentFrameBuffer,
          0, 0⟩
        (samples.drop (z.samplesPerFrame - s.currentFrameSamples))
        (timestampUs + z.deltaUs (z.samplesPerFrame - s.currentFrameSamples))).map fun r =>
          (r.1, (copyAt (samples.take (z.samplesPerFrame - s.currentFrameSamples)) s.currentFrameSamples
            s.currentFrameBuffer, s.stamp timestampUs) :: r.2) := by
  have hfilled := hs.filled
  have hcopied : samplesToCopy samples.length (z.samplesPerFrame - s.currentFrameSamples) =
      z.samplesPerFrame - s.currentFrameSamples := if_neg (by omega)
  have hroom : s.currentFrameSamples + (z.samplesPerFrame - s.currentFrameSamples) ≤ s.currentFrameBuffer.length := by
    rw [hs.buffer]
    omega
  conv_lhs => rw [processAudioFrame]
  rw [if_neg (by omega)]
  simp only [hcopied, hs.growTo]
  rw [if_pos hroom, if_pos (by omega)]
  by_cases hmore : z.samplesPerFrame - s.currentFrameSamples < samples.length
  · rw [if_pos hmore, if_neg (by omega)]
    unfold Framer.stamp
    generalize (processAudioFrame z _ _ _ : Option (Framer α × List (List α × Int))) = r
    cases r with
    | none => rfl
    | some r => rfl
  · rw [if_neg hmore, List.drop_eq_nil_of_le (by omega)]
    rw [processAudioFrame, if_pos List.length_nil]
    rfl

/-- Places within one frame have one number. -/
theorem div_mod_within {n p m : Nat} (h : p % n + m < n) : (p + m) / n = p / n ∧ (p + m) % n = p % n + m := by
  have hp := Nat.div_add_mod p n
  have heq : p + m = (p % n + m) + n * (p / n) := by omega
  rw [heq, Nat.add_mul_div_left _ _ (by omega), Nat.add_mul_mod_self_left, Nat.div_eq_of_lt h, Nat.mod_eq_of_lt h]
  exact ⟨Nat.zero_add _, rfl⟩

/-- The next frame starts where this one is full. -/
theorem div_mod_next {n p : Nat} (hn : 0 < n) : (p + (n - p % n)) / n = p / n + 1 ∧ (p + (n - p % n)) % n = 0 := by
  have hp := Nat.div_add_mod p n
  have hlt := Nat.mod_lt p hn
  have heq : p + (n - p % n) = n * (p / n + 1) := by
    rw [Nat.mul_add, Nat.mul_one]
    omega
  rw [heq, Nat.mul_div_cancel_left _ hn, Nat.mul_mod_right]
  exact ⟨rfl, rfl⟩

/-- **What a call does.**  `start` is the place of its first sample in the stream, and `before` in its chunk. -/
theorem processAudioFrame_spec (Good : Nat → Int → Prop) {chunkStart chunkLength : Nat} {chunkTime : Int}
    (hgood : ∀ before t, before < chunkLength → (chunkStart + before) % z.samplesPerFrame = 0 →
      Near z chunkTime before t → Good ((chunkStart + before) / z.samplesPerFrame) t)
    (hs : s.Sized z) {samples : List α} {before : Nat} {timestampUs : Int}
    (hlen : before + samples.length = chunkLength)
    (hstart : (chunkStart + before) % z.samplesPerFrame = s.currentFrameSamples)
    (hfirst : before = 0 ∨ s.currentFrameSamples = 0)
    (hnear : Near z chunkTime before timestampUs)
    (hcurrent : 0 < s.currentFrameSamples → Good ((chunkStart + before) / z.samplesPerFrame) s.currentFrameTimestamp) :
    ∃ s' pushed, processAudioFrame z s samples timestampUs = some (s', pushed) ∧ s'.Sized z ∧
      (∀ p ∈ pushed, p.1.length = z.samplesPerFrame) ∧
      (pushed.map Prod.fst).flatten ++ s'.pending = s.pending ++ samples ∧
      (chunkStart + chunkLength) % z.samplesPerFrame = s'.currentFrameSamples ∧
      (∀ j p, pushed[j]? = some p → Good ((chunkStart + before) / z.samplesPerFrame + j) p.2) ∧
      (0 < s'.currentFrameSamples →
        Good ((chunkStart + chunkLength) / z.samplesPerFrame) s'.currentFrameTimestamp) := by
  induction hn : samples.length using Nat.strong_induction_on generalizing s samples before timestampUs with
  | _ n ih =>
  subst hn
  rcases Nat.eq_zero_or_pos samples.length with hzero | hpos
  · have hnil : samples = [] := List.eq_nil_of_length_eq_zero hzero
    have hend : before = chunkLength := by omega
    subst hnil hend
    refine ⟨s, [], by rw [processAudioFrame, if_pos hzero], hs, by simp, by simp, hstart, by simp, hcurrent⟩
  -- the frame that is being filled starts here, or before the chunk
  have hstamp : Good ((chunkStart + before) / z.samplesPerFrame) (s.stamp timestampUs) := by
    unfold Framer.stamp
    split
    · rename_i hk
      exact hgood before timestampUs (by omega) (by rw [hstart, hk]) hnear
    · rename_i hk
      exact hcurrent (Nat.pos_of_ne_zero hk)
  rcases Nat.lt_or_ge (s.currentFrameSamples + samples.length) z.samplesPerFrame with hshort | hfull
  · have hroom : s.currentFrameSamples + samples.length ≤ s.currentFrameBuffer.length := by
      rw [hs.buffer]
      omega
    have hwithin := div_mod_within (n := z.samplesPerFrame) (p := chunkStart + before) (m := samples.length)
      (by rw [hstart]; exact hshort)
    rw [Nat.add_assoc, hlen, hstart] at hwithin
    refine ⟨_, _, processAudioFrame_short hs hpos hshort timestampUs, ⟨?_, hshort⟩, by simp, ?_, hwithin.2, by simp, ?_⟩
    · rw [length_copyAt hroom, hs.buffer]
    · exact take_copyAt hroom
    · intro _
      rw [hwithin.1]
      exact hstamp
  · have hfilled := hs.filled
    have htake : (samples.take (z.samplesPerFrame - s.currentFrameSamples)).length =
        z.samplesPerFrame - s.currentFrameSamples := by
      rw [List.length_take]
      omega
    have hroom : s.currentFrameSamples + (samples.take (z.samplesPerFrame - s.currentFrameSamples)).length ≤
        s.currentFrameBuffer.length := by
      rw [hs.buffer, htake]
      omega
    have hframe := take_copyAt hroom
    have hsize := length_copyAt hroom
    rw [hs.buffer] at hsize
    rw [htake, Nat.add_sub_cancel' hfilled.le, List.take_of_length_le hsize.le] at hframe
    have hnext := div_mod_next (n := z.samplesPerFrame) (p := chunkStart + before) z.pos
    rw [hstart, Nat.add_assoc] at hnext
    have hdrop : (samples.drop (z.samplesPerFrame - s.currentFrameSamples)).length =
        samples.length - (z.samplesPerFrame - s.currentFrameSamples) := List.length_drop
    have hadvance : Near z chunkTime (before + (z.samplesPerFrame - s.currentFrameSamples))
        (timestampUs + z.deltaUs (z.samplesPerFrame - s.currentFrameSamples)) := hnear.advance (by omega)
    obtain ⟨s', pushed, hrun, hs', hlens, hflat, hend, hstamps, hlast⟩ :=
      ih _ (by rw [hdrop]; omega)
        (s := ⟨copyAt (samples.take (z.samplesPerFrame - s.currentFrameSamples)) s.currentFrameSamples
          s.currentFrameBuffer, 0, 0⟩) ⟨hsize, z.pos⟩ (by rw [hdrop]; omega) hnext.2 (Or.inr rfl) hadvance
        (fun h => absurd h (Nat.lt_irrefl 0)) rfl
    refine ⟨s', _, by rw [processAudioFrame_full hs hfull, hrun]; rfl, hs', ?_, ?_, hend, ?_, hlast⟩
    · intro p hp
      rcases List.mem_cons.1 hp with rfl | hp
      · exact hsize
      · exact hlens p hp
    · rw [List.map_cons, List.flatten_cons, List.append_assoc, hflat, hframe]
      simp [Framer.pending]
    · intro j p hj
      cases j with
      | zero =>
        rw [List.getElem?_cons_zero, Option.some.injEq] at hj
        rw [← hj]
        exact hstamp
      | succ j =>
        rw [List.getElem?_cons_succ] at hj
        have := hstamps j p hj
        rw [hnext.1] at this
        rw [Nat.add_comm j 1, ← Nat.add_assoc]
        exact this

end

/-! ## All calls -/

theorem length_stream_concat (calls : List (List α × Int)) (samples : List α) (timestampUs : Int) :
    (stream (calls ++ [(samples, timestampUs)])).length = (stream calls).length + samples.length := by
  simp [stream]

theorem lt_of_origin {calls : List (List α × Int)} {p : Nat} {found : Int × Nat} (h : origin calls p = some found) :
    p < (stream calls).length := by
  induction calls generalizing p with
  | nil => exact absurd h (by simp [origin])
  | cons call calls ih =>
    obtain ⟨samples, timestampUs⟩ := call
    have hlen : (stream ((samples, timestampUs) :: calls)).length = samples.length + (stream calls).length := by
      simp [stream]
    rw [origin] at h
    split at h
    · omega
    · have := ih h
      omega

theorem Stamped.append {z : Layout} {calls : List (List α × Int)} {frame : Nat} {t : Int}
    (h : Stamped z calls frame t) (more : List (List α × Int)) : Stamped z (calls ++ more) frame t := by
  obtain ⟨timestampUs, before, horigin, hnear⟩ := h
  exact ⟨timestampUs, before, (origin_append calls more (lt_of_origin horigin)).trans horigin, hnear⟩

theorem length_flatten_of_sized {n : Nat} {frames : List (List α)} (h : ∀ frame ∈ frames, frame.length = n) :
    frames.flatten.length = frames.length * n := by
  induction frames with
  | nil => simp
  | cons frame frames ih =>
    rw [List.flatten_cons, List.length_append, h frame List.mem_cons_self, List.length_cons,
      ih fun f hf => h f (List.mem_cons_of_mem _ hf), Nat.succ_mul, Nat.add_comm]

theorem processAll_spec [Inhabited α] {z : Layout} (calls : List (List α × Int)) :
    ∀ (done : List (List α × Int)) (s : Framer α), s.Sized z →
      (stream done).length % z.samplesPerFrame = s.currentFrameSamples →
      (0 < s.currentFrameSamples → Stamped z done ((stream done).length / z.samplesPerFrame) s.currentFrameTimestamp) →
      ∃ s' pushed, processAll z s calls = some (s', pushed) ∧ s'.Sized z ∧
        (∀ p ∈ pushed, p.1.length = z.samplesPerFrame) ∧
        (pushed.map Prod.fst).flatten ++ s'.pending = s.pending ++ stream calls ∧
        ∀ j p, pushed[j]? = some p →
          Stamped z (done ++ calls) ((stream done).length / z.samplesPerFrame + j) p.2 := by
  induction calls with
  | nil =>
    intro done s hs _ _
    exact ⟨s, [], rfl, hs, by simp, by simp [stream], by simp⟩
  | cons call calls ih =>
    obtain ⟨samples, timestampUs⟩ := call
    intro done s hs hstart hcurrent
    have hgood : ∀ before t, before < samples.length →
        ((stream done).length + before) % z.samplesPerFrame = 0 → Near z timestampUs before t →
        Stamped z (done ++ [(samples, timestampUs)]) (((stream done).length + before) / z.samplesPerFrame) t := by
      intro before t hb hmod hnear
      refine ⟨timestampUs, before, ?_, hnear⟩
      rw [Nat.div_mul_cancel (Nat.dvd_of_mod_eq_zero hmod), origin_last done samples timestampUs hb]
    obtain ⟨s₁, pushed, hrun, hs₁, hlens, hflat, hend, hstamps, hlast⟩ :=
      processAudioFrame_spec _ hgood hs (Nat.zero_add _) hstart (Or.inl rfl) (Near.start z timestampUs)
        fun hk => (hcurrent hk).append _
    have hlength := length_stream_concat done samples timestampUs
    obtain ⟨s', rest, hrest, hs', hlens', hflat', hstamps'⟩ := ih (done ++ [(samples, timestampUs)]) s₁ hs₁
      (by rw [hlength]; exact hend) (by rw [hlength]; exact hlast)
    rw [List.append_assoc, List.singleton_append, hlength] at hstamps'
    -- the frames pushed so far have moved the number of the next one
    have hcount : ((stream done).length + samples.length) / z.samplesPerFrame =
        (stream done).length / z.samplesPerFrame + pushed.length := by
      have hsum := congrArg List.length hflat
      rw [List.length_append, List.length_append, length_flatten_of_sized (n := z.samplesPerFrame) (by
        intro f hf
        obtain ⟨p, hp, rfl⟩ := List.mem_map.1 hf
        exact hlens p hp), List.length_map, Framer.pending, Framer.pending, List.length_take, List.length_take,
        hs.buffer, hs₁.buffer, min_eq_left hs.filled.le, min_eq_left hs₁.filled.le, ← hstart] at hsum
      have hp := Nat.div_add_mod (stream done).length z.samplesPerFrame
      have heq : (stream done).length + samples.length =
          s₁.currentFrameSamples + z.samplesPerFrame * ((stream done).length / z.samplesPerFrame + pushed.length) := by
        rw [Nat.mul_add, Nat.mul_comm _ pushed.length]
        omega
      rw [heq, Nat.add_mul_div_left _ _ z.pos, Nat.div_eq_of_lt hs₁.filled, Nat.zero_add]
    refine ⟨s', pushed ++ rest, ?_, hs', ?_, ?_, ?_⟩
    · rw [processAll, hrun]
      change (processAll z s₁ calls).bind _ = _
      rw [hrest]
      rfl
    · intro p hp
      rcases List.mem_append.1 hp with hp | hp
      · exact hlens p hp
      · exact hlens' p hp
    · rw [List.map_append, List.flatten_append, List.append_assoc, hflat', ← List.append_assoc, hflat,
        List.append_assoc]
      rfl
    · intro j p hj
      rcases Nat.lt_or_ge j pushed.length with hlt | hge
      · rw [List.getElem?_append_left hlt] at hj
        have := (hstamps j p hj).append calls
        rw [List.append_assoc] at this
        exact this
      · rw [List.getElem?_append_right hge] at hj
        have := hstamps' _ p hj
        rw [hcount, Nat.add_assoc, Nat.add_sub_cancel' hge] at this
        exact this

/-! ## The ring -/

def ringBufferSize : Nat := 3

/-- The ring of the frames for the encoder; timestamps are apart from the frames. -/
structure FrameRing (α : Type*) where
  frameRingBuffer : List (List α)
  frameTimestamps : List Int
  ringBufferWriteIndex : Nat := 0
  ringBufferReadIndex : Nat := 0
  ringBufferCount : Nat := 0
  droppedCaptureFrames : Nat := 0
  deriving DecidableEq, Repr

/-- `InitializeRingBuffer` -/
def initializeRingBuffer [Inhabited α] (z : Layout) : FrameRing α where
  frameRingBuffer := List.replicate ringBufferSize (List.replicate z.samplesPerFrame default)
  frameTimestamps := List.replicate ringBufferSize 0

namespace FrameRing

/-- The oldest frame goes where there is no room. -/
def makeRoom (r : FrameRing α) : FrameRing α :=
  if ringBufferSize ≤ r.ringBufferCount then { r with
    ringBufferReadIndex := (r.ringBufferReadIndex + 1) % ringBufferSize
    ringBufferCount := r.ringBufferCount - 1
    droppedCaptureFrames := r.droppedCaptureFrames + 1 }
  else r

/-- `PushFrameToRingBuffer` -/
def push (r : FrameRing α) (frame : List α) (timestamp : Int) : Bool × FrameRing α :=
  let slot := r.frameRingBuffer.getD r.ringBufferWriteIndex default
  if slot.length < frame.length then (false, r)
  else
    let r := r.makeRoom
    (true, { r with
      frameRingBuffer := r.frameRingBuffer.set r.ringBufferWriteIndex (copyAt frame 0 slot)
      frameTimestamps := r.frameTimestamps.set r.ringBufferWriteIndex timestamp
      ringBufferWriteIndex := (r.ringBufferWriteIndex + 1) % ringBufferSize
      ringBufferCount := r.ringBufferCount + 1 })

/-- `PopFrameFromRingBuffer` -/
def pop (r : FrameRing α) : Option (List α × Int) × FrameRing α :=
  if r.ringBufferCount = 0 then (none, r)
  else
    (some (r.frameRingBuffer.getD r.ringBufferReadIndex default, r.frameTimestamps.getD r.ringBufferReadIndex default),
      { r with
        ringBufferReadIndex := (r.ringBufferReadIndex + 1) % ringBufferSize
        ringBufferCount := r.ringBufferCount - 1 })

/-- The frames in the ring with their timestamps, the oldest first. -/
def held (r : FrameRing α) : List (List α × Int) :=
  (window r.frameRingBuffer r.ringBufferReadIndex r.ringBufferCount).zip
    (window r.frameTimestamps r.ringBufferReadIndex r.ringBufferCount)

/-- The ring as `InitializeRingBuffer` makes it for frames of `n` samples, and as its users leave it. -/
structure Ready (n : Nat) (r : FrameRing α) : Prop where
  frames : r.frameRingBuffer.length = ringBufferSize
  slots : ∀ slot ∈ r.frameRingBuffer, slot.length = n
  timestamps : r.frameTimestamps.length = ringBufferSize
  read : r.ringBufferReadIndex < ringBufferSize
  write : r.ringBufferWriteIndex = (r.ringBufferReadIndex + r.ringBufferCount) % ringBufferSize
  count : r.ringBufferCount ≤ ringBufferSize

theorem ready_initial [Inhabited α] (z : Layout) :
    (initializeRingBuffer z : FrameRing α).Ready z.samplesPerFrame := by
  refine ⟨List.length_replicate, ?_, List.length_replicate, Nat.succ_pos _, rfl, Nat.zero_le _⟩
  intro slot hslot
  rw [(List.mem_replicate.1 hslot).2, List.length_replicate]

variable {n : Nat} {r : FrameRing α}

@[simp] theorem length_held (r : FrameRing α) : r.held.length = r.ringBufferCount := by
  rw [held, List.length_zip, RingQueue.length_window, RingQueue.length_window, Nat.min_self]

/-- Where the ring is full, its oldest frame is given up. -/
theorem Ready.makeRoom (h : r.Ready n) :
    r.makeRoom.Ready n ∧ r.makeRoom.ringBufferCount < ringBufferSize ∧
      r.makeRoom.ringBufferWriteIndex = r.ringBufferWriteIndex ∧
      r.makeRoom.held = (if r.held.length < ringBufferSize then r.held else r.held.tail) ∧
      r.makeRoom.droppedCaptureFrames =
        if r.held.length < ringBufferSize then r.droppedCaptureFrames else r.droppedCaptureFrames + 1 := by
  rw [length_held]
  unfold FrameRing.makeRoom
  by_cases hfull : ringBufferSize ≤ r.ringBufferCount
  · rw [if_pos hfull, if_neg (by omega), if_neg (by omega)]
    have hcount : r.ringBufferCount = ringBufferSize := Nat.le_antisymm h.count hfull
    refine ⟨⟨h.frames, h.slots, h.timestamps, Nat.mod_lt _ (by decide), ?_, ?_⟩, ?_, rfl, ?_, rfl⟩
    · change r.ringBufferWriteIndex =
        ((r.ringBufferReadIndex + 1) % ringBufferSize + (r.ringBufferCount - 1)) % ringBufferSize
      rw [h.write, hcount, Nat.mod_add_mod]
      rfl
    · change r.ringBufferCount - 1 ≤ ringBufferSize
      omega
    · change r.ringBufferCount - 1 < ringBufferSize
      rw [hcount]
      decide
    · unfold held
      obtain ⟨k, hk⟩ : ∃ k, r.ringBufferCount = k + 1 := ⟨2, hcount⟩
      rw [hk, RingQueue.window_pop, RingQueue.window_pop, h.frames, h.timestamps]
      rfl
  · rw [if_neg hfull, if_pos (by omega), if_pos (by omega)]
    exact ⟨h, by omega, rfl, rfl, rfl⟩

/-- **A frame of the size of the slots is taken.** -/
theorem Ready.push (h : r.Ready n) {frame : List α} (hframe : frame.length = n) (timestamp : Int) :
    (r.push frame timestamp).1 = true ∧ (r.push frame timestamp).2.Ready n ∧
      (r.push frame timestamp).2.held = RingQueue.pushed ringBufferSize r.held (frame, timestamp) ∧
      (r.push frame timestamp).2.droppedCaptureFrames =
        if r.held.length < ringBufferSize then r.droppedCaptureFrames else r.droppedCaptureFrames + 1 := by
  obtain ⟨hready, hroom, hwrite, hheld, hdropped⟩ := h.makeRoom
  have hindex : r.ringBufferWriteIndex < r.frameRingBuffer.length := by
    rw [h.write, h.frames]
    exact Nat.mod_lt _ (by decide)
  have hslot : (r.frameRingBuffer.getD r.ringBufferWriteIndex default).length = n := by
    rw [List.getD_eq_getElem?_getD, List.getElem?_eq_getElem hindex, Option.getD_some]
    exact h.slots _ (List.getElem_mem hindex)
  have hcopy : copyAt frame 0 (r.frameRingBuffer.getD r.ringBufferWriteIndex default) = frame := by
    rw [copyAt, List.take_zero, List.nil_append, Nat.zero_add, List.drop_eq_nil_of_le (by omega), List.append_nil]
  have hpush : r.push frame timestamp = (true, { r.makeRoom with
      frameRingBuffer := r.makeRoom.frameRingBuffer.set r.makeRoom.ringBufferWriteIndex frame
      frameTimestamps := r.makeRoom.frameTimestamps.set r.makeRoom.ringBufferWriteIndex timestamp
      ringBufferWriteIndex := (r.makeRoom.ringBufferWriteIndex + 1) % ringBufferSize
      ringBufferCount := r.makeRoom.ringBufferCount + 1 }) := by
    rw [FrameRing.push]
    simp only [hcopy]
    rw [if_neg (by omega)]
  rw [hpush]
  refine ⟨rfl, ⟨?_, ?_, ?_, hready.read, ?_, hroom⟩, ?_, hdropped⟩
  · exact List.length_set.trans hready.frames
  · intro slot hmem
    rcases List.mem_or_eq_of_mem_set hmem with hmem | rfl
    · exact hready.slots slot hmem
    · exact hframe
  · exact List.length_set.trans hready.timestamps
  · change (r.makeRoom.ringBufferWriteIndex + 1) % ringBufferSize =
      (r.makeRoom.ringBufferReadIndex + (r.makeRoom.ringBufferCount + 1)) % ringBufferSize
    rw [hready.write, Nat.mod_add_mod, Nat.add_assoc]
  · have hframes := RingQueue.window_push r.makeRoom.frameRingBuffer r.makeRoom.ringBufferReadIndex
      (by rw [hready.frames]; exact hroom) frame
    have htimes := RingQueue.window_push r.makeRoom.frameTimestamps r.makeRoom.ringBufferReadIndex
      (by rw [hready.timestamps]; exact hroom) timestamp
    rw [hready.frames, ← hready.write] at hframes
    rw [hready.timestamps, ← hready.write] at htimes
    rw [RingQueue.pushed, ← hheld]
    unfold held
    dsimp only
    rw [hframes, htimes, List.zip_append (by simp)]
    rfl

/-- The oldest frame is taken, where there is one. -/
theorem Ready.pop (h : r.Ready n) :
    r.pop.1 = r.held.head? ∧ r.pop.2.Ready n ∧ r.pop.2.held = r.held.tail ∧
      r.pop.2.droppedCaptureFrames = r.droppedCaptureFrames := by
  unfold FrameRing.pop
  by_cases hzero : r.ringBufferCount = 0
  · rw [if_pos hzero]
    have hnil : r.held = [] := List.eq_nil_of_length_eq_zero (by rw [length_held, hzero])
    exact ⟨by rw [hnil]; rfl, h, by rw [hnil]; rfl, rfl⟩
  · rw [if_neg hzero]
    obtain ⟨k, hk⟩ := Nat.exists_eq_succ_of_ne_zero hzero
    have hheld : r.held = (r.frameRingBuffer.getD r.ringBufferReadIndex default,
        r.frameTimestamps.getD r.ringBufferReadIndex default) ::
        (window r.frameRingBuffer ((r.ringBufferReadIndex + 1) % ringBufferSize) k).zip
          (window r.frameTimestamps ((r.ringBufferReadIndex + 1) % ringBufferSize) k) := by
      unfold held
      rw [hk, Nat.succ_eq_add_one, RingQueue.window_pop, RingQueue.window_pop, h.frames, h.timestamps,
        Nat.mod_eq_of_lt h.read]
      rfl
    have hcount := h.count
    refine ⟨by rw [hheld]; rfl, ⟨h.frames, h.slots, h.timestamps, Nat.mod_lt _ (by decide), ?_, ?_⟩, ?_, rfl⟩
    · change r.ringBufferWriteIndex =
        ((r.ringBufferReadIndex + 1) % ringBufferSize + (r.ringBufferCount - 1)) % ringBufferSize
      rw [h.write, Nat.mod_add_mod]
      congr 1
      omega
    · exact (Nat.sub_le _ _).trans hcount
    · rw [hheld]
      unfold held
      dsimp only
      rw [hk]
      rfl

end FrameRing

/-- What the capture thread and the encoder thread do to the ring; frames are of the size they were set up for. -/
inductive RingOp (α : Type*) (n : Nat) where
  | push (frame : List α) (sized : frame.length = n) (timestamp : Int)
  | pop

/-- The ring, and what has been pushed and popped. -/
structure RingRun (α : Type*) where
  ring : FrameRing α
  pushed : List (List α × Int) := []
  popped : List (List α × Int) := []

variable {n : Nat}

def RingRun.step (s : RingRun α) : RingOp α n → RingRun α
  | .push frame _ timestamp =>
    { s with
      ring := (s.ring.push frame timestamp).2
      pushed := if (s.ring.push frame timestamp).1 then s.pushed ++ [(frame, timestamp)] else s.pushed }
  | .pop => { s with ring := s.ring.pop.2, popped := s.popped ++ s.ring.pop.1.toList }

def RingRun.run (s : RingRun α) (ops : List (RingOp α n)) : RingRun α := ops.foldl RingRun.step s

/-- The frames of the pushes. -/
def puts : List (RingOp α n) → List (List α × Int)
  | [] => []
  | .push frame _ timestamp :: ops => (frame, timestamp) :: puts ops
  | .pop :: ops => puts ops

/-- The ring is the bounded queue of what was pushed. -/
structure RingRun.Sound (n : Nat) (s : RingRun α) : Prop where
  ready : s.ring.Ready n
  queue : RingQueue.Overwrites ringBufferSize s.pushed s.popped s.ring.held s.ring.droppedCaptureFrames

theorem RingRun.Sound.step {s : RingRun α} (h : s.Sound n) (op : RingOp α n) :
    (s.step op).Sound n ∧ (s.step op).pushed = s.pushed ++ puts [op] := by
  cases op with
  | push frame sized timestamp =>
    obtain ⟨htrue, hready, hheld, hdropped⟩ := h.ready.push sized timestamp
    have hpushed : (s.step (.push frame sized timestamp)).pushed = s.pushed ++ [(frame, timestamp)] := if_pos htrue
    refine ⟨⟨hready, ?_⟩, hpushed⟩
    rw [hpushed]
    change RingQueue.Overwrites ringBufferSize _ s.popped (s.ring.push frame timestamp).2.held
      (s.ring.push frame timestamp).2.droppedCaptureFrames
    rw [hheld, hdropped]
    exact h.queue.push (by decide) (frame, timestamp)
  | pop =>
    obtain ⟨hhead, hready, hheld, hdropped⟩ := h.ready.pop
    refine ⟨⟨hready, ?_⟩, (List.append_nil _).symm⟩
    change RingQueue.Overwrites ringBufferSize s.pushed (s.popped ++ s.ring.pop.1.toList) s.ring.pop.2.held
      s.ring.pop.2.droppedCaptureFrames
    have hqueue := h.queue
    rw [hhead, hheld, hdropped]
    cases hq : s.ring.held with
    | nil =>
      rw [hq] at hqueue
      simpa using hqueue
    | cons oldest rest =>
      rw [hq] at hqueue
      exact hqueue.pop

theorem RingRun.Sound.run {s : RingRun α} (h : s.Sound n) (ops : List (RingOp α n)) :
    (s.run ops).Sound n ∧ (s.run ops).pushed = s.pushed ++ puts ops := by
  induction ops generalizing s with
  | nil => exact ⟨h, (List.append_nil _).symm⟩
  | cons op ops ih =>
    obtain ⟨hstep, hpushed⟩ := h.step op
    obtain ⟨hrun, hrest⟩ := ih hstep
    refine ⟨hrun, ?_⟩
    change ((s.step op).run ops).pushed = _
    rw [hrest, hpushed, List.append_assoc]
    cases op with
    | push frame sized timestamp => rfl
    | pop => rfl

theorem RingRun.sound_initial [Inhabited α] (z : Layout) :
    (⟨initializeRingBuffer z, [], []⟩ : RingRun α).Sound z.samplesPerFrame :=
  ⟨FrameRing.ready_initial z, RingQueue.Overwrites.empty ringBufferSize⟩

/-- **The frames are the blocks of the stream however it is cut, and the ring keeps the newest.** -/
theorem framing_independent_of_chunking [Inhabited α] (z : Layout) :
    (∀ calls : List (List α × Int), ∃ s pushed,
      processAll z ⟨List.replicate z.samplesPerFrame default, 0, 0⟩ calls = some (s, pushed) ∧
        pushed.map Prod.fst = blocks z.samplesPerFrame (stream calls) ∧
        s.pending = (stream calls).drop ((stream calls).length / z.samplesPerFrame * z.samplesPerFrame) ∧
        ∀ i p, pushed[i]? = some p → p.1.length = z.samplesPerFrame ∧ Stamped z calls i p.2) ∧
    ∀ ops : List (RingOp α z.samplesPerFrame), ∃ r : RingRun α,
      r = RingRun.run ⟨initializeRingBuffer z, [], []⟩ ops ∧ r.pushed = puts ops ∧
        List.Sublist r.popped r.pushed ∧ List.IsSuffix r.ring.held r.pushed ∧ r.ring.held.length ≤ ringBufferSize ∧
        r.ring.droppedCaptureFrames + r.popped.length + r.ring.held.length = r.pushed.length ∧
        (∀ frame sized timestamp, (r.step (n := z.samplesPerFrame) (.push frame sized timestamp)).ring.held =
          (if r.ring.held.length < ringBufferSize then r.ring.held else r.ring.held.tail) ++ [(frame, timestamp)]) ∧
        (r.step (n := z.samplesPerFrame) .pop).ring.held = r.ring.held.tail ∧
        (r.step (n := z.samplesPerFrame) .pop).popped = r.popped ++ r.ring.held.head?.toList := by
  constructor
  · intro calls
    obtain ⟨s, pushed, hrun, hs, hlens, hflat, hstamps⟩ :=
      processAll_spec (z := z) calls [] ⟨List.replicate z.samplesPerFrame default, 0, 0⟩
        ⟨List.length_replicate, z.pos⟩ (Nat.zero_mod _) (fun h => absurd h (Nat.lt_irrefl 0))
    have hpending : s.pending.length < z.samplesPerFrame := by
      rw [Framer.pending, List.length_take, hs.buffer]
      exact (Nat.min_le_left _ _).trans_lt hs.filled
    have hflat' : (pushed.map Prod.fst).flatten ++ s.pending = stream calls := by
      rw [hflat, Framer.pending, List.take_zero, List.nil_append]
    obtain ⟨hblocks, hrest⟩ := blocks_unique z.pos (by
      intro f hf
      obtain ⟨p, hp, rfl⟩ := List.mem_map.1 hf
      exact hlens p hp) hpending hflat'
    refine ⟨s, pushed, hrun, hblocks, hrest, ?_⟩
    intro i p hp
    have hstamp := hstamps i p hp
    rw [List.nil_append] at hstamp
    refine ⟨hlens p (List.mem_of_getElem? hp), ?_⟩
    simpa [stream] using hstamp
  · intro ops
    obtain ⟨hsound, hpushed⟩ := (RingRun.sound_initial (α := α) z).run ops
    refine ⟨_, rfl, hpushed, hsound.queue.taken_sublist, ?_, hsound.queue.le_bound, hsound.queue.dropped_eq, ?_, ?_, ?_⟩
    · obtain ⟨gone, hsplit, -, -⟩ := hsound.queue.split
      exact ⟨gone, hsplit.symm⟩
    · intro frame sized timestamp
      exact (hsound.ready.push sized timestamp).2.2.1
    · exact hsound.ready.pop.2.2.1
    · exact congrArg (fun o => _ ++ o.toList) hsound.ready.pop.1

end AudioFraming
end Host
end CloudGaming
