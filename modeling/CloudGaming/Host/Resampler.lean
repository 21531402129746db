import Mathlib.Algebra.Order.Floor.Semiring
import Mathlib.Data.Rat.Floor
import Mathlib.Tactic.Linarith
import Mathlib.Tactic.FieldSimp
import Mathlib.Tactic.Ring
/-!
# Resampler — captured audio brought to 48 kHz, chunk by chunk

`ResampleTo48kInPlace` takes the DMO of Windows or interpolates linearly.  The linear path starts every chunk at its
first frame and rounds its length up; the phase and the remainder it keeps are read by nothing.  The ratio of the rates
is exact, a sample is of any type with an interpolation, and the DMO is a parameter.
-/
namespace CloudGaming
namespace Host
namespace Resampler

/-- The two switches of `s_audioConfig.wasapi`. -/
structure Preference where
  preferLinearResampling : Bool
  useDmoOnlyForHighQuality : Bool
  deriving DecidableEq, Repr

/-- What is kept between the calls; `audioTempBuffer` is global. -/
structure State (α : Type*) where
  resampleRemainder : List α := []
  resamplePhase : ℚ := 0
  lastInputRate : Nat := 0
  audioTempBuffer : List α := []
  deriving DecidableEq, Repr

/-- The samples, and how many frames of them the device delivered. -/
structure Chunk (α : Type*) where
  buffer : List α
  inFrames : Nat
  deriving DecidableEq, Repr

def ratio (inRate : Nat) : ℚ := 48000 / inRate

def outFrames (inRate inFrames : Nat) : Nat := ⌈inFrames * ratio inRate⌉₊

section

variable {α : Type*} [Inhabited α]

/-- `std::vector::resize` -/
def resize (n : Nat) (buffer : List α) : List α := buffer.take n ++ List.replicate (n - buffer.length) default

@[simp] theorem length_resize (n : Nat) (buffer : List α) : (resize n buffer).length = n := by
  rw [resize, List.length_append, List.length_take, List.length_replicate]
  omega

variable (lerp : α → α → ℚ → α)

/-- One sample of the output, where its sources are in the buffer. -/
def writeSample (buffer : List α) (inFrames inRate channels o : Nat) (temp : List α) (ch : Nat) : List α :=
  let srcPos := o / ratio inRate
  let srcFrame := ⌊srcPos⌋₊
  let dstIdx := o * channels + ch
  if inFrames - 1 ≤ srcFrame then
    match buffer[(inFrames - 1) * channels + ch]? with
    | some s => temp.set dstIdx s
    | none => temp
  else
    match buffer[srcFrame * channels + ch]?,
      buffer[(if srcFrame + 1 < inFrames then srcFrame + 1 else srcFrame) * channels + ch]? with
    | some s0, some s1 => temp.set dstIdx (lerp s0 s1 (srcPos - srcFrame))
    | _, _ => temp

/-- The frames of the output. -/
def writeFrames (buffer : List α) (inFrames inRate channels : Nat) (temp : List α) : List α :=
  (List.range (outFrames inRate inFrames)).foldl
    (fun temp o => (List.range channels).foldl (writeSample lerp buffer inFrames inRate channels o) temp) temp

/-- The last frame of the input. -/
def saveRemainder (buffer : List α) (inFrames channels : Nat) (remainder : List α) : List α :=
  (List.range channels).foldl
    (fun remainder ch =>
      match buffer[(inFrames - 1) * channels + ch]? with
      | some s => remainder.set ch s
      | none => remainder)
    (resize channels remainder)

/-- The linear path of `ResampleTo48kInPlace`. -/
def linear (s : State α) (chunk : Chunk α) (inRate channels : Nat) : State α × List α :=
  let outputSamples := outFrames inRate chunk.inFrames * channels
  let buffer := if chunk.buffer.length < outputSamples then resize outputSamples chunk.buffer else chunk.buffer
  let s := if s.lastInputRate ≠ inRate then
      { s with resamplePhase := 0, resampleRemainder := List.replicate channels default, lastInputRate := inRate }
    else s
  let temp := writeFrames lerp buffer chunk.inFrames inRate channels (resize outputSamples s.audioTempBuffer)
  let remainder := if 0 < chunk.inFrames then saveRemainder buffer chunk.inFrames channels s.resampleRemainder
    else s.resampleRemainder
  ({ s with resampleRemainder := remainder, audioTempBuffer := temp },
    resize outputSamples (temp.take outputSamples ++ buffer.drop outputSamples))

/-- What the DMO makes of the buffer, where it is asked and succeeds. -/
def tryDmo (prefer : Preference) (dmo : Nat → Nat → List α → Option (List α)) (inRate channels : Nat)
    (buffer : List α) : Option (List α) :=
  if prefer.preferLinearResampling && !prefer.useDmoOnlyForHighQuality && inRate ≠ 44100 then none
  else dmo inRate channels buffer

def resampleTo48kInPlace (prefer : Preference) (dmo : Nat → Nat → List α → Option (List α)) (s : State α)
    (chunk : Chunk α) (inRate channels : Nat) : State α × List α :=
  if inRate = 48000 then (s, chunk.buffer)
  else
    match tryDmo prefer dmo inRate channels chunk.buffer with
    | some buffer => (s, buffer)
    | none => linear lerp s chunk inRate channels

/-- The buffers of the chunks of a stream, resampled one after the other. -/
def resampleAll (prefer : Preference) (dmo : Nat → Nat → List α → Option (List α)) (inRate channels : Nat) :
    State α → List (Chunk α) → List (List α)
  | _, [] => []
  | s, chunk :: chunks =>
    (resampleTo48kInPlace lerp prefer dmo s chunk inRate channels).2 ::
      resampleAll prefer dmo inRate channels (resampleTo48kInPlace lerp prefer dmo s chunk inRate channels).1 chunks

/-- The frames of interleaved samples. -/
def framesOf (channels : Nat) (buffer : List α) : Nat := buffer.length / channels

theorem length_linear (s : State α) (chunk : Chunk α) (inRate channels : Nat) :
    (linear lerp s chunk inRate channels).2.length = outFrames inRate chunk.inFrames * channels := by
  rw [linear]
  exact length_resize _ _

/-- On the linear path every chunk is as long as its own length rounded up. -/
theorem framesOf_resampleAll {prefer : Preference} {dmo : Nat → Nat → List α → Option (List α)} {inRate channels : Nat}
    (hrate : inRate ≠ 48000) (hchannels : 0 < channels)
    (hlinear : ∀ buffer, tryDmo prefer dmo inRate channels buffer = none) (s : State α) (chunks : List (Chunk α)) :
    (resampleAll lerp prefer dmo inRate channels s chunks).map (framesOf channels) =
      chunks.map fun chunk => outFrames inRate chunk.inFrames := by
  induction chunks generalizing s with
  | nil => rfl
  | cons chunk chunks ih =>
    rw [resampleAll, List.map_cons, List.map_cons, ih]
    congr 1
    rw [resampleTo48kInPlace, if_neg hrate, hlinear]
    dsimp only
    rw [framesOf, length_linear, Nat.mul_div_cancel _ hchannels]

end

/-! ## Rounding -/

/-- What rounding up adds to a chunk, in units of which `inRate` make an output frame. -/
def excess (inRate inFrames : Nat) : Nat := (inRate - 48000 * inFrames % inRate) % inRate

theorem outFrames_mul {inRate : Nat} (hrate : 0 < inRate) (inFrames : Nat) :
    outFrames inRate inFrames * inRate = 48000 * inFrames + excess inRate inFrames := by
  have hdvd : inRate ∣ 48000 * inFrames + excess inRate inFrames := by
    have hmod := Nat.div_add_mod (48000 * inFrames) inRate
    have hlt := Nat.mod_lt (48000 * inFrames) hrate
    unfold excess
    rcases Nat.eq_zero_or_pos (48000 * inFrames % inRate) with hzero | hpos
    · rw [hzero, Nat.sub_zero, Nat.mod_self, Nat.add_zero]
      exact Nat.dvd_of_mod_eq_zero hzero
    · rw [Nat.mod_eq_of_lt (by omega)]
      refine ⟨48000 * inFrames / inRate + 1, ?_⟩
      rw [Nat.mul_add, Nat.mul_one]
      omega
  obtain ⟨k, hk⟩ := hdvd
  have hlt : excess inRate inFrames < inRate := Nat.mod_lt _ hrate
  have hpos : (0 : ℚ) < inRate := by exact_mod_cast hrate
  have hcast : (48000 : ℚ) * inFrames + excess inRate inFrames = inRate * k := by exact_mod_cast hk
  have hltq : (excess inRate inFrames : ℚ) < inRate := by exact_mod_cast hlt
  have hnonneg : (0 : ℚ) ≤ excess inRate inFrames := Nat.cast_nonneg _
  have hvalue : (inFrames : ℚ) * ratio inRate * inRate = 48000 * inFrames := by
    unfold ratio
    field_simp
  have hceil : outFrames inRate inFrames = k := by
    apply Nat.le_antisymm
    · apply Nat.ceil_le.2
      nlinarith
    · by_contra hless
      have hle : outFrames inRate inFrames ≤ k - 1 := by omega
      have hq : (inFrames : ℚ) * ratio inRate ≤ (k - 1 : Nat) := Nat.ceil_le.1 hle
      rw [Nat.cast_pred (by omega)] at hq
      nlinarith
  rw [hceil, hk, Nat.mul_comm]

theorem sum_outFrames_mul {inRate : Nat} (hrate : 0 < inRate) (lengths : List Nat) :
    (lengths.map (outFrames inRate)).sum * inRate = 48000 * lengths.sum + (lengths.map (excess inRate)).sum := by
  induction lengths with
  | nil => simp
  | cons inFrames lengths ih =>
    rw [List.map_cons, List.map_cons, List.sum_cons, List.sum_cons, List.sum_cons, Nat.add_mul, ih,
      outFrames_mul hrate]
    omega

/-- **The rate is conserved exactly where the roundings together stay below one frame.** -/
theorem rate_conserved_iff {α : Type*} [Inhabited α] (lerp : α → α → ℚ → α) (prefer : Preference)
    (dmo : Nat → Nat → List α → Option (List α)) {inRate channels : Nat} (hrate : 0 < inRate) (hne : inRate ≠ 48000)
    (hchannels : 0 < channels) (hlinear : ∀ buffer, tryDmo prefer dmo inRate channels buffer = none) (s : State α)
    (chunks : List (Chunk α)) :
    |(((resampleAll lerp prefer dmo inRate channels s chunks).map (framesOf channels)).sum : ℚ) -
        (chunks.map Chunk.inFrames).sum * 48000 / inRate| < 1 ↔
      (chunks.map fun chunk => excess inRate chunk.inFrames).sum < inRate := by
  have hpos : (0 : ℚ) < inRate := by exact_mod_cast hrate
  have hsum := sum_outFrames_mul hrate (chunks.map Chunk.inFrames)
  rw [List.map_map, List.map_map] at hsum
  rw [framesOf_resampleAll lerp hne hchannels hlinear]
  change (chunks.map fun chunk => outFrames inRate chunk.inFrames).sum * inRate =
    48000 * (chunks.map Chunk.inFrames).sum + (chunks.map fun chunk => excess inRate chunk.inFrames).sum at hsum
  generalize (chunks.map fun chunk => outFrames inRate chunk.inFrames).sum = total at hsum ⊢
  generalize (chunks.map fun chunk => excess inRate chunk.inFrames).sum = surplus at hsum ⊢
  generalize (chunks.map Chunk.inFrames).sum = length at hsum ⊢
  have hq : (total : ℚ) * inRate = 48000 * length + surplus := by exact_mod_cast hsum
  have hdiff : (total : ℚ) - length * 48000 / inRate = surplus / inRate := by
    field_simp
    linarith
  rw [hdiff, abs_of_nonneg (by positivity), div_lt_one hpos]
  exact_mod_cast Iff.rfl

/-- A chunk whose length is a whole number of output frames is resampled without an excess. -/
theorem rate_conserved_iff_whole : |(((resampleAll (fun s0 s1 frac => s0 + frac * (s1 - s0)) ⟨true, false⟩
      (fun _ _ _ => none) 96000 1 {} [⟨[0, 1], 2⟩, ⟨[1, 0], 2⟩] : List (List ℚ)).map (framesOf 1)).sum : ℚ) -
        ([⟨[0, 1], 2⟩, ⟨[1, 0], 2⟩] |>.map (Chunk.inFrames (α := ℚ))).sum * 48000 / (96000 : Nat)| < 1 :=
  (rate_conserved_iff _ ⟨true, false⟩ (fun _ _ _ => none) (by decide) (by decide) (by decide) (fun _ => rfl) {} _).2
    (by decide)

/-- Two chunks of one frame at 96 kHz, which are one frame at 48 kHz, come out as two. -/
theorem rate_not_conserved : ¬ |(((resampleAll (fun s0 s1 frac => s0 + frac * (s1 - s0)) ⟨true, false⟩
      (fun _ _ _ => none) 96000 1 {} [⟨[0], 1⟩, ⟨[1], 1⟩] : List (List ℚ)).map (framesOf 1)).sum : ℚ) -
        (1 + 1) * 48000 / 96000| < 1 := by
  decide +kernel

end Resampler
end Host
end CloudGaming
