import Mathlib.Data.List.Rotate
import Mathlib.Data.Rat.Floor
import Mathlib.Tactic.Linarith
import Mathlib.Tactic.Ring
/-!
# GoFeedback — what the Go layer measures of the network

Times are nanoseconds since 1970.  A receiver report repeats the middle 32 bits of the NTP time at which the last sender
report left, which wrap around every 18 hours, and the time the receiver held it, in units of 1/65536 second.
-/
namespace CloudGaming
namespace Host
namespace GoFeedback

/-! ## The round trip -/

/-- `ntpMiddle32`, in 64 bits. -/
def ntpMiddle32 (now : Nat) : Nat :=
  let seconds := (now / 1000000000 + 2208988800) % 2 ^ 64
  let fraction := now % 1000000000 * 2 ^ 32 / 1000000000
  ((seconds <<< 32 % 2 ^ 64) ||| fraction) >>> 16 % 2 ^ 32

structure Report where
  fractionLost : Nat
  jitter : Nat
  lastSenderReport : Nat
  delay : Nat

/-- What the callbacks are given. -/
structure Feedback where
  packetLoss : ℚ
  rttMs : ℚ
  jitterSeconds : ℚ

/-- `ntpMiddle32(time.Now()) - LastSenderReport - Delay`, in 32 bits. -/
def rttUnits (now : Nat) (r : Report) : Nat := (ntpMiddle32 now + 2 ^ 32 - r.lastSenderReport + 2 ^ 32 - r.delay) % 2 ^ 32

/-- The round trip that a report tells. -/
def measured (now : Nat) (r : Report) : Option ℚ :=
  if r.lastSenderReport ≠ 0 ∧ rttUnits now r < 60 * 65536 then some ((rttUnits now r : ℚ) * 1000 / 65536) else none

/-- A `ReceiverReport`'s report block: the feedback, and `lastRttMs`. -/
def receiverReport (now : Nat) (r : Report) (lastRttMs : ℚ) : Feedback × ℚ :=
  (⟨r.fractionLost / 256, (measured now r).getD 0, r.jitter / 90000⟩, (measured now r).getD lastRttMs)

/-- Units of 1/65536 second since 1900. -/
def ntpUnits (now : Nat) : Nat := (now + 2208988800 * 1000000000) * 65536 / 1000000000

theorem ntpMiddle32_eq (now : Nat) : ntpMiddle32 now = ntpUnits now % 2 ^ 32 := by
  unfold ntpMiddle32 ntpUnits
  dsimp only
  generalize hq : now / 1000000000 + 2208988800 = seconds
  generalize hm : now % 1000000000 = nanos
  have hnanos : nanos < 1000000000 := hm ▸ Nat.mod_lt _ (by decide)
  have hshift : (seconds % 2 ^ 64) <<< 32 % 2 ^ 64 = (seconds % 2 ^ 32) <<< 32 := by
    rw [Nat.shiftLeft_eq, Nat.shiftLeft_eq]
    omega
  have hlt : nanos * 2 ^ 32 / 1000000000 < 2 ^ 32 := by omega
  rw [hshift, ← Nat.shiftLeft_add_eq_or_of_lt hlt, Nat.shiftLeft_eq, Nat.shiftRight_eq_div_pow]
  have hfraction : nanos * 2 ^ 32 / 1000000000 / 2 ^ 16 = nanos * 2 ^ 16 / 1000000000 := by omega
  have htime : (now + 2208988800 * 1000000000) * 65536 / 1000000000 = seconds * 65536 + nanos * 2 ^ 16 / 1000000000 := by
    omega
  have hhigh : (seconds % 2 ^ 32 * 2 ^ 32 + nanos * 2 ^ 32 / 1000000000) / 2 ^ 16 =
      seconds % 2 ^ 32 * 2 ^ 16 + nanos * 2 ^ 32 / 1000000000 / 2 ^ 16 := by omega
  rw [htime, hhigh, hfraction]
  omega

section
variable {sent now : Nat} {r : Report}

/-- The network's part of the time since the sender report left, in milliseconds. -/
def networkMs (sent now : Nat) (r : Report) : ℚ := ((now : ℚ) - sent) / 1000000 - (r.delay : ℚ) * 1000 / 65536

theorem ntpUnits_near (t : Nat) : (ntpUnits t : ℚ) ≤ ((t : ℚ) + 2208988800 * 1000000000) * 65536 / 1000000000 ∧
    ((t : ℚ) + 2208988800 * 1000000000) * 65536 / 1000000000 < ntpUnits t + 1 := by
  have hle : ntpUnits t * 1000000000 ≤ (t + 2208988800 * 1000000000) * 65536 := Nat.div_mul_le_self _ _
  have hlt : (t + 2208988800 * 1000000000) * 65536 < (ntpUnits t + 1) * 1000000000 := by
    unfold ntpUnits
    omega
  have hleq : (ntpUnits t : ℚ) * 1000000000 ≤ ((t : ℚ) + 2208988800 * 1000000000) * 65536 := by exact_mod_cast hle
  have hltq : ((t : ℚ) + 2208988800 * 1000000000) * 65536 < ((ntpUnits t : ℚ) + 1) * 1000000000 := by exact_mod_cast hlt
  constructor
  · rw [le_div_iff₀ (by norm_num)]
    exact hleq
  · rw [div_lt_iff₀ (by norm_num)]
    exact hltq

/-- The units that the report tells, before they wrap. -/
theorem rttUnits_eq (hlsr : r.lastSenderReport = ntpMiddle32 sent) (hdelay : r.delay < 2 ^ 32) :
    (rttUnits now r : Int) = ((ntpUnits now : Int) - ntpUnits sent - r.delay) % 2 ^ 32 := by
  unfold rttUnits
  rw [hlsr, ntpMiddle32_eq, ntpMiddle32_eq]
  omega

/-- Below the wrap of the clock the units are the network's, up to the roundings of the two times. -/
theorem rttUnits_near (hlsr : r.lastSenderReport = ntpMiddle32 sent) (hdelay : r.delay < 2 ^ 32)
    (hlate : now < sent + 65535 * 1000000000) (hnetwork : 0 ≤ networkMs sent now r) :
    |(rttUnits now r : ℚ) - networkMs sent now r * 65536 / 1000| < 1 := by
  obtain ⟨hnow, hnow'⟩ := ntpUnits_near now
  obtain ⟨hsent, hsent'⟩ := ntpUnits_near sent
  have hunits : (rttUnits now r : Int) = ((ntpUnits now : Int) - ntpUnits sent - r.delay) % 2 ^ 32 :=
    rttUnits_eq hlsr hdelay
  set x : Int := (ntpUnits now : Int) - ntpUnits sent - r.delay with hx
  have hcast : (x : ℚ) = (ntpUnits now : ℚ) - ntpUnits sent - r.delay := by rw [hx]; push_cast; ring
  -- the difference of the roundings, in units
  have hnear : |(x : ℚ) - networkMs sent now r * 65536 / 1000| < 1 := by
    rw [hcast, networkMs, abs_lt]
    constructor <;> linarith
  rw [abs_lt] at hnear
  have hlateq : (now : ℚ) < sent + 65535 * 1000000000 := by exact_mod_cast hlate
  have hupper : networkMs sent now r ≤ 65535000 := by
    rw [networkMs]
    have : (0 : ℚ) ≤ r.delay := Nat.cast_nonneg _
    linarith
  have hlow : -1 < x := by
    have : (-1 : ℚ) < x := by linarith
    exact_mod_cast this
  have hhigh : x < 2 ^ 32 := by
    have : (x : ℚ) < 2 ^ 32 := by norm_num; linarith
    exact_mod_cast this
  have hsame : (rttUnits now r : Int) = x := by omega
  have hrtt : (rttUnits now r : ℚ) = x := by exact_mod_cast hsame
  rw [hrtt, abs_lt]
  exact hnear

/-- **The round trip that is reported is the network's to within a unit**, wherever the clock wraps around; only one of
about a minute or more, and one whose sender report left at the zero of the clock, is reported as zero and not kept. -/
theorem round_trip_near (lastRttMs : ℚ) (hlsr : r.lastSenderReport = ntpMiddle32 sent) (hdelay : r.delay < 2 ^ 32)
    (hlate : now < sent + 65535 * 1000000000) (hnetwork : 0 ≤ networkMs sent now r) :
    (|(receiverReport now r lastRttMs).1.rttMs - networkMs sent now r| < 1000 / 65536 ∧
        (receiverReport now r lastRttMs).2 = (receiverReport now r lastRttMs).1.rttMs) ∨
      ((r.lastSenderReport = 0 ∨ 60000 - 1000 / 65536 < networkMs sent now r) ∧
        (receiverReport now r lastRttMs).1.rttMs = 0 ∧ (receiverReport now r lastRttMs).2 = lastRttMs) := by
  have hnear := rttUnits_near hlsr hdelay hlate hnetwork
  rw [abs_lt] at hnear
  unfold receiverReport measured
  split
  · left
    refine ⟨?_, rfl⟩
    rw [Option.getD_some, abs_lt]
    constructor <;> linarith
  · rename_i hnot
    right
    refine ⟨?_, rfl, rfl⟩
    rcases not_and_or.1 hnot with hzero | hlong
    · exact .inl (not_not.1 hzero)
    · right
      have hunits : (60 * 65536 : ℚ) ≤ rttUnits now r := by exact_mod_cast Nat.le_of_not_lt hlong
      linarith

end

def sampleReport : Report := ⟨3, 900, ntpMiddle32 1767323045000000000, 655⟩

/-- A report 40 ms after the sender report, held for 10 ms. -/
theorem round_trip_near_sample :
    (|(receiverReport 1767323045040000000 sampleReport 0).1.rttMs -
          networkMs 1767323045000000000 1767323045040000000 sampleReport| < 1000 / 65536 ∧
        (receiverReport 1767323045040000000 sampleReport 0).2 =
          (receiverReport 1767323045040000000 sampleReport 0).1.rttMs) ∨
      ((sampleReport.lastSenderReport = 0 ∨
          60000 - 1000 / 65536 < networkMs 1767323045000000000 1767323045040000000 sampleReport) ∧
        (receiverReport 1767323045040000000 sampleReport 0).1.rttMs = 0 ∧
        (receiverReport 1767323045040000000 sampleReport 0).2 = 0) :=
  round_trip_near 0 rfl (by decide) (by decide) (by norm_num [networkMs, sampleReport])

/-! ## The audio queue -/

/-- The last ten depths of the audio queue, in a circular buffer. -/
structure AudioQueueDepth where
  samples : List Nat := List.replicate 10 0
  index : Nat := 0
  count : Nat := 0

def updateAudioQueueDepth (q : AudioQueueDepth) (depth : Nat) : AudioQueueDepth where
  samples := q.samples.set q.index depth
  index := (q.index + 1) % 10
  count := if q.count < 10 then q.count + 1 else q.count

/-- A buffer read from its index on loses its oldest entry to the one that is written. -/
theorem rotate_set {α : Type*} {l : List α} {i : Nat} (hi : i < l.length) (a : α) :
    (l.set i a).rotate (i + 1) = (l.rotate i).tail ++ [a] := by
  have htake : (l.set i a).take (i + 1) = l.take i ++ [a] := by
    rw [List.take_add_one, List.take_set_of_le (Nat.le_refl i), List.getElem?_set_self hi]
    rfl
  rw [List.rotate_eq_drop_append_take (by rw [List.length_set]; exact hi), List.rotate_eq_drop_append_take hi.le,
    List.drop_set_of_lt (Nat.lt_succ_self i), htake, List.drop_eq_getElem_cons hi, List.cons_append, List.tail_cons,
    List.append_assoc]

/-- The buffer holds the last ten depths, after ten zeros. -/
structure Recent (q : AudioQueueDepth) (depths : List Nat) : Prop where
  index : q.index < 10
  samples : q.samples.length = 10
  window : q.samples.rotate q.index = (List.replicate 10 0 ++ depths).drop depths.length
  count : q.count = min 10 depths.length

theorem Recent.update {q : AudioQueueDepth} {depths : List Nat} (h : Recent q depths) (depth : Nat) :
    Recent (updateAudioQueueDepth q depth) (depths ++ [depth]) where
  index := Nat.mod_lt _ (by decide)
  samples := (List.length_set ..).trans h.samples
  window := by
    have hrotate : (q.samples.set q.index depth).rotate ((q.index + 1) % 10) =
        (q.samples.set q.index depth).rotate (q.index + 1) := by
      rw [← List.rotate_mod _ (q.index + 1), List.length_set, h.samples]
    change (q.samples.set q.index depth).rotate ((q.index + 1) % 10) = _
    have hlen : depths.length + 1 ≤ (List.replicate 10 0 ++ depths).length := by
      rw [List.length_append, List.length_replicate]
      omega
    rw [hrotate, rotate_set (h.samples ▸ h.index), h.window, List.tail_drop, ← List.append_assoc, List.length_append,
      List.length_singleton, List.drop_append_of_le_length hlen]
  count := by
    change (if q.count < 10 then q.count + 1 else q.count) = _
    rw [h.count, List.length_append, List.length_singleton]
    split <;> omega

end GoFeedback
end Host
end CloudGaming
