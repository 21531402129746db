import Mathlib.Algebra.Order.Field.Rat
import Mathlib.Data.List.Induction
import Mathlib.Tactic.Linarith
/-!
# FramePacing — the selection of captured frames for output

`SelectFrameForOutput` keeps the next deadline of the output in clock ticks of 100 ns, scaled by the frame rate, so that
a second is `10000000` ticks over `fps` frames without a rounding.  A frame at or after the deadline is selected, and
the deadlines that it missed are passed over.
-/
namespace CloudGaming
namespace Host
namespace FramePacing

/-- `g_pacingFps` and `g_nextFrameDeadlineScaled`, as `StartCapture` resets them. -/
structure Pacing where
  pacingFps : Int := 0
  nextFrameDeadlineScaled : Int := 0
  deriving DecidableEq, Repr

def clockTicksPerSecond : Int := 10000000

/-- A frame that arrives: the target rate at that time, its source timestamp and the steady clock in microseconds. -/
structure Arrival where
  targetFps : Int
  source : Int
  steadyNowUs : Int := 0
  deriving DecidableEq, Repr

def Arrival.fps (a : Arrival) : Int := max 1 a.targetFps

def Arrival.sourceTimestamp100ns (a : Arrival) : Int := if a.source ≤ 0 then a.steadyNowUs * 10 else a.source

def Arrival.sourceScaled (a : Arrival) : Int := a.sourceTimestamp100ns * a.fps

/-- The schedule starts at the frame, where the rate has changed or the frame is more than a slot early. -/
def reanchor (s : Pacing) (a : Arrival) : Pacing :=
  if s.pacingFps ≠ a.fps ∨ s.nextFrameDeadlineScaled ≤ 0 ∨
      a.sourceScaled + clockTicksPerSecond < s.nextFrameDeadlineScaled then
    ⟨a.fps, a.sourceScaled⟩
  else s

/-- The presentation timestamp in microseconds of a frame that is selected. -/
def selectFrameForOutput (s : Pacing) (a : Arrival) : Option Int × Pacing :=
  let s := reanchor s a
  if a.sourceScaled < s.nextFrameDeadlineScaled then (none, s)
  else
    let elapsedSlots := (a.sourceScaled - s.nextFrameDeadlineScaled).tdiv clockTicksPerSecond
    let selectedDeadline := s.nextFrameDeadlineScaled + elapsedSlots * clockTicksPerSecond
    (some ((selectedDeadline.tdiv a.fps).tdiv 10),
      { s with nextFrameDeadlineScaled := selectedDeadline + clockTicksPerSecond })

/-! ## Runs -/

/-- A frame that was selected. -/
structure Selected where
  source : Int
  deadline : Int
  presentation : Int
  deriving DecidableEq, Repr

/-- The pacing, and the frames selected so far, the oldest first. -/
structure Capture where
  pacing : Pacing := {}
  selected : List Selected := []
  deriving DecidableEq, Repr

namespace Capture

def step (c : Capture) (a : Arrival) : Capture :=
  match selectFrameForOutput c.pacing a with
  | (none, pacing) => { c with pacing }
  | (some presentation, pacing) =>
    { pacing
      selected := c.selected ++
        [⟨a.sourceTimestamp100ns, pacing.nextFrameDeadlineScaled - clockTicksPerSecond, presentation⟩] }

def run (c : Capture) (arrivals : List Arrival) : Capture := arrivals.foldl step c

/-- The frame is selected. -/
def selects (c : Capture) (a : Arrival) : Prop := (selectFrameForOutput c.pacing a).1.isSome = true

instance (c : Capture) (a : Arrival) : Decidable (c.selects a) := inferInstanceAs (Decidable (_ = true))

@[simp] theorem run_concat (c : Capture) (arrivals : List Arrival) (a : Arrival) :
    c.run (arrivals ++ [a]) = (c.run arrivals).step a := by
  unfold run
  rw [List.foldl_append]
  rfl

end Capture

/-! ## What a frame does to the schedule -/

/-- The deadline that a frame at `source` is presented for. -/
structure Presents (fps source deadline presentation : Int) : Prop where
  le : deadline ≤ source * fps
  lt : source * fps < deadline + 10000000
  presentation_eq : presentation = deadline / fps / 10

section

variable {s : Pacing} {a : Arrival}

theorem Arrival.fps_pos (a : Arrival) : 0 < a.fps := by unfold Arrival.fps; omega

theorem sourceScaled_eq (h : 0 < a.source) : a.sourceScaled = a.source * a.fps := by
  unfold Arrival.sourceScaled Arrival.sourceTimestamp100ns
  rw [if_neg (by omega)]

theorem sourceScaled_pos (h : 0 < a.source) : 0 < a.sourceScaled := by
  rw [sourceScaled_eq h]
  exact Int.mul_pos h a.fps_pos

/-- **What becomes of a frame**: it is before the deadline; it is selected for a deadline of the schedule; or it starts
the schedule anew. -/
theorem select_cases (s : Pacing) (h : 0 < a.source) :
    (s.pacingFps = a.fps ∧ 0 < s.nextFrameDeadlineScaled ∧ a.source * a.fps < s.nextFrameDeadlineScaled ∧
      selectFrameForOutput s a = (none, s)) ∨
    (∃ (k : Nat) (presentation : Int), s.pacingFps = a.fps ∧ 0 < s.nextFrameDeadlineScaled ∧
      Presents a.fps a.source (s.nextFrameDeadlineScaled + k * 10000000) presentation ∧
      selectFrameForOutput s a =
        (some presentation, ⟨a.fps, s.nextFrameDeadlineScaled + k * 10000000 + 10000000⟩)) ∨
    (∃ presentation, (s.pacingFps = a.fps → 0 < s.nextFrameDeadlineScaled →
        a.source * a.fps + 10000000 < s.nextFrameDeadlineScaled) ∧
      Presents a.fps a.source (a.source * a.fps) presentation ∧
      selectFrameForOutput s a = (some presentation, ⟨a.fps, a.source * a.fps + 10000000⟩)) := by
  have hscaled := sourceScaled_eq h
  have hpos := sourceScaled_pos h
  have hfps := a.fps_pos
  unfold selectFrameForOutput reanchor clockTicksPerSecond
  dsimp only
  rw [hscaled] at hpos ⊢
  split
  · rename_i hanew
    refine .inr (.inr ⟨a.source * a.fps / a.fps / 10, fun hf hd => ?_, ⟨le_refl _, by omega, rfl⟩, ?_⟩)
    · rcases hanew with hne | hle | hlt
      · exact absurd hf hne
      · omega
      · exact hlt
    · dsimp only
      rw [if_neg (lt_irrefl _), sub_self, Int.zero_tdiv, zero_mul, add_zero, Int.tdiv_eq_ediv_of_nonneg hpos.le,
        Int.tdiv_eq_ediv_of_nonneg (Int.ediv_nonneg hpos.le hfps.le)]
  · rename_i hkeep
    simp only [not_or, not_not, not_le, not_lt] at hkeep
    obtain ⟨hf, hd, hnear⟩ := hkeep
    split
    · rename_i hlt
      exact .inl ⟨hf, hd, hlt, rfl⟩
    · rename_i hge
      refine .inr (.inl ?_)
      have hnonneg : 0 ≤ a.source * a.fps - s.nextFrameDeadlineScaled := by omega
      obtain ⟨k, hk⟩ := Int.eq_ofNat_of_zero_le (Int.ediv_nonneg hnonneg (by decide : (0 : Int) ≤ 10000000))
      refine ⟨k, (s.nextFrameDeadlineScaled + k * 10000000) / a.fps / 10, hf, hd, ⟨by omega, by omega, rfl⟩, ?_⟩
      have hslot : 0 ≤ s.nextFrameDeadlineScaled + k * 10000000 := by omega
      rw [Int.tdiv_eq_ediv_of_nonneg hnonneg, hk, Int.tdiv_eq_ediv_of_nonneg hslot,
        Int.tdiv_eq_ediv_of_nonneg (Int.ediv_nonneg hslot hfps.le), hf]

end

section

variable {fps source deadline presentation : Int}

theorem Presents.not_after (h : Presents fps source deadline presentation) (hfps : 0 < fps) :
    presentation * 10 ≤ source := by
  have hslot : deadline / fps ≤ source := Int.ediv_le_of_le_mul hfps h.le
  have := h.presentation_eq
  omega

theorem Presents.scaled_le (h : Presents fps source deadline presentation) (hfps : 0 < fps) :
    presentation * 10 * fps ≤ deadline := by
  have hround : presentation * 10 ≤ deadline / fps := by
    have := h.presentation_eq
    omega
  calc presentation * 10 * fps ≤ deadline / fps * fps := Int.mul_le_mul_of_nonneg_right hround hfps.le
    _ ≤ deadline := Int.ediv_mul_le deadline hfps.ne'

/-- **A frame is presented less than a slot and a microsecond before its source timestamp.** -/
theorem Presents.near (h : Presents fps source deadline presentation) (hfps : 0 < fps) :
    (source : ℚ) / 10 - presentation < 1000000 / fps + 1 := by
  have hround : deadline / fps < presentation * 10 + 10 := by
    have := h.presentation_eq
    omega
  have hslot : deadline < (deadline / fps + 1) * fps := Int.lt_ediv_add_one_mul_self deadline hfps
  have hle : (deadline / fps + 1) * fps ≤ (presentation * 10 + 10) * fps :=
    Int.mul_le_mul_of_nonneg_right hround hfps.le
  have hint : source * fps < (presentation * 10 + 10) * fps + 10000000 := by
    have := h.lt
    omega
  have hq : (source : ℚ) * fps < (presentation * 10 + 10) * fps + 10000000 := by exact_mod_cast hint
  have hpos : (0 : ℚ) < fps := by exact_mod_cast hfps
  have hdiv : (source : ℚ) / 10 - presentation - 1 < 1000000 / fps := by
    rw [lt_div_iff₀ hpos]
    linarith
  linarith

/-- Deadlines a slot apart are presented at different microseconds. -/
theorem Presents.lt_of_slot {source' deadline' presentation' : Int} (h : Presents fps source deadline presentation)
    (h' : Presents fps source' deadline' presentation') (hfps : 0 < fps) (hmax : fps ≤ 1000000)
    (hslot : deadline + 10000000 ≤ deadline') : presentation < presentation' := by
  have hnext : deadline / fps + 10 ≤ deadline' / fps := by
    rw [← Int.add_mul_ediv_right deadline 10 hfps.ne']
    exact Int.ediv_le_ediv hfps (by omega)
  have := h.presentation_eq
  have := h'.presentation_eq
  omega

end

/-! ## Any rates -/

/-- What is kept while the rate changes: a frame is presented at its source timestamp at the latest, and not after the
next deadline. -/
structure Kept (c : Capture) (newest : Int) : Prop where
  sorted : c.selected.Pairwise fun p q => p.presentation ≤ q.presentation
  not_after : ∀ p ∈ c.selected, p.presentation * 10 ≤ newest
  before_deadline : ∀ p ∈ c.selected, p.presentation * 10 * c.pacing.pacingFps ≤ c.pacing.nextFrameDeadlineScaled

section

variable {c : Capture} {a : Arrival} {newest : Int}

theorem step_of_skip (h : selectFrameForOutput c.pacing a = (none, c.pacing)) : c.step a = c := by
  unfold Capture.step
  rw [h]

theorem step_of_select {fps presentation deadline : Int} (hpos : 0 < a.source)
    (h : selectFrameForOutput c.pacing a = (some presentation, ⟨fps, deadline + 10000000⟩)) :
    c.step a = ⟨⟨fps, deadline + 10000000⟩, c.selected ++ [⟨a.source, deadline, presentation⟩]⟩ := by
  unfold Capture.step Arrival.sourceTimestamp100ns clockTicksPerSecond
  rw [h, if_neg (by omega)]
  dsimp only
  rw [add_sub_cancel_right]

/-- A frame that is presented no earlier than those before it. -/
theorem kept_select (hk : Kept c newest) (hle : newest ≤ a.source) {deadline presentation : Int}
    (hp : Presents a.fps a.source deadline presentation)
    (hlast : ∀ p ∈ c.selected, p.presentation ≤ presentation) :
    Kept ⟨⟨a.fps, deadline + 10000000⟩, c.selected ++ [⟨a.source, deadline, presentation⟩]⟩ a.source := by
  have hnew := hp.not_after a.fps_pos
  have hscaled := hp.scaled_le a.fps_pos
  refine ⟨?_, fun p hpm => ?_, fun p hpm => ?_⟩
  · rw [List.pairwise_append]
    refine ⟨hk.sorted, List.pairwise_singleton _ _, fun p hpm q hq => ?_⟩
    obtain rfl := List.mem_singleton.1 hq
    exact hlast p hpm
  · rcases List.mem_append.1 hpm with hpm | hpm
    · exact (hk.not_after p hpm).trans hle
    · obtain rfl := List.mem_singleton.1 hpm
      exact hnew
  · have hpres : p.presentation ≤ presentation := by
      rcases List.mem_append.1 hpm with hpm | hpm
      · exact hlast p hpm
      · obtain rfl := List.mem_singleton.1 hpm
        exact le_refl _
    have : p.presentation * 10 * a.fps ≤ presentation * 10 * a.fps :=
      Int.mul_le_mul_of_nonneg_right (by omega) a.fps_pos.le
    dsimp only
    omega

theorem kept_step (hk : Kept c newest) (hpos : 0 < a.source) (hle : newest ≤ a.source) :
    Kept (c.step a) a.source := by
  rcases select_cases c.pacing hpos with
    ⟨-, -, -, h⟩ | ⟨k, presentation, hf, -, hp, h⟩ | ⟨presentation, -, hp, h⟩
  · rw [step_of_skip h]
    exact ⟨hk.sorted, fun p hpm => (hk.not_after p hpm).trans hle, hk.before_deadline⟩
  · rw [step_of_select hpos h]
    refine kept_select hk hle hp fun p hpm => ?_
    -- the deadline has not moved back since the frame was selected
    have hbefore := hk.before_deadline p hpm
    rw [hf] at hbefore
    have hslot : p.presentation * 10 ≤ (c.pacing.nextFrameDeadlineScaled + k * 10000000) / a.fps :=
      (Int.le_ediv_iff_mul_le a.fps_pos).2 (by omega)
    have := hp.presentation_eq
    omega
  · rw [step_of_select hpos h]
    refine kept_select hk hle hp fun p hpm => ?_
    have hnot := hk.not_after p hpm
    have hp10 := hp.presentation_eq
    rw [Int.mul_ediv_cancel _ a.fps_pos.ne'] at hp10
    omega

theorem kept_run : ∀ {arrivals : List Arrival} {c : Capture} {newest : Int}, Kept c newest →
    (∀ a ∈ arrivals, 0 < a.source ∧ newest ≤ a.source) → arrivals.Pairwise (fun a b => a.source ≤ b.source) →
    ∃ last, Kept (c.run arrivals) last
  | [], _, newest, hk, _, _ => ⟨newest, hk⟩
  | a :: rest, c, _, hk, hall, hsorted => by
    obtain ⟨hpos, hle⟩ := hall a (by simp)
    change ∃ last, Kept ((c.step a).run rest) last
    have hlater := (List.pairwise_cons.1 hsorted).1
    exact kept_run (kept_step hk hpos hle) (fun b hb => ⟨(hall b (by simp [hb])).1, hlater b hb⟩) hsorted.of_cons

end

/-! ## A constant rate -/

/-- The schedule after the frame at `newest`, where it started with the one at `first`. -/
structure OnGrid (fps first newest : Int) (c : Capture) : Prop where
  rate : c.pacing.pacingFps = fps
  grid : ∃ k : Nat, c.pacing.nextFrameDeadlineScaled = first * fps + (k + 1) * 10000000
  passed : newest * fps < c.pacing.nextFrameDeadlineScaled
  next_le : c.pacing.nextFrameDeadlineScaled ≤ newest * fps + 10000000
  presents : ∀ p ∈ c.selected, Presents fps p.source p.deadline p.presentation
  started : ∀ p ∈ c.selected, ∃ k : Nat, p.deadline = first * fps + k * 10000000
  slots : c.selected.Pairwise fun p q => p.deadline + 10000000 ≤ q.deadline
  behind : ∀ p ∈ c.selected, p.deadline + 10000000 ≤ c.pacing.nextFrameDeadlineScaled

section

variable {c : Capture} {a : Arrival} {fps first newest : Int}

theorem onGrid_first (hpos : 0 < a.source) (hfps : a.fps = fps) :
    ({} : Capture).selects a ∧ OnGrid fps a.source a.source (({} : Capture).step a) := by
  have hf : (0 : Int) ≠ a.fps := a.fps_pos.ne
  rcases select_cases ({} : Capture).pacing hpos with ⟨h0, -⟩ | ⟨k, p, h0, -⟩ | ⟨presentation, -, hp, h⟩
  · exact absurd h0 hf
  · exact absurd h0 hf
  · subst hfps
    refine ⟨by rw [Capture.selects, h]; rfl, ?_⟩
    rw [step_of_select hpos h]
    refine ⟨rfl, ⟨0, by simp⟩, by simp, le_refl _, ?_, ?_, List.pairwise_singleton _ _, ?_⟩
    · intro p hpm
      obtain rfl := List.mem_singleton.1 hpm
      exact hp
    · intro p hpm
      obtain rfl := List.mem_singleton.1 hpm
      exact ⟨0, by simp⟩
    · intro p hpm
      obtain rfl := List.mem_singleton.1 hpm
      exact le_refl _

/-- **At a constant rate a frame is selected exactly if it is not before the deadline, and the deadline moves by whole
slots.** -/
theorem onGrid_step (h : OnGrid fps first newest c) (hfirst : 0 < first) (hpos : 0 < a.source) (hfps : a.fps = fps)
    (hle : newest ≤ a.source) :
    (c.selects a ↔ c.pacing.nextFrameDeadlineScaled ≤ a.source * fps) ∧ OnGrid fps first a.source (c.step a) := by
  subst hfps
  have hmono : newest * a.fps ≤ a.source * a.fps := Int.mul_le_mul_of_nonneg_right hle a.fps_pos.le
  obtain ⟨j, hj⟩ := h.grid
  have hstart : 0 < first * a.fps := Int.mul_pos hfirst a.fps_pos
  rcases select_cases c.pacing hpos with
    ⟨-, -, hlt, hs⟩ | ⟨k, presentation, -, -, hp, hs⟩ | ⟨presentation, hanew, -, -⟩
  · rw [step_of_skip hs]
    refine ⟨?_, h.rate, h.grid, hlt, by have := h.next_le; omega, h.presents, h.started, h.slots, h.behind⟩
    rw [Capture.selects, hs]
    exact iff_of_false (by simp) (by omega)
  · rw [step_of_select hpos hs]
    have hge := hp.le
    refine ⟨?_, rfl, ⟨j + 1 + k, ?_⟩, hp.lt, by dsimp only; omega, fun p hpm => ?_, fun p hpm => ?_, ?_,
      fun p hpm => ?_⟩
    · rw [Capture.selects, hs]
      exact iff_of_true rfl (by omega)
    · dsimp only
      rw [hj]
      push_cast
      omega
    · rcases List.mem_append.1 hpm with hpm | hpm
      · exact h.presents p hpm
      · obtain rfl := List.mem_singleton.1 hpm
        exact hp
    · rcases List.mem_append.1 hpm with hpm | hpm
      · exact h.started p hpm
      · obtain rfl := List.mem_singleton.1 hpm
        refine ⟨j + 1 + k, ?_⟩
        dsimp only
        rw [hj]
        push_cast
        omega
    · rw [List.pairwise_append]
      refine ⟨h.slots, List.pairwise_singleton _ _, fun p hpm q hq => ?_⟩
      obtain rfl := List.mem_singleton.1 hq
      have := h.behind p hpm
      dsimp only
      omega
    · dsimp only
      rcases List.mem_append.1 hpm with hpm | hpm
      · have := h.behind p hpm
        omega
      · obtain rfl := List.mem_singleton.1 hpm
        exact le_refl _
  · have hnear := h.next_le
    have := hanew h.rate (by omega)
    omega

end

/-- The frames arrive in the order of their positive source timestamps. -/
structure InOrder (arrivals : List Arrival) : Prop where
  positive : ∀ a ∈ arrivals, 0 < a.source
  sorted : arrivals.Pairwise fun a b => a.source ≤ b.source

theorem InOrder.of_append {earlier later : List Arrival} (h : InOrder (earlier ++ later)) : InOrder earlier :=
  ⟨fun a ha => h.positive a (List.mem_append_left later ha), (List.pairwise_append.1 h.sorted).1⟩

/-- The schedule of a run at a constant rate, from its first frame to its last. -/
theorem onGrid_run {fps : Int} {first : Arrival} : ∀ (rest : List Arrival), InOrder (first :: rest) →
    (∀ a ∈ first :: rest, a.fps = fps) →
    ∃ newest, OnGrid fps first.source newest (({} : Capture).run (first :: rest)) ∧
      (∀ a ∈ first :: rest, a.source ≤ newest) ∧ ∃ a ∈ first :: rest, a.source = newest := by
  intro rest
  induction rest using List.reverseRecOn with
  | nil =>
    intro ho hf
    refine ⟨first.source, (onGrid_first (ho.positive first (by simp)) (hf first (by simp))).2, fun a ha => ?_,
      first, by simp, rfl⟩
    rw [List.mem_singleton.1 ha]
  | append_singleton rest a ih =>
    intro ho hf
    rw [← List.cons_append] at ho hf ⊢
    obtain ⟨newest, hgrid, hmax, b, hb, rfl⟩ := ih ho.of_append fun b hb => hf b (List.mem_append_left _ hb)
    have hle : ∀ b ∈ first :: rest, b.source ≤ a.source := fun b hb =>
      (List.pairwise_append.1 ho.sorted).2.2 b hb a (by simp)
    rw [Capture.run_concat]
    refine ⟨a.source, (onGrid_step hgrid (ho.positive first (by simp)) (ho.positive a (by simp)) (hf a (by simp))
      (hle b hb)).2, fun c hc => ?_, a, by simp, rfl⟩
    rcases List.mem_append.1 hc with hc | hc
    · exact hle c hc
    · rw [List.mem_singleton.1 hc]

/-- Selections whose deadlines lie below a bound are no more than the slots there are. -/
theorem length_mul_le {bound : ℚ} : ∀ {p : Selected} {rest : List Selected},
    (p :: rest).Pairwise (fun p q => p.deadline + 10000000 ≤ q.deadline) →
    (∀ q ∈ p :: rest, (q.deadline : ℚ) ≤ bound) → (p.deadline : ℚ) + rest.length * 10000000 ≤ bound
  | p, [], _, hb => by simpa using hb p (by simp)
  | p, q :: rest, hs, hb => by
    have hslot : p.deadline + 10000000 ≤ q.deadline := (List.pairwise_cons.1 hs).1 q (by simp)
    have hnext : (p.deadline : ℚ) + 10000000 ≤ q.deadline := by exact_mod_cast hslot
    have ih := length_mul_le hs.of_cons fun r hr => hb r (List.mem_cons_of_mem p hr)
    rw [List.length_cons]
    push_cast
    linarith

/-- **In a time of `seconds` fewer than `fps * seconds + 2` frames are selected.** -/
theorem countP_selected_lt {fps first newest : Int} {c : Capture} (h : OnGrid fps first newest c) (hfps : 0 < fps)
    (start seconds : ℚ) (hseconds : 0 ≤ seconds) :
    (c.selected.countP (fun p => decide (start ≤ p.source ∧ p.source ≤ start + 10000000 * seconds)) : ℚ) <
      fps * seconds + 2 := by
  have hpos : (0 : ℚ) < fps := by exact_mod_cast hfps
  rw [List.countP_eq_length_filter]
  have hspaced := h.slots.filter (fun p => decide (start ≤ p.source ∧ p.source ≤ start + 10000000 * seconds))
  have hmem : ∀ p ∈ c.selected.filter (fun p => decide (start ≤ p.source ∧ p.source ≤ start + 10000000 * seconds)),
      Presents fps p.source p.deadline p.presentation ∧ start ≤ p.source ∧
        p.source ≤ start + 10000000 * seconds := by
    intro p hp
    obtain ⟨hp, hin⟩ := List.mem_filter.1 hp
    exact ⟨h.presents p hp, of_decide_eq_true hin⟩
  generalize c.selected.filter (fun p => decide (start ≤ p.source ∧ p.source ≤ start + 10000000 * seconds)) = inside
    at hspaced hmem ⊢
  cases inside with
  | nil =>
    have : 0 ≤ fps * seconds := mul_nonneg hpos.le hseconds
    simp only [List.length_nil, Nat.cast_zero]
    linarith
  | cons p rest =>
    have hbound : ∀ q ∈ p :: rest, (q.deadline : ℚ) ≤ (start + 10000000 * seconds) * fps := by
      intro q hq
      obtain ⟨hp, -, hend⟩ := hmem q hq
      have hle : (q.deadline : ℚ) ≤ q.source * fps := by exact_mod_cast hp.le
      exact hle.trans (mul_le_mul_of_nonneg_right hend hpos.le)
    obtain ⟨hp, hstart, -⟩ := hmem p (by simp)
    have hfirst : start * fps < p.deadline + 10000000 := by
      have hlt : (p.source : ℚ) * fps < p.deadline + 10000000 := by exact_mod_cast hp.lt
      exact (mul_le_mul_of_nonneg_right hstart hpos.le).trans_lt hlt
    have hcount := length_mul_le hspaced hbound
    rw [List.length_cons]
    push_cast
    linarith

theorem fps_eq {fps : Int} {a : Arrival} (h1 : 1 ≤ fps) (h : a.targetFps = fps) : a.fps = fps := by
  unfold Arrival.fps
  omega

/-- The frames before one that arrives are before the deadline, so the first one that is not is selected. -/
theorem selects_iff {fps : Int} (h1 : 1 ≤ fps) {earlier later : List Arrival} {a : Arrival}
    (ho : InOrder (earlier ++ a :: later)) (hf : ∀ b ∈ earlier ++ a :: later, b.targetFps = fps) :
    (({} : Capture).run earlier).selects a ↔
      (({} : Capture).run earlier).pacing.nextFrameDeadlineScaled ≤ a.source * fps ∧
        ∀ b ∈ earlier, b.source * fps < (({} : Capture).run earlier).pacing.nextFrameDeadlineScaled := by
  have hpos : 0 < a.source := ho.positive a (by simp)
  have ha : a.fps = fps := fps_eq h1 (hf a (by simp))
  cases earlier with
  | nil =>
    refine iff_of_true (onGrid_first hpos ha).1 ⟨?_, fun b hb => absurd hb (by simp)⟩
    exact (Int.mul_pos hpos (by omega)).le
  | cons first rest =>
    obtain ⟨newest, hgrid, hmax, b, hb, rfl⟩ := onGrid_run rest ho.of_append fun b hb =>
      fps_eq h1 (hf b (List.mem_append_left _ hb))
    have hle : b.source ≤ a.source := (List.pairwise_append.1 ho.sorted).2.2 b hb a (by simp)
    rw [(onGrid_step hgrid (ho.positive first (by simp)) hpos ha hle).1]
    refine ⟨fun h => ⟨h, fun e he => ?_⟩, And.left⟩
    exact (Int.mul_le_mul_of_nonneg_right (hmax e he) (by omega)).trans_lt hgrid.passed

/-- **The frames selected for output.**  At a constant rate: a frame is selected exactly if it is the first at or after
the deadline; every deadline is whole slots from the first frame; in any `seconds` fewer than `fps * seconds + 2` frames
are selected; and they are presented at increasing times, not after their source timestamps and at most a slot and a
microsecond before them.  Where the rate changes, the times of presentation still never go back. -/
theorem frames_selected (fps : Int) (h1 : 1 ≤ fps) (h1000 : fps ≤ 1000) (arrivals : List Arrival)
    (horder : InOrder arrivals) (hrate : ∀ a ∈ arrivals, a.targetFps = fps)
    (changing : List Arrival) (hchanging : InOrder changing) :
    let c := ({} : Capture).run arrivals
    (∀ earlier a later, arrivals = earlier ++ a :: later →
      ((({} : Capture).run earlier).selects a ↔
        (({} : Capture).run earlier).pacing.nextFrameDeadlineScaled ≤ a.source * fps ∧
          ∀ b ∈ earlier, b.source * fps < (({} : Capture).run earlier).pacing.nextFrameDeadlineScaled)) ∧
      (∀ first rest, arrivals = first :: rest →
        (∃ k : Nat, c.pacing.nextFrameDeadlineScaled = first.source * fps + (k + 1) * 10000000) ∧
          ∀ p ∈ c.selected, ∃ k : Nat, p.deadline = first.source * fps + k * 10000000) ∧
      (∀ start seconds : ℚ, 0 ≤ seconds →
        (c.selected.countP (fun p => decide (start ≤ p.source ∧ p.source ≤ start + 10000000 * seconds)) : ℚ) <
          fps * seconds + 2) ∧
      c.selected.Pairwise (fun p q => p.presentation < q.presentation) ∧
      (∀ p ∈ c.selected, p.presentation * 10 ≤ p.source ∧
        (p.source : ℚ) / 10 - p.presentation < 1000000 / fps + 1) ∧
      (({} : Capture).run changing).selected.Pairwise fun p q => p.presentation ≤ q.presentation := by
  intro c
  have hfps : 0 < fps := by omega
  refine ⟨fun earlier a later h => ?_, ?_⟩
  · subst h
    exact selects_iff h1 horder hrate
  have hempty : Kept {} 0 := ⟨List.Pairwise.nil, by simp, by simp⟩
  obtain ⟨last, hkept⟩ :=
    kept_run hempty (fun a ha => ⟨hchanging.positive a ha, (hchanging.positive a ha).le⟩) hchanging.sorted
  cases arrivals with
  | nil =>
    refine ⟨fun first rest h => (by cases h), fun start seconds hs => ?_, List.Pairwise.nil, by simp [c, Capture.run],
      hkept.sorted⟩
    have : (0 : ℚ) ≤ fps * seconds := mul_nonneg (by exact_mod_cast hfps.le) hs
    simp only [c, Capture.run, List.foldl_nil, List.countP_nil, Nat.cast_zero]
    linarith
  | cons first rest =>
    obtain ⟨newest, hgrid, -⟩ := onGrid_run rest horder fun a ha => fps_eq h1 (hrate a ha)
    refine ⟨fun a later h => ?_, fun start seconds hs => countP_selected_lt hgrid hfps start seconds hs, ?_,
      fun p hp => ⟨(hgrid.presents p hp).not_after hfps, (hgrid.presents p hp).near hfps⟩, hkept.sorted⟩
    · obtain ⟨rfl, rfl⟩ := List.cons.inj h
      exact ⟨hgrid.grid, hgrid.started⟩
    · refine hgrid.slots.imp_of_mem fun hp hq hslot => ?_
      exact (hgrid.presents _ hp).lt_of_slot (hgrid.presents _ hq) hfps (by omega) hslot

/-- A game at 150 frames a second: two frames are before the deadline, the fourth is selected for it. -/
def at150 : List Arrival := [⟨60, 1000000, 0⟩, ⟨60, 1066667, 0⟩, ⟨60, 1133333, 0⟩, ⟨60, 1200000, 0⟩]

/-- … and 30 frames a second are asked for while it runs. -/
def at150Slowing : List Arrival := [⟨60, 1000000, 0⟩, ⟨60, 1066667, 0⟩, ⟨30, 1133333, 0⟩, ⟨30, 1200000, 0⟩]

theorem frames_selected_at150 :
    (({} : Capture).run at150).selected.Pairwise (fun p q => p.presentation < q.presentation) ∧
      (({} : Capture).run at150Slowing).selected.Pairwise fun p q => p.presentation ≤ q.presentation :=
  have h := frames_selected 60 (by decide) (by decide) at150 ⟨by decide, by decide⟩ (by decide) at150Slowing
    ⟨by decide, by decide⟩
  ⟨h.2.2.2.1, h.2.2.2.2.2⟩

example : (({} : Capture).run at150).selected.map (·.presentation) = [100000, 116666] := by decide

end FramePacing
end Host
end CloudGaming
