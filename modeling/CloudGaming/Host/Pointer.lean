import CloudGaming.Host.Mouse
import Mathlib.Algebra.Order.Field.Rat
import Mathlib.Tactic.Linarith
import Mathlib.Tactic.FieldSimp
/-!
# Pointer — where a move and a click of the mouse go

`transformClientToAbsolute` takes a point of the client's view to one of the target window, and that to the grid of
65536 by 65536 absolute units over the virtual desktop.  A button event transforms its position as it is; a move clamps
it to the bounds of the desktop before.  Quotients are without rounding errors.
-/
namespace CloudGaming
namespace Host
namespace Pointer

/-- What `GetSystemMetrics` says of the virtual desktop and of the primary screen. -/
structure SystemMetrics where
  virtualOrigin : Int × Int
  virtualSize : Int × Int
  primarySize : Int × Int
  deriving DecidableEq

/-- The origin and the size that are used: those of the primary screen, where the virtual desktop has none. -/
def SystemMetrics.desktop (m : SystemMetrics) : (Int × Int) × (Int × Int) :=
  if m.virtualSize.1 ≤ 0 ∨ m.virtualSize.2 ≤ 0 then ((0, 0), m.primarySize) else (m.virtualOrigin, m.virtualSize)

structure Rect where
  left : Int
  top : Int
  right : Int
  bottom : Int
  deriving DecidableEq

/-- The screens, the client area of the target window on them, where it can be read, and the size of the client's
view. -/
structure Geometry where
  metrics : SystemMetrics
  clientRect : Option Rect
  clientView : Int × Int
  deriving DecidableEq

/-- One axis of the transform: the client's view, the target window and the desktop. -/
structure Axis where
  view : Int
  left : Int
  right : Int
  origin : Int
  extent : Int
  deriving DecidableEq

namespace Axis

section

variable (a : Axis) (c : Int)

def unclipped : Int := a.left + truncate ((c : ℚ) * (a.right - a.left : Int) / a.view)

/-- The point of the target window. -/
def virtualDesktop : Int := max a.left (min (a.right - 1) (a.unclipped c))

def absolute : Int := truncate (max 0 (min 65535 (((a.virtualDesktop c - a.origin : Int) : ℚ) / a.extent * 65535)))

end

end Axis

def Geometry.axisX (g : Geometry) (rect : Rect) : Axis :=
  ⟨g.clientView.1, rect.left, rect.right, g.metrics.desktop.1.1, g.metrics.desktop.2.1⟩

def Geometry.axisY (g : Geometry) (rect : Rect) : Axis :=
  ⟨g.clientView.2, rect.top, rect.bottom, g.metrics.desktop.1.2, g.metrics.desktop.2.2⟩

structure TransformResult where
  absolute : Int × Int
  virtualDesktop : Int × Int
  wasClipped : Bool
  deriving DecidableEq

/-- `getWindowClientRect` -/
def getWindowClientRect (g : Geometry) : Option Rect :=
  g.clientRect.filter fun rect => rect.left < rect.right && rect.top < rect.bottom

def transformClientToAbsolute (g : Geometry) (client : Int × Int) : Except String TransformResult :=
  if g.clientView.1 ≤ 0 ∨ g.clientView.2 ≤ 0 then throw "Invalid client view dimensions"
  else match getWindowClientRect g with
    | none => throw "Invalid target window client area"
    | some rect =>
      let x := g.axisX rect
      let y := g.axisY rect
      if g.metrics.desktop.2.1 ≤ 0 ∨ g.metrics.desktop.2.2 ≤ 0 then throw "Invalid virtual desktop dimensions"
      else pure
        { absolute := (x.absolute client.1, y.absolute client.2)
          virtualDesktop := (x.virtualDesktop client.1, y.virtualDesktop client.2)
          wasClipped :=
            x.virtualDesktop client.1 ≠ x.unclipped client.1 || y.virtualDesktop client.2 ≠ y.unclipped client.2 }

/-- A coordinate, clamped to the bounds of the desktop. -/
def clampTo (origin extent c : Int) : Int :=
  if c < origin then origin else if origin + extent - 1 < c then origin + extent - 1 else c

def clampToVirtualDesktop (m : SystemMetrics) (client : Int × Int) : Int × Int :=
  (clampTo m.desktop.1.1 m.desktop.2.1 client.1, clampTo m.desktop.1.2 m.desktop.2.2 client.2)

/-- The absolute point that `simulateWindowsMouseEvent` moves to at a `mousemove`. -/
def moveTarget (g : Geometry) (client : Int × Int) : Option (Int × Int) :=
  (transformClientToAbsolute g (clampToVirtualDesktop g.metrics client)).toOption.map (·.absolute)

/-- … and before a `mousedown` or `mouseup`. -/
def buttonTarget (g : Geometry) (client : Int × Int) : Option (Int × Int) :=
  (transformClientToAbsolute g client).toOption.map (·.absolute)

/-! ## When a position can be transformed -/

/-- The view, the client area of the window and the desktop have a size. -/
structure Geometry.Valid (g : Geometry) (rect : Rect) : Prop where
  view : 0 < g.clientView.1 ∧ 0 < g.clientView.2
  window : g.clientRect = some rect
  area : rect.left < rect.right ∧ rect.top < rect.bottom
  desktop : 0 < g.metrics.desktop.2.1 ∧ 0 < g.metrics.desktop.2.2

section

variable {g : Geometry} {rect : Rect}

theorem buttonTarget_of_valid (h : g.Valid rect) (client : Int × Int) :
    buttonTarget g client = some ((g.axisX rect).absolute client.1, (g.axisY rect).absolute client.2) := by
  have hrect : getWindowClientRect g = some rect := by
    unfold getWindowClientRect
    rw [h.window]
    simp [h.area.1, h.area.2]
  have := h.view
  have := h.desktop
  unfold buttonTarget transformClientToAbsolute
  rw [if_neg (by omega), hrect]
  dsimp only
  rw [if_neg (by omega)]
  rfl

theorem buttonTarget_of_not_valid (h : ∀ rect, ¬ g.Valid rect) (client : Int × Int) : buttonTarget g client = none := by
  unfold buttonTarget transformClientToAbsolute
  split
  · rfl
  rename_i hview
  split
  · rfl
  rename_i rect hrect
  obtain ⟨hwindow, harea⟩ := Option.filter_eq_some_iff.1 hrect
  simp only [Bool.and_eq_true, decide_eq_true_eq] at harea
  dsimp only
  rw [if_pos]
  · rfl
  · by_contra hdesktop
    exact h rect ⟨by omega, hwindow, harea, by omega⟩

end

/-! ## Which coordinates meet -/

namespace Axis

variable {a : Axis} {c c' k : Int}

/-- The first point of the desktop that is mapped to `k` absolute units or more. -/
def boundary (a : Axis) (k : Int) : Int := a.origin + (k * a.extent + 65534) / 65535

/-- No boundary between two absolute units that lies inside the target window separates the two coordinates, scaled to
the window. -/
def Together (a : Axis) (c c' : Int) : Prop :=
  ∀ k, 1 ≤ k → k ≤ 65535 → a.left < a.boundary k → a.boundary k < a.right →
    ((a.boundary k - a.left) * a.view ≤ c * (a.right - a.left) ↔
      (a.boundary k - a.left) * a.view ≤ c' * (a.right - a.left))

theorem absolute_nonneg (a : Axis) (c : Int) : 0 ≤ a.absolute c := by
  unfold absolute
  rw [truncate_of_nonneg (le_max_left _ _)]
  exact Rat.le_floor_iff.2 (le_max_left _ _)

theorem absolute_le (a : Axis) (c : Int) : a.absolute c ≤ 65535 := by
  unfold absolute
  rw [truncate_of_nonneg (le_max_left _ _)]
  have hle : max 0 (min 65535 (((a.virtualDesktop c - a.origin : Int) : ℚ) / a.extent * 65535)) ≤ 65535 :=
    max_le (by norm_num) (min_le_left _ _)
  have hfloor := (Rat.floor_le _).trans hle
  exact_mod_cast hfloor

theorem le_absolute_iff (hextent : 0 < a.extent) (h1 : 1 ≤ k) (hk : k ≤ 65535) :
    k ≤ a.absolute c ↔ a.boundary k ≤ a.virtualDesktop c := by
  have hpos : (0 : ℚ) < a.extent := by exact_mod_cast hextent
  have hk0 : ¬ (k : ℚ) ≤ 0 := by
    rw [not_le]
    exact_mod_cast (by omega : 0 < k)
  have hk1 : (k : ℚ) ≤ 65535 := by exact_mod_cast hk
  have hscaled : (k : ℚ) ≤ ((a.virtualDesktop c - a.origin : Int) : ℚ) / a.extent * 65535 ↔
      k * a.extent ≤ (a.virtualDesktop c - a.origin) * 65535 := by
    rw [div_mul_eq_mul_div, le_div_iff₀ hpos]
    exact_mod_cast Iff.rfl
  unfold absolute
  rw [le_truncate_iff (by omega), le_max_iff, le_min_iff, hscaled]
  unfold boundary
  constructor
  · rintro (h | ⟨-, h⟩)
    · exact absurd h hk0
    · omega
  · intro h
    exact .inr ⟨hk1, by omega⟩

theorem le_virtualDesktop_iff (hview : 0 < a.view) {p : Int} :
    p ≤ a.virtualDesktop c ↔ p ≤ a.left ∨ (p < a.right ∧ (p - a.left) * a.view ≤ c * (a.right - a.left)) := by
  have hpos : (0 : ℚ) < a.view := by exact_mod_cast hview
  unfold virtualDesktop unclipped
  rw [le_max_iff, le_min_iff]
  by_cases hleft : p ≤ a.left
  · exact iff_of_true (.inl hleft) (.inl hleft)
  · have hq := le_truncate_iff (n := p - a.left) (by omega) ((c : ℚ) * (a.right - a.left : Int) / a.view)
    rw [le_div_iff₀ hpos] at hq
    have hint : ((p - a.left : Int) : ℚ) * a.view ≤ (c : ℚ) * (a.right - a.left : Int) ↔
        (p - a.left) * a.view ≤ c * (a.right - a.left) := by exact_mod_cast Iff.rfl
    rw [hint] at hq
    rw [← hq]
    omega

/-- **Two coordinates meet in one absolute unit exactly if no boundary separates them.** -/
theorem absolute_eq_iff (hview : 0 < a.view) (hextent : 0 < a.extent) :
    a.absolute c = a.absolute c' ↔ a.Together c c' := by
  have hmeet : a.absolute c = a.absolute c' ↔ ∀ k, 1 ≤ k → k ≤ 65535 → (k ≤ a.absolute c ↔ k ≤ a.absolute c') := by
    have := a.absolute_nonneg c
    have := a.absolute_nonneg c'
    have := a.absolute_le c
    have := a.absolute_le c'
    refine ⟨fun h k _ _ => by rw [h], fun h => ?_⟩
    rcases lt_trichotomy (a.absolute c) (a.absolute c') with hlt | heq | hlt
    · have := (h (a.absolute c') (by omega) (by omega)).2 le_rfl
      omega
    · exact heq
    · have := (h (a.absolute c) (by omega) (by omega)).1 le_rfl
      omega
  rw [hmeet]
  refine forall_congr' fun k => forall_congr' fun h1 => forall_congr' fun hk => ?_
  rw [le_absolute_iff hextent h1 hk, le_absolute_iff hextent h1 hk, le_virtualDesktop_iff hview,
    le_virtualDesktop_iff hview]
  by_cases hleft : a.boundary k ≤ a.left
  · simp [hleft, not_lt.2 hleft]
  · by_cases hright : a.boundary k < a.right
    · simp [hleft, hright, not_le.1 hleft]
    · simp [hleft, hright]

end Axis

/-- **A move and a click at a position go to the same point exactly where no position can be transformed, or where no
boundary that lies in the target window separates the position from the one clamped to the desktop.** -/
theorem targets_eq_iff (g : Geometry) (client : Int × Int) :
    moveTarget g client = buttonTarget g client ↔
      ∀ rect, g.Valid rect →
        (g.axisX rect).Together (clampToVirtualDesktop g.metrics client).1 client.1 ∧
          (g.axisY rect).Together (clampToVirtualDesktop g.metrics client).2 client.2 := by
  have hmove : moveTarget g client = buttonTarget g (clampToVirtualDesktop g.metrics client) := rfl
  rw [hmove]
  by_cases hvalid : ∃ rect, g.Valid rect
  · obtain ⟨rect, h⟩ := hvalid
    have honly : ∀ rect', g.Valid rect' → rect' = rect := fun rect' h' =>
      Option.some.inj (h'.window.symm.trans h.window)
    rw [buttonTarget_of_valid h, buttonTarget_of_valid h, Option.some.injEq, Prod.mk.injEq,
      Axis.absolute_eq_iff h.view.1 h.desktop.1, Axis.absolute_eq_iff h.view.2 h.desktop.2]
    constructor
    · intro htogether rect' h'
      rw [honly rect' h']
      exact htogether
    · exact fun hall => hall rect h
  · have hnot : ∀ rect, ¬ g.Valid rect := fun rect h => hvalid ⟨rect, h⟩
    rw [buttonTarget_of_not_valid hnot, buttonTarget_of_not_valid hnot]
    exact iff_of_true rfl fun rect h => absurd h (hnot rect)

/-- … so they agree wherever the position, in the client's view, is one of the desktop as well. -/
theorem targets_eq_of_mem (g : Geometry) (client : Int × Int)
    (hx : g.metrics.desktop.1.1 ≤ client.1 ∧ client.1 < g.metrics.desktop.1.1 + g.metrics.desktop.2.1)
    (hy : g.metrics.desktop.1.2 ≤ client.2 ∧ client.2 < g.metrics.desktop.1.2 + g.metrics.desktop.2.2) :
    moveTarget g client = buttonTarget g client := by
  have hsame : clampToVirtualDesktop g.metrics client = client := by
    unfold clampToVirtualDesktop clampTo
    rw [if_neg (by omega), if_neg (by omega), if_neg (by omega), if_neg (by omega)]
  unfold moveTarget buttonTarget
  rw [hsame]

/-- A desktop of 1366 by 768, the game full screen on it, and a client that shows it at 1920 by 1080. -/
def laptop : Geometry := ⟨⟨(0, 0), (1366, 768), (1366, 768)⟩, some ⟨0, 0, 1366, 768⟩, (1920, 1080)⟩

theorem targets_differ : ¬ ∀ (g : Geometry) (client : Int × Int), moveTarget g client = buttonTarget g client := by
  intro h
  exact absurd (h laptop (1800, 500)) (by decide +kernel)

end Pointer
end Host
end CloudGaming
