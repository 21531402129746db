import CloudGaming.Async.Along
import CloudGaming.Host.Injected
/-!
# Combinations — the key combinations that must not reach the operating system

The filter tests a keydown against the keys the client reports down, which are those that are pressed in the operating
system only while every release takes effect.  In a run in which it does, for the keys of the filter, no dangerous
combination is ever injected (`harmless_of_releases`).
-/
namespace CloudGaming
namespace Host
namespace KeyInput

open Async

/-! ## The combinations -/

/-- An Alt key with Tab or F4, or a Ctrl key with Escape. -/
def dangerous (a b : Nat) : Prop :=
  (a = VK_LMENU ∨ a = VK_RMENU) ∧ (b = VK_TAB ∨ b = VK_F4) ∨ (a = VK_LCONTROL ∨ a = VK_RCONTROL) ∧ b = VK_ESCAPE

instance (a b : Nat) : Decidable (dangerous a b) := inferInstanceAs (Decidable (_ ∨ _))

/-- The keys the filter is about. -/
def filtered (vkCode : Nat) : Prop :=
  vkCode ∈ [VK_TAB, VK_F4, VK_ESCAPE, VK_LMENU, VK_RMENU, VK_LCONTROL, VK_RCONTROL]

instance (vkCode : Nat) : Decidable (filtered vkCode) := inferInstanceAs (Decidable (_ ∈ _))

theorem filtered_of_dangerous {a b : Nat} (h : dangerous a b) : filtered a ∧ filtered b := by
  rcases h with ⟨rfl | rfl, rfl | rfl⟩ | ⟨rfl | rfl, rfl⟩ <;> decide

/-- A filtered key has one code. -/
theorem code_filtered {c d : String} (hc : filtered (mapJavaScriptCodeToVK c))
    (h : mapJavaScriptCodeToVK c = mapJavaScriptCodeToVK d) : c = d := by
  refine code_unique h (fun hz => ?_) fun hr => ?_
  · rw [hz] at hc
    revert hc
    decide
  · rw [hr] at hc
    revert hc
    decide

namespace Keyboard

variable {k : Keyboard} {m : Moment} {shots : String → Shot}

/-- The key of the code is down in the operating system, as far as the handler injected it. -/
def Pressed (k : Keyboard) (c : String) : Prop := k.injected c = some .down

/-- **No dangerous combination is injected.** -/
def Harmless (k : Keyboard) : Prop :=
  ∀ c d, k.Pressed c → k.Pressed d → ¬dangerous (mapJavaScriptCodeToVK c) (mapJavaScriptCodeToVK d)

/-! ## The condition -/

/-- A release of the code takes effect, where its key is filtered and pressed: the state machine has it down, and the
event lands. -/
def Releases (k : Keyboard) (c : String) (lands : Prop) : Prop :=
  filtered (mapJavaScriptCodeToVK c) → k.Pressed c → k.keyStates c = .down ∧ lands

/-- A keyup the handler acts on takes effect. -/
def KeyupReleases (k : Keyboard) (m : Moment) (e : KeyEvent) : Prop :=
  e.state = .up → mapJavaScriptCodeToVK e.code ∈ k.clientReportedKeysDown →
    k.Releases e.code (m.check.shouldInjectInput = true ∧ m.inject.lands = true)

def RoundReleases (k : Keyboard) (m : Moment) (j : Json) : Prop :=
  (j.isObject && j.contains "code" && j.contains "type") = true →
    ∀ s ∈ sequenceId? j, ∀ e ∈ keyEvent? j, (k.processSequence m s).KeyupReleases m e

/-- The releases of an overflow take effect. -/
def OverflowReleases (k : Keyboard) (shots : String → Shot) : Prop := ∀ c, k.Releases c ((shots c).lands = true)

/-! ## The invariant -/

/-- The client reports the filtered keys that are pressed, and reports no dangerous combination. -/
structure Covered (k : Keyboard) : Prop where
  reported : ∀ c, filtered (mapJavaScriptCodeToVK c) → k.Pressed c →
    mapJavaScriptCodeToVK c ∈ k.clientReportedKeysDown
  apart : ∀ a ∈ k.clientReportedKeysDown, ∀ b ∈ k.clientReportedKeysDown, ¬dangerous a b

theorem harmless_of_covered (h : k.Covered) : k.Harmless := fun c d hc hd hcd =>
  have hf := filtered_of_dangerous hcd
  h.apart _ (h.reported c hf.1 hc) _ (h.reported d hf.2 hd) hcd

/-- A release of all keys presses none. -/
theorem pressed_releaseAllKeys {c : String} (h : (k.releaseAllKeys shots).Pressed c) :
    k.Pressed c ∧ ¬(k.keyStates c = .down ∧ mapJavaScriptCodeToVK c ≠ 0 ∧ (shots c).lands = true) := by
  unfold Pressed releaseAllKeys at h
  dsimp only at h
  split at h
  · cases h
  · rename_i hn
    exact ⟨h, hn⟩

theorem covered_releaseAllKeys (h : k.Covered) : (k.releaseAllKeys shots).Covered :=
  ⟨fun c hc hp => h.reported c hc (pressed_releaseAllKeys hp).1, h.apart⟩

theorem covered_processSequence (h : k.Covered) (s : Nat) : (k.processSequence m s).Covered := by
  unfold processSequence
  split
  · have : (k.releaseAllKeys m.recover).Covered := covered_releaseAllKeys h
    exact ⟨this.reported, this.apart⟩
  · exact ⟨h.reported, h.apart⟩

theorem covered_overflow (hr : k.OverflowReleases shots) : (k.overflow shots).Covered := by
  refine ⟨fun c hc hp => ?_, fun a ha => absurd ha (Finset.notMem_empty a)⟩
  obtain ⟨hpressed, hn⟩ := pressed_releaseAllKeys hp
  obtain ⟨hdown, hlands⟩ := hr c hc hpressed
  have hvk : mapJavaScriptCodeToVK c ≠ 0 := fun hz => by
    rw [hz] at hc
    revert hc
    decide
  exact absurd ⟨hdown, hvk, hlands⟩ hn

/-- What a transition injects. -/
theorem injected_transition (c : String) (st : KeyState) : (k.transition m c st).injected =
    if k.keyStates c ≠ st ∧ m.check.shouldInjectInput = true ∧ mapJavaScriptCodeToVK c ≠ 0 ∧ m.inject.lands = true then
      Function.update k.injected c (some st)
    else k.injected := by
  unfold transition simulate
  by_cases hst : k.keyStates c = st
  · rw [if_pos hst, if_neg fun h => h.1 hst]
  rw [if_neg hst]
  dsimp only
  by_cases hcheck : m.check.shouldInjectInput = true
  · rw [if_pos hcheck]
    by_cases hland : mapJavaScriptCodeToVK c ≠ 0 ∧ m.inject.lands = true
    · rw [if_pos hland, if_pos ⟨hst, hcheck, hland⟩]
    · rw [if_neg hland, if_neg fun h => hland h.2.2]
  · rw [if_neg hcheck, if_neg fun h => hcheck h.2.1]

/-- A transition presses at most the key of its code. -/
theorem pressed_transition {c d : String} {st : KeyState} (h : (k.transition m c st).Pressed d) :
    k.Pressed d ∨ d = c ∧ st = .down := by
  unfold Pressed at h
  rw [injected_transition] at h
  split at h
  · by_cases hd : d = c
    · subst hd
      rw [Function.update_self] at h
      exact .inr ⟨rfl, Option.some.inj h⟩
    · rw [Function.update_of_ne hd] at h
      exact .inl h
  · exact .inl h

theorem clientReportedKeysDown_transition (c : String) (st : KeyState) :
    (k.transition m c st).clientReportedKeysDown = k.clientReportedKeysDown := by
  unfold transition simulate
  split
  · rfl
  · dsimp only
    split
    · split <;> rfl
    · rfl

/-- A keydown the filter lets pass makes no dangerous combination with the keys reported. -/
theorem apart_of_passes {a b : Nat} (h : k.dangerousCombination a = false) (hb : b ∈ k.clientReportedKeysDown) :
    ¬dangerous a b ∧ ¬dangerous b a := by
  constructor
  · rintro (⟨rfl | rfl, rfl | rfl⟩ | ⟨rfl | rfl, rfl⟩) <;> simp [dangerousCombination, hb] at h
  · rintro (⟨rfl | rfl, rfl | rfl⟩ | ⟨rfl | rfl, rfl⟩) <;> simp [dangerousCombination, hb] at h

theorem covered_keydown (h : k.Covered) {c : String} (hp : k.dangerousCombination (mapJavaScriptCodeToVK c) = false) :
    (k.track m c .down).Covered := by
  refine ⟨fun d hd hpressed => ?_, fun a ha b hb => ?_⟩
  · rw [track, clientReportedKeysDown_transition]
    rcases pressed_transition hpressed with hpressed | ⟨rfl, -⟩
    · exact Finset.mem_insert_of_mem (h.reported d hd hpressed)
    · exact Finset.mem_insert_self _ _
  · rw [track, clientReportedKeysDown_transition] at ha hb
    have hself : ¬dangerous (mapJavaScriptCodeToVK c) (mapJavaScriptCodeToVK c) := by
      rintro (⟨h | h, h' | h'⟩ | ⟨h | h, h'⟩) <;> exact absurd (h.symm.trans h') (by decide)
    rcases Finset.mem_insert.1 ha with rfl | ha <;> rcases Finset.mem_insert.1 hb with rfl | hb
    · exact hself
    · exact (apart_of_passes hp hb).1
    · exact (apart_of_passes hp ha).2
    · exact h.apart a ha b hb

theorem covered_keyup (h : k.Covered) {c : String} (hvk : mapJavaScriptCodeToVK c ≠ 0)
    (hr : k.KeyupReleases m ⟨c, .up⟩) : (k.track m c .up).Covered := by
  unfold track
  dsimp only
  split
  · rename_i hin
    refine ⟨fun d hd hpressed => ?_, fun a ha b hb => ?_⟩
    · rw [clientReportedKeysDown_transition]
      have hbefore : k.Pressed d := by
        rcases pressed_transition hpressed with h | ⟨-, h⟩
        · exact h
        · cases h
      refine Finset.mem_erase.2 ⟨fun heq => ?_, h.reported d hd hbefore⟩
      -- the key of the code itself is no longer pressed
      obtain rfl := code_filtered hd heq
      obtain ⟨hdown, hcheck, hlands⟩ := hr rfl hin hd hbefore
      unfold Pressed at hpressed
      rw [injected_transition, if_pos ⟨by simp [hdown], hcheck, hvk, hlands⟩, Function.update_self] at hpressed
      cases hpressed
    · rw [clientReportedKeysDown_transition] at ha hb
      exact h.apart a (Finset.mem_of_mem_erase ha) b (Finset.mem_of_mem_erase hb)
  · exact h

theorem covered_handle {j : Json} (h : k.Covered) (hr : k.RoundReleases m j) : (k.handle m j).Covered := by
  unfold handle
  by_cases hshape : (j.isObject && j.contains "code" && j.contains "type") = true
  · rw [if_pos hshape]
    cases hs : sequenceId? j with
    | none => exact h
    | some s =>
      have hseq : (k.processSequence m s).Covered := covered_processSequence h s
      dsimp only
      cases he : keyEvent? j with
      | none => exact hseq
      | some e =>
        dsimp only
        have hkeyup := hr hshape s hs e he
        obtain ⟨c, st⟩ := e
        by_cases hp : (k.processSequence m s).passes c st = true
        · rw [if_pos hp]
          unfold passes at hp
          simp only [Bool.and_eq_true, decide_eq_true_eq, Bool.not_eq_true', Bool.and_eq_false_iff] at hp
          cases st with
          | down => exact covered_keydown hseq (by simpa using hp.2)
          | up => exact covered_keyup hseq hp.1.1 hkeyup
        · rw [if_neg hp]
          exact hseq
  · rw [if_neg hshape]
    exact h

end Keyboard

end KeyInput

namespace Handlers

open Async KeyInput

/-- The releases of a step take effect, for the filtered keys that are pressed: keyups and overflows. -/
def Releases (h : Handlers) : Stimulus → Prop
  | .key m j => h.keyboard.RoundReleases m j
  | .keyOverflow shots => h.keyboard.OverflowReleases shots
  | _ => True

variable (enableMouseSequencing : Bool)

/-- The handlers take every stimulus. -/
def move (h : Handlers) (s : Stimulus) : Option Handlers := some (h.step enableMouseSequencing s)

variable {enableMouseSequencing}

theorem covered_step {h : Handlers} {s : Stimulus} (hc : h.keyboard.Covered) (hr : h.Releases s) :
    (h.step enableMouseSequencing s).keyboard.Covered := by
  cases s with
  | key m j => exact Keyboard.covered_handle hc hr
  | keyOverflow shots => exact Keyboard.covered_overflow hr
  | keyEmergency shots => exact Keyboard.covered_releaseAllKeys hc
  | mouse m click j =>
    unfold step
    dsimp only
    split
    · split
      · exact hc
      · dsimp only
        split
        · exact Keyboard.covered_processSequence hc _
        · exact hc
    · exact hc
  | mouseOverflow clicks | mouseEmergency clicks => exact hc

/-- **While the releases of the filtered keys take effect, no dangerous combination reaches the operating system.** -/
theorem harmless_of_releases (enableMouseSequencing : Bool) (ss : List Stimulus)
    (h : Along (move enableMouseSequencing) Releases {} ss) :
    Throughout (move enableMouseSequencing) (·.keyboard.Harmless) {} ss := by
  have hcovered : Throughout (move enableMouseSequencing) (·.keyboard.Covered) {} ss := by
    refine .of_along (fun s m s' hc hr hs => ?_) ⟨fun c _ hp => ?_, fun a ha => absurd ha (Finset.notMem_empty a)⟩ h
    · obtain rfl := Option.some.inj hs
      exact covered_step hc hr
    · cases hp
  exact hcovered.mono fun s => Keyboard.harmless_of_covered

/-- A key goes down or up while the window is in the foreground. -/
def stroke (foreground : Nat) (eventType jsCode : String) : Stimulus :=
  .key (momentAt foreground) (.obj [("code", .str jsCode), ("type", .str eventType)])

/-- Alt is pressed and let go in the game, then Tab is pressed. -/
def altThenTab : List Stimulus := [stroke 1 "keydown" "AltLeft", stroke 1 "keyup" "AltLeft", stroke 1 "keydown" "Tab"]

theorem harmless_altThenTab : Throughout (move false) (·.keyboard.Harmless) {} altThenTab := by
  refine harmless_of_releases false altThenTab ?_
  intro s hs
  obtain rfl := Option.some.inj hs
  refine ⟨fun _ n hn e he => ?_, fun s hs => ?_⟩
  · obtain rfl := Option.some.inj hn
    obtain rfl := Option.some.inj he
    exact fun h => by cases h
  obtain rfl := Option.some.inj hs
  refine ⟨fun _ n hn e he => ?_, fun s hs => ?_⟩
  · obtain rfl := Option.some.inj hn
    obtain rfl := Option.some.inj he
    exact fun _ _ _ _ => ⟨by decide +kernel, by decide, by decide⟩
  obtain rfl := Option.some.inj hs
  refine ⟨fun _ n hn e he => ?_, trivial⟩
  obtain rfl := Option.some.inj hn
  obtain rfl := Option.some.inj he
  exact fun h => by cases h

/-- Alt is let go after the game lost the foreground, and Tab is pressed once it has it again. -/
def altLeftBehind : List Stimulus :=
  [stroke 1 "keydown" "AltLeft", stroke 2 "keyup" "AltLeft", stroke 1 "keydown" "Tab"]

theorem not_harmless : ¬∀ enableMouseSequencing ss,
    Throughout (move enableMouseSequencing) (·.keyboard.Harmless) {} ss := by
  intro h
  have hrun : after (move false) {} altLeftBehind = some (run false {} altLeftBehind) := rfl
  have hlast := (h false altLeftBehind).after hrun
  have halt : (run false {} altLeftBehind).keyboard.injected "AltLeft" = some .down := by decide +kernel
  have htab : (run false {} altLeftBehind).keyboard.injected "Tab" = some .down := by decide +kernel
  exact hlast "AltLeft" "Tab" halt htab (by decide)

end Handlers

end Host
end CloudGaming
