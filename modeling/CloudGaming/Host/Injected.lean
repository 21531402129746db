import CloudGaming.Host.Mouse
/-!
# Injected — the presses the two handlers leave outstanding

The handlers record a key or a button as up whether or not its release is injected.  A run leaves no press outstanding
where every release of an outstanding press lands.
-/
namespace CloudGaming
namespace Host

open KeyInput MouseInput

/-! ## A record and a history -/

/-- **Nothing is recorded up while its press is outstanding**. -/
def Matched {α : Type} (down : α → Prop) (injected : α → Option KeyState) : Prop :=
  ∀ x, ¬down x → injected x ≠ some .down

namespace Matched

variable {α : Type} {down down' : α → Prop} {injected injected' : α → Option KeyState}

/-- One key or button changes. -/
theorem update {a : α} (h : Matched down injected) (hdown : ∀ x, x ≠ a → down x → down' x)
    (hinjected : ∀ x, x ≠ a → injected' x = injected x) (ha : ¬down' a → injected' a ≠ some .down) :
    Matched down' injected' := by
  intro x hx
  by_cases hxa : x = a
  · subst hxa; exact ha hx
  · rw [hinjected x hxa]
    exact h x fun hd => hx (hdown x hxa hd)

/-- Everything comes up, and what was down is released. -/
theorem releaseAll (h : Matched down injected)
    (hinjected : ∀ x, injected' x = some .down → injected x = some .down ∧ ¬down x) : Matched down' injected' :=
  fun x _ hx => h x (hinjected x hx).2 (hinjected x hx).1

end Matched

/-! ## The keyboard -/

namespace KeyInput

variable {k : Keyboard} {m : Moment} {shots : String → Shot}

/-- A code recorded down, its press the last event injected. -/
def Keyboard.Due (k : Keyboard) (c : String) : Prop := k.keyStates c = .down ∧ k.injected c = some .down

/-- The release of every due code lands. -/
def Keyboard.AllLand (k : Keyboard) (shots : String → Shot) : Prop :=
  ∀ c, k.Due c → mapJavaScriptCodeToVK c ≠ 0 ∧ (shots c).lands = true

/-- The releases of a recovery land, where the sequence number starts one. -/
def Keyboard.RecoveryLands (k : Keyboard) (m : Moment) (sequenceId : Nat) : Prop :=
  k.sequence.gap sequenceId = true → k.sequence.throttled m.now = false → k.AllLand m.recover

/-- The keyup of a due code lands: the loop's test, the gate of the injection, and `SendInput`. -/
def Keyboard.KeyupLands (k : Keyboard) (m : Moment) (e : KeyEvent) : Prop :=
  e.state = .up → k.passes e.code e.state = true → mapJavaScriptCodeToVK e.code ∈ k.clientReportedKeysDown →
    k.Due e.code → m.check.shouldInjectInput = true ∧ m.inject.lands = true

def Keyboard.RoundLands (k : Keyboard) (m : Moment) (j : Json) : Prop :=
  (j.isObject && j.contains "code" && j.contains "type") = true →
    ∀ s ∈ sequenceId? j, k.RecoveryLands m s ∧ ∀ e ∈ keyEvent? j, (k.processSequence m s).KeyupLands m e

def Keyboard.Matched (k : Keyboard) : Prop := Host.Matched (fun c => k.keyStates c = .down) k.injected

theorem matched_releaseAllKeys (h : k.Matched) (hl : k.AllLand shots) : (k.releaseAllKeys shots).Matched := by
  refine Host.Matched.releaseAll h fun c hc => ?_
  unfold Keyboard.releaseAllKeys at hc
  dsimp only at hc
  by_cases hr : k.keyStates c = .down ∧ mapJavaScriptCodeToVK c ≠ 0 ∧ (shots c).lands = true
  · rw [if_pos hr] at hc
    cases hc
  · rw [if_neg hr] at hc
    exact ⟨hc, fun hd => hr ⟨hd, hl c ⟨hd, hc⟩⟩⟩

theorem matched_processSequence {s : Nat} (h : k.Matched) (hl : k.RecoveryLands m s) :
    (k.processSequence m s).Matched := by
  unfold Keyboard.processSequence
  by_cases hr : (k.sequence.gap s && !k.sequence.throttled m.now) = true
  · rw [if_pos hr]
    simp only [Bool.and_eq_true, Bool.not_eq_true'] at hr
    exact matched_releaseAllKeys h (hl hr.1 hr.2)
  · rw [if_neg hr]
    exact h

/-- What a transition records. -/
theorem matched_transition {c : String} {st : KeyState} (h : k.Matched)
    (hl : st = .up → k.Due c → m.check.shouldInjectInput = true ∧ mapJavaScriptCodeToVK c ≠ 0 ∧ m.inject.lands = true) :
    (k.transition m c st).Matched := by
  unfold Keyboard.transition
  by_cases hst : k.keyStates c = st
  · rw [if_pos hst]
    exact h
  rw [if_neg hst]
  have hdown : ∀ d, d ≠ c → k.keyStates d = .down → Function.update k.keyStates c st d = .down := fun d hd hk => by
    rw [Function.update_of_ne hd]; exact hk
  have hself : ¬Function.update k.keyStates c st c = .down → st = .up ∧ k.keyStates c = .down := by
    rw [Function.update_self]
    intro hne
    cases st with
    | down => exact absurd rfl hne
    | up => cases hk : k.keyStates c with
      | up => exact absurd hk hst
      | down => exact ⟨rfl, rfl⟩
  dsimp only
  by_cases hcheck : m.check.shouldInjectInput = true
  · rw [if_pos hcheck]
    unfold Keyboard.simulate
    by_cases hland : mapJavaScriptCodeToVK c ≠ 0 ∧ m.inject.lands = true
    · rw [if_pos hland]
      refine Host.Matched.update h hdown (fun d hd => Function.update_of_ne hd _ _) fun hup => ?_
      dsimp only
      rw [Function.update_self, (hself hup).1]
      exact fun h => by cases h
    · rw [if_neg hland]
      exact Host.Matched.update h hdown (fun _ _ => rfl) fun hup hi =>
        hland (hl (hself hup).1 ⟨(hself hup).2, hi⟩).2
  · rw [if_neg hcheck]
    exact Host.Matched.update h hdown (fun _ _ => rfl) fun hup hi =>
      hcheck (hl (hself hup).1 ⟨(hself hup).2, hi⟩).1

theorem matched_handle {j : Json} (h : k.Matched) (hl : k.RoundLands m j) : (k.handle m j).Matched := by
  unfold Keyboard.handle
  by_cases hshape : (j.isObject && j.contains "code" && j.contains "type") = true
  · rw [if_pos hshape]
    cases hs : sequenceId? j with
    | none => exact h
    | some s =>
      obtain ⟨hrec, hevent⟩ := hl hshape s hs
      have hseq := matched_processSequence h hrec
      dsimp only
      cases he : keyEvent? j with
      | none => exact hseq
      | some e =>
        dsimp only
        by_cases hp : (k.processSequence m s).passes e.code e.state = true
        · rw [if_pos hp]
          have hkeyup := hevent e he
          have hvk : mapJavaScriptCodeToVK e.code ≠ 0 := by
            unfold Keyboard.passes at hp
            simp only [Bool.and_eq_true, decide_eq_true_eq] at hp
            exact hp.1.1
          unfold Keyboard.track
          cases hst : e.state with
          | down => exact matched_transition hseq fun h => by cases h
          | up =>
            dsimp only
            split
            · rename_i hin
              refine matched_transition hseq fun _ hdue => ?_
              obtain ⟨hc, hi⟩ := hkeyup hst hp hin hdue
              exact ⟨hc, hvk, hi⟩
            · exact hseq
        · rw [if_neg hp]
          exact hseq
  · rw [if_neg hshape]
    exact h

end KeyInput

/-! ## The mouse -/

namespace MouseInput

variable {s : Mouse} {check : Desktop} {click : Click} {clicks : Int → Click}

def Mouse.Due (s : Mouse) (b : Int) : Prop := b ∈ s.clientReportedMouseButtonsDown ∧ s.injected b = some .down

def Mouse.AllLand (s : Mouse) (clicks : Int → Click) : Prop :=
  ∀ b, s.Due b → (0 ≤ b ∧ b ≤ 4) ∧ (clicks b).lands s.clientView = true

/-- The release of a due button lands: the loop's test, the transform, the gate of the injection, and `SendInput`. -/
def Mouse.ClickLands (s : Mouse) (check : Desktop) (click : Click) (b : Int) (state : KeyState) : Prop :=
  state = .up → s.Due b → check.inForeground = true ∧ click.lands s.clientView = true

/-- The view after the sizes in a message. -/
def Mouse.resized (s : Mouse) (j : Json) : Mouse :=
  match j.valueInt "viewWidth" s.clientView.1, j.valueInt "viewHeight" s.clientView.2 with
  | some width, some height => s.resize width height
  | _, _ => s

def Mouse.RoundLands (s : Mouse) (check : Desktop) (click : Click) (j : Json) : Prop :=
  ∀ t ∈ (j.field? "type").bind Json.str?, t = "mousedown" ∨ t = "mouseup" →
    ∀ e ∈ buttonEvent? j t, (s.resized j).ClickLands check click e.1 e.2

def Mouse.Matched (s : Mouse) : Prop := Host.Matched (· ∈ s.clientReportedMouseButtonsDown) s.injected

theorem matched_releaseAllButtons (h : s.Matched) (hl : s.AllLand clicks) : (s.releaseAllButtons clicks).Matched := by
  refine Host.Matched.releaseAll h fun b hb => ?_
  unfold Mouse.releaseAllButtons at hb
  dsimp only at hb
  by_cases hr : b ∈ s.clientReportedMouseButtonsDown ∧ (0 ≤ b ∧ b ≤ 4) ∧ (clicks b).lands s.clientView = true
  · rw [if_pos hr] at hb
    cases hb
  · rw [if_neg hr] at hb
    exact ⟨hb, fun hd => hr ⟨hd, hl b ⟨hd, hb⟩⟩⟩

theorem matched_resize (h : s.Matched) (width height : Int) : (s.resize width height).Matched := by
  unfold Mouse.resize
  split <;> exact h

theorem injected_simulate_of_ne {b d : Int} (hd : d ≠ b) (state : KeyState) :
    (s.simulate b state click).injected d = s.injected d := by
  unfold Mouse.simulate
  split
  · exact Function.update_of_ne hd _ _
  · rfl

theorem matched_button {b : Int} {state : KeyState} (h : s.Matched) (hb : 0 ≤ b ∧ b ≤ 4)
    (hl : s.ClickLands check click b state) : (s.button check click b state).Matched := by
  unfold Mouse.button
  cases state with
  | down =>
    dsimp only
    split
    · exact h
    · refine Host.Matched.update (a := b) h (fun d _ hd => ?_) (fun d hd => ?_) fun hup => absurd ?_ hup
      · split
        · unfold Mouse.simulate
          split <;> exact Finset.mem_insert_of_mem hd
        · exact Finset.mem_insert_of_mem hd
      · split
        · exact injected_simulate_of_ne hd _
        · rfl
      · split
        · unfold Mouse.simulate
          split <;> exact Finset.mem_insert_self b _
        · exact Finset.mem_insert_self b _
  | up =>
    dsimp only
    split
    · rename_i hin
      refine Host.Matched.update (a := b) h (fun d hne hd => ?_) (fun d hd => ?_) fun _ hi => ?_
      · split
        · unfold Mouse.simulate
          split <;> exact Finset.mem_erase.2 ⟨hne, hd⟩
        · exact Finset.mem_erase.2 ⟨hne, hd⟩
      · split
        · exact injected_simulate_of_ne hd _
        · rfl
      · by_cases hdue : s.injected b = some .down
        · obtain ⟨hc, hland⟩ := hl rfl ⟨hin, hdue⟩
          rw [if_pos hc] at hi
          unfold Mouse.simulate at hi
          rw [if_pos ⟨hb, hland⟩] at hi
          dsimp only at hi
          rw [Function.update_self] at hi
          cases hi
        · split at hi
          · unfold Mouse.simulate at hi
            split at hi
            · dsimp only at hi
              rw [Function.update_self] at hi
              cases hi
            · exact hdue hi
          · exact hdue hi
    · exact h

theorem matched_handle {j : Json} (h : s.Matched) (hl : s.RoundLands check click j) :
    (s.handle check click j).Matched := by
  unfold Mouse.RoundLands Mouse.resized at hl
  unfold Mouse.handle
  cases ht : (j.field? "type").bind Json.str? with
  | none => exact h
  | some t =>
    cases hw : j.valueInt "viewWidth" s.clientView.1 with
    | none => exact h
    | some width =>
      cases hh : j.valueInt "viewHeight" s.clientView.2 with
      | none => exact h
      | some height =>
        rw [ht, hw, hh] at hl
        have hsize := matched_resize h width height
        dsimp only
        by_cases hbutton : t = "mousedown" ∨ t = "mouseup"
        · rw [if_pos hbutton]
          cases he : buttonEvent? j t with
          | none => exact hsize
          | some e =>
            dsimp only
            by_cases hb : 0 ≤ e.1 ∧ e.1 ≤ 4
            · rw [if_pos hb]
              exact matched_button hsize hb (hl t rfl hbutton e he)
            · rw [if_neg hb]
              exact hsize
        · rw [if_neg hbutton]
          exact hsize

end MouseInput

/-! ## The two handlers -/

structure Handlers where
  keyboard : Keyboard := {}
  mouse : Mouse := {}

/-- What the handlers are given, with what the desktop is then. -/
inductive Stimulus where
  | key (m : Moment) (j : Json)
  | keyOverflow (shots : String → Shot)
  | keyEmergency (shots : String → Shot)
  | mouse (m : Moment) (click : Click) (j : Json)
  | mouseOverflow (clicks : Int → Click)
  | mouseEmergency (clicks : Int → Click)

namespace Handlers

/-- One round of a loop, or one release of everything; the mouse's sequence numbers count where the operator turned
`enableMouseSequencing` on. -/
def step (enableMouseSequencing : Bool) (h : Handlers) : Stimulus → Handlers
  | .key m j => { h with keyboard := h.keyboard.handle m j }
  | .keyOverflow shots => { h with keyboard := h.keyboard.overflow shots }
  | .keyEmergency shots => { h with keyboard := h.keyboard.releaseAllKeys shots }
  | .mouse m click j =>
    if j.isObject && j.contains "type" then
      match sequenceId? j with
      | none => h
      | some s =>
        { keyboard := if enableMouseSequencing && 0 < s then h.keyboard.processSequence m s else h.keyboard
          mouse := h.mouse.handle m.check click j }
    else h
  | .mouseOverflow clicks => { h with mouse := h.mouse.releaseAllButtons clicks }
  | .mouseEmergency clicks => { h with mouse := h.mouse.releaseAllButtons clicks }

/-- **The releases of a step land**: of every code and button it records up whose press is outstanding. -/
def Lands (h : Handlers) : Stimulus → Prop
  | .key m j => h.keyboard.RoundLands m j
  | .keyOverflow shots => h.keyboard.AllLand shots
  | .keyEmergency shots => h.keyboard.AllLand shots
  | .mouse m click j => (∀ s ∈ sequenceId? j, h.keyboard.RecoveryLands m s) ∧ h.mouse.RoundLands m.check click j
  | .mouseOverflow clicks => h.mouse.AllLand clicks
  | .mouseEmergency clicks => h.mouse.AllLand clicks

structure Matched (h : Handlers) : Prop where
  keyboard : h.keyboard.Matched
  mouse : h.mouse.Matched

variable (enableMouseSequencing : Bool)

def run (h : Handlers) (ss : List Stimulus) : Handlers := ss.foldl (step enableMouseSequencing) h

/-- The releases of every step of a run land. -/
def RunLands : Handlers → List Stimulus → Prop
  | _, [] => True
  | h, s :: ss => h.Lands s ∧ RunLands (h.step enableMouseSequencing s) ss

variable {enableMouseSequencing}

theorem matched_step {h : Handlers} {s : Stimulus} (hm : h.Matched) (hl : h.Lands s) :
    (h.step enableMouseSequencing s).Matched := by
  cases s with
  | key m j => exact ⟨KeyInput.matched_handle hm.keyboard hl, hm.mouse⟩
  | keyOverflow shots => exact ⟨matched_releaseAllKeys hm.keyboard hl, hm.mouse⟩
  | keyEmergency shots => exact ⟨matched_releaseAllKeys hm.keyboard hl, hm.mouse⟩
  | mouse m click j =>
    unfold step
    dsimp only
    split
    · split
      · exact hm
      · rename_i s hs
        refine ⟨?_, MouseInput.matched_handle hm.mouse hl.2⟩
        dsimp only
        split
        · exact matched_processSequence hm.keyboard (hl.1 s hs)
        · exact hm.keyboard
    · exact hm
  | mouseOverflow clicks => exact ⟨hm.keyboard, matched_releaseAllButtons hm.mouse hl⟩
  | mouseEmergency clicks => exact ⟨hm.keyboard, matched_releaseAllButtons hm.mouse hl⟩

theorem matched_run : ∀ {ss : List Stimulus} {h : Handlers}, h.Matched → RunLands enableMouseSequencing h ss →
    (run enableMouseSequencing h ss).Matched
  | [], _, hm, _ => hm
  | s :: _, h, hm, hl => matched_run (h := h.step enableMouseSequencing s) (matched_step hm hl.1) hl.2

/-- **Every run whose releases land leaves no press outstanding**: a code or button recorded up was not pressed last. -/
theorem matched_of_runLands (enableMouseSequencing : Bool) (ss : List Stimulus)
    (hl : RunLands enableMouseSequencing {} ss) : (run enableMouseSequencing {} ss).Matched :=
  matched_run ⟨fun _ _ h => (by cases h), fun _ _ h => (by cases h)⟩ hl

section focus

/-- The game's window, or another one, is in the foreground. -/
def desktopAt (foreground : Nat) : Desktop where
  target := some 1
  foreground := some foreground
  isWindow _ := true
  isWindowVisible _ := true
  isIconic _ := false
  isWindowEnabled _ := true

def momentAt (foreground : Nat) : Moment :=
  ⟨0, desktopAt foreground, ⟨desktopAt foreground, true⟩, fun _ => ⟨desktopAt foreground, true⟩⟩

def keyStimulus (foreground : Nat) (eventType : String) : Stimulus :=
  .key (momentAt foreground) (.obj [("code", .str "KeyW"), ("type", .str eventType)])

theorem runLands_focused : RunLands false {} [keyStimulus 1 "keydown", keyStimulus 1 "keyup"] := by
  have hgap : ∀ (k : Keyboard) (m : Moment), k.RecoveryLands m 0 := fun k m h => by
    simp [SequenceState.gap] at h
  refine ⟨fun _ s hs => ?_, fun _ s hs => ?_, trivial⟩
  all_goals
    obtain rfl : 0 = s := Option.some.inj hs
    refine ⟨hgap _ _, fun e he => ?_⟩
    obtain rfl := Option.some.inj he
  · exact fun h => by cases h
  · exact fun _ _ _ _ => ⟨by decide, by decide⟩

/-- A key pressed and let go in the game. -/
theorem matched_focused : (run false {} [keyStimulus 1 "keydown", keyStimulus 1 "keyup"]).Matched :=
  matched_of_runLands false _ runLands_focused

/-- **A key let go after the game lost the foreground**: it is recorded up, and its press was the last event injected. -/
theorem not_matched_unfocused : ¬∀ ss : List Stimulus, (run false {} ss).Matched := by
  intro h
  have hup : (run false {} [keyStimulus 1 "keydown", keyStimulus 2 "keyup"]).keyboard.keyStates "KeyW" = .up := by
    decide +kernel
  have hpress : (run false {} [keyStimulus 1 "keydown", keyStimulus 2 "keyup"]).keyboard.injected "KeyW" =
      some .down := by decide +kernel
  refine (h _).keyboard "KeyW" (fun hd => ?_) hpress
  have := hup.symm.trans hd
  cases this

end focus

end Handlers

end Host
end CloudGaming
