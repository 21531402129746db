import CloudGaming.Async.Along
import CloudGaming.Host.Keyboard
/-!
# Overflow — the two records of the keys that are down, while the queue of the keyboard handler overflows

One thread puts messages into the queue, and releases everything when the queue is full; the polling loop takes them
out.  Every section under a lock is one step of its thread.
-/
namespace CloudGaming
namespace Host
namespace KeyInput

open Async

/-! ## The threads -/

/-- Where the polling loop stands: between two messages, or before the next section of the one in hand. -/
inductive Polling where
  | between
  -- taken out of the queue; `none` does not parse
  | popped (message : Option Json)
  -- past the sequence tracker, the virtual keys and the block list
  | sequenced (e : KeyEvent)
  -- past the filter of dangerous combinations
  | checked (e : KeyEvent)
  -- the virtual key is tracked, or is no more
  | tracked (e : KeyEvent)
  deriving Inhabited

/-- Where `enqueueMessage` stands: done, or with the releases after an overflow to make. -/
inductive Enqueuing where
  | done | releasing | clearing
  deriving DecidableEq

structure KeyQueue where
  keyboard : Keyboard := {}
  keyboardMessageQueue : List (Option Json) := []
  polling : Polling := .between
  enqueuing : Enqueuing := .done

inductive QueueMove where
  -- the sections of `enqueueMessage`
  | enqueue (message : Option Json)
  | release (shots : String → Shot)
  | clear
  -- the sections of a round of `messagePollingLoop`
  | pop
  | sequence (m : Moment)
  | check
  | track
  | process (m : Moment)

/-- The section that tracks the virtual keys, and whether the event goes on to the state machine. -/
def Keyboard.report (k : Keyboard) (e : KeyEvent) : Bool × Keyboard :=
  let vkCode := mapJavaScriptCodeToVK e.code
  match e.state with
  | .down => (true, { k with clientReportedKeysDown := insert vkCode k.clientReportedKeysDown })
  | .up =>
    if vkCode ∈ k.clientReportedKeysDown then
      (true, { k with clientReportedKeysDown := k.clientReportedKeysDown.erase vkCode })
    else (false, k)

namespace KeyQueue

/-- The loop past the sequence tracker: the event of the message, if it has one that is mapped and not blocked. -/
def afterSequence (j : Json) : Polling :=
  match keyEvent? j with
  | some e => if mapJavaScriptCodeToVK e.code ≠ 0 && !shouldBlockKey e.code then .sequenced e else .between
  | none => .between

def sequence (s : KeyQueue) (m : Moment) (message : Option Json) : KeyQueue :=
  match message with
  | some j =>
    if j.isObject && j.contains "code" && j.contains "type" then
      match sequenceId? j with
      | some sequenceId => { s with keyboard := s.keyboard.processSequence m sequenceId, polling := afterSequence j }
      | none => { s with polling := .between }
    else { s with polling := .between }
  | none => { s with polling := .between }

def check (s : KeyQueue) (e : KeyEvent) : KeyQueue :=
  if e.state = .down && s.keyboard.dangerousCombination (mapJavaScriptCodeToVK e.code) then
    { s with polling := .between }
  else { s with polling := .checked e }

def track (s : KeyQueue) (e : KeyEvent) : KeyQueue :=
  let (simulateAction, keyboard) := s.keyboard.report e
  { s with keyboard := keyboard, polling := if simulateAction then .tracked e else .between }

/-- `enqueueMessage` with `maxPending` messages waiting drops them all. -/
def enqueue (s : KeyQueue) (maxPending : Nat) (message : Option Json) : KeyQueue :=
  if maxPending ≤ s.keyboardMessageQueue.length then
    { s with keyboardMessageQueue := [message], enqueuing := .releasing }
  else { s with keyboardMessageQueue := s.keyboardMessageQueue ++ [message] }

/-- A step of one of the threads, where it can make it; at least 16 messages fit into the queue. -/
def step (maxPendingMessages : Nat) (s : KeyQueue) : QueueMove → Option KeyQueue
  | .enqueue message =>
    if s.enqueuing = .done then some (s.enqueue (max 16 maxPendingMessages) message) else none
  | .release shots =>
    if s.enqueuing = .releasing then
      some { s with keyboard := s.keyboard.releaseAllKeys shots, enqueuing := .clearing }
    else none
  | .clear =>
    if s.enqueuing = .clearing then
      some { s with keyboard := { s.keyboard with clientReportedKeysDown := ∅ }, enqueuing := .done }
    else none
  | .pop =>
    match s.polling, s.keyboardMessageQueue with
    | .between, message :: queue => some { s with keyboardMessageQueue := queue, polling := .popped message }
    | _, _ => none
  | .sequence m =>
    match s.polling with
    | .popped message => some (s.sequence m message)
    | _ => none
  | .check =>
    match s.polling with
    | .sequenced e => some (s.check e)
    | _ => none
  | .track =>
    match s.polling with
    | .checked e => some (s.track e)
    | _ => none
  | .process m =>
    match s.polling with
    | .tracked e => some { s with keyboard := s.keyboard.transition m e.code e.state, polling := .between }
    | _ => none

/-- **Between two messages**, the virtual key of every code that the state machine records as down is tracked, so that a
keyup of the code is not ignored. -/
def Agrees (s : KeyQueue) : Prop := s.polling = .between → ∀ c, s.keyboard.keyStates c = .down →
  mapJavaScriptCodeToVK c ∈ s.keyboard.clientReportedKeysDown ∧ (s.keyboard.report ⟨c, .up⟩).1 = true

/-- The message in hand is about to track the virtual key of the code, or to record the code as up. -/
def Mends : Polling → String → Prop
  | .checked e, c => e.state = .down ∧ mapJavaScriptCodeToVK e.code = mapJavaScriptCodeToVK c
  | .tracked e, c => e.state = .up ∧ e.code = c
  | _, _ => False

/-- The tracked keys are cleared while no code is down that the message in hand does not mend, and not between the two
records of a keydown; and a keyup is that of the last code that is down on its virtual key. -/
def InTurn (s : KeyQueue) : QueueMove → Prop
  | .clear => (∀ c, s.keyboard.keyStates c = .down → Mends s.polling c) ∧
      ∀ e, s.polling = .tracked e → e.state = .up
  | .track => ∀ e, s.polling = .checked e → e.state = .up →
      ∀ c, s.keyboard.keyStates c = .down → mapJavaScriptCodeToVK c = mapJavaScriptCodeToVK e.code → c = e.code
  | _ => True

/-! ## A round by itself -/

/-- The sections of a round, one after the other. -/
def round (m : Moment) : List QueueMove := [.pop, .sequence m, .check, .track, .process m]

/-- Tracking and recording an event is what the handler does with it. -/
theorem track_report (k : Keyboard) (m : Moment) (e : KeyEvent) : k.track m e.code e.state =
    if (k.report e).1 then (k.report e).2.transition m e.code e.state else (k.report e).2 := by
  obtain ⟨code, state⟩ := e
  unfold Keyboard.track Keyboard.report
  cases state with
  | down => rfl
  | up =>
    dsimp only
    by_cases hmem : mapJavaScriptCodeToVK code ∈ k.clientReportedKeysDown
    · simp [hmem]
    · simp [hmem]

/-- Past the sequence tracker, the sections of a round do what the handler does with the event. -/
theorem sections_sequenced (n : Nat) (s : KeyQueue) (m : Moment) (e : KeyEvent) (hp : s.polling = .sequenced e)
    (hkey : (mapJavaScriptCodeToVK e.code ≠ 0 && !shouldBlockKey e.code) = true) :
    ∃ k ≤ 3, after (step n) s ([.check, .track, .process m].take k) = some { s with
      keyboard := if s.keyboard.passes e.code e.state then s.keyboard.track m e.code e.state else s.keyboard,
      polling := .between } := by
  have hpasses : s.keyboard.passes e.code e.state =
      !(e.state = .down && s.keyboard.dangerousCombination (mapJavaScriptCodeToVK e.code)) := by
    unfold Keyboard.passes
    rw [hkey, Bool.true_and]
  by_cases hdanger : (e.state = .down && s.keyboard.dangerousCombination (mapJavaScriptCodeToVK e.code)) = true
  · refine ⟨1, by decide, ?_⟩
    rw [hpasses, hdanger]
    simp [after, step, hp, check, hdanger]
  · have hpass : s.keyboard.passes e.code e.state = true := by
      rw [hpasses, Bool.not_eq_true] at *
      rw [hdanger]
      rfl
    rw [if_pos hpass, track_report]
    cases hreport : s.keyboard.report e with
    | mk simulateAction k' =>
      cases simulateAction with
      | false =>
        refine ⟨2, by decide, ?_⟩
        simp [after, step, hp, check, hdanger, track, hreport]
      | true =>
        refine ⟨3, by decide, ?_⟩
        simp [after, step, hp, check, hdanger, track, hreport]

/-- **Nothing in between, the sections of a round are a round of the handler**; it ends with the section that drops the
message, if one does. -/
theorem round_alone (n : Nat) (s : KeyQueue) (m : Moment) (j : Json) (queue : List (Option Json))
    (hp : s.polling = .between) (hq : s.keyboardMessageQueue = some j :: queue) :
    ∃ k ≤ 5, after (step n) s ((round m).take k) =
      some { s with keyboard := s.keyboard.handle m j, keyboardMessageQueue := queue, polling := .between } := by
  generalize ht : ({ s with keyboardMessageQueue := queue, polling := .popped (some j) } : KeyQueue).sequence m (some j) = t
  have hround : ∀ k, after (step n) s ((round m).take (k + 2)) = after (step n) t ([.check, .track, .process m].take k) := by
    intro k
    have hpop : step n s .pop = some { s with keyboardMessageQueue := queue, polling := .popped (some j) } := by
      simp only [step, hp, hq]
    have hsequence : step n { s with keyboardMessageQueue := queue, polling := .popped (some j) } (.sequence m) = some t :=
      congrArg some ht
    simp only [round, List.take_succ_cons, after, hpop, hsequence, Option.bind_some]
  -- the tracker drops the message, and the round is over
  have hdrop : ∀ u, t = u → ∃ k ≤ 5, after (step n) s ((round m).take k) = some u :=
    fun u htu => ⟨2, by decide, (hround 0).trans (congrArg some htu)⟩
  unfold sequence at ht
  unfold Keyboard.handle
  by_cases hshape : (j.isObject && j.contains "code" && j.contains "type") = true
  · dsimp only at ht
    rw [if_pos hshape] at ht ⊢
    cases hid : sequenceId? j with
    | none =>
      rw [hid] at ht
      exact hdrop _ ht.symm
    | some id =>
      simp only [hid] at ht
      dsimp only
      cases he : keyEvent? j with
      | none =>
        apply hdrop
        rw [← ht, afterSequence, he]
      | some e =>
        by_cases hkey : (mapJavaScriptCodeToVK e.code ≠ 0 && !shouldBlockKey e.code) = true
        · have hsequenced : t.polling = .sequenced e := by
            rw [← ht, afterSequence, he]
            exact if_pos hkey
          obtain ⟨k, hk, hrest⟩ := sections_sequenced n t m e hsequenced hkey
          refine ⟨k + 2, by omega, (hround k).trans (hrest.trans ?_)⟩
          rw [← ht]
        · have hpass : (s.keyboard.processSequence m id).passes e.code e.state = false := by
            unfold Keyboard.passes
            rw [Bool.not_eq_true] at hkey
            rw [hkey, Bool.false_and]
          apply hdrop
          dsimp only
          rw [← ht, afterSequence, he, hpass]
          dsimp only
          rw [if_neg hkey]
          rfl
  · dsimp only at ht
    rw [if_neg hshape] at ht ⊢
    exact hdrop _ ht.symm

/-! ## What the steps keep -/

/-- A code that is down is tracked or mended, and a keydown that is about to be recorded is tracked. -/
structure Tracks (s : KeyQueue) : Prop where
  down : ∀ c, s.keyboard.keyStates c = .down →
    mapJavaScriptCodeToVK c ∈ s.keyboard.clientReportedKeysDown ∨ Mends s.polling c
  pressed : ∀ e, s.polling = .tracked e → e.state = .down →
    mapJavaScriptCodeToVK e.code ∈ s.keyboard.clientReportedKeysDown

variable {s s' : KeyQueue}

/-- Where the message in hand mends nothing, every code that is down is tracked. -/
theorem Tracks.tracked (h : Tracks s) (hmends : ∀ c, ¬Mends s.polling c) {c : String}
    (hc : s.keyboard.keyStates c = .down) : mapJavaScriptCodeToVK c ∈ s.keyboard.clientReportedKeysDown :=
  (h.down c hc).resolve_right (hmends c)

theorem Tracks.agrees (h : Tracks s) : Agrees s := by
  intro hp c hc
  have hmem := h.tracked (by rw [hp]; exact fun _ => id) hc
  refine ⟨hmem, ?_⟩
  unfold Keyboard.report
  simp only [hmem, if_true]

/-- A tracker that recovers sets codes up, and changes nothing else of the records. -/
theorem records_processSequence (k : Keyboard) (m : Moment) (n : Nat) :
    (k.processSequence m n).clientReportedKeysDown = k.clientReportedKeysDown ∧
      ∀ c, (k.processSequence m n).keyStates c = .down → k.keyStates c = .down := by
  unfold Keyboard.processSequence
  dsimp only
  split
  · exact ⟨rfl, fun c hc => (by cases hc)⟩
  · exact ⟨rfl, fun c hc => hc⟩

theorem records_transition (k : Keyboard) (m : Moment) (c : String) (st : KeyState) :
    (k.transition m c st).clientReportedKeysDown = k.clientReportedKeysDown ∧
      (k.transition m c st).keyStates = Function.update k.keyStates c st := by
  unfold Keyboard.transition
  split
  · rename_i h
    exact ⟨rfl, by rw [← h, Function.update_eq_self]⟩
  · dsimp only
    split
    · unfold Keyboard.simulate
      split <;> exact ⟨rfl, rfl⟩
    · exact ⟨rfl, rfl⟩

theorem not_tracked_afterSequence (j : Json) (e : KeyEvent) : afterSequence j ≠ .tracked e := by
  unfold afterSequence
  split
  · split <;> exact fun h => by cases h
  · exact fun h => by cases h

/-- What the sequence tracker keeps. -/
theorem Tracks.sequence (h : Tracks s) {message : Option Json} (hp : s.polling = .popped message) (m : Moment) :
    Tracks (s.sequence m message) := by
  have hmends : ∀ c, ¬Mends s.polling c := by
    rw [hp]
    exact fun _ => id
  have hidle : Tracks { s with polling := .between } :=
    ⟨fun c hc => .inl (h.tracked hmends hc), fun e he => (by cases he)⟩
  cases message with
  | none => exact hidle
  | some j =>
    unfold KeyQueue.sequence
    dsimp only
    split
    · split
      · rename_i n _
        obtain ⟨hreported, hstates⟩ := records_processSequence s.keyboard m n
        constructor
        · intro c hc
          refine .inl ?_
          dsimp only
          rw [hreported]
          exact h.tracked hmends (hstates c hc)
        · exact fun e he => absurd he (not_tracked_afterSequence j e)
      · exact hidle
    · exact hidle

theorem Tracks.check (h : Tracks s) {e : KeyEvent} (hp : s.polling = .sequenced e) : Tracks (s.check e) := by
  have hmends : ∀ c, ¬Mends s.polling c := by
    rw [hp]
    exact fun _ => id
  unfold KeyQueue.check
  split
  · exact ⟨fun c hc => .inl (h.tracked hmends hc), fun d hd => (by cases hd)⟩
  · exact ⟨fun c hc => .inl (h.tracked hmends hc), fun d hd => (by cases hd)⟩

theorem Tracks.track (h : Tracks s) {e : KeyEvent} (hp : s.polling = .checked e) (hturn : InTurn s .track) :
    Tracks (s.track e) := by
  obtain ⟨code, state⟩ := e
  cases state with
  | down =>
    constructor
    · intro c hc
      refine .inl (Finset.mem_insert.2 ?_)
      obtain hmem | hmends := h.down c hc
      · exact .inr hmem
      · rw [hp] at hmends
        exact .inl hmends.2.symm
    · intro e he _
      cases he
      exact Finset.mem_insert_self _ _
  | up =>
    have hmends : ∀ c, ¬Mends s.polling c := by
      rw [hp]
      rintro c ⟨hdown, -⟩
      cases hdown
    unfold KeyQueue.track Keyboard.report
    by_cases hmem : mapJavaScriptCodeToVK code ∈ s.keyboard.clientReportedKeysDown
    · simp only [hmem, if_true]
      constructor
      · intro c hc
        by_cases hcode : code = c
        · exact .inr ⟨rfl, hcode⟩
        · refine .inl (Finset.mem_erase.2 ⟨fun hvk => ?_, h.tracked hmends hc⟩)
          exact hcode (hturn _ hp rfl c hc hvk).symm
      · intro e he hdown
        cases he
        cases hdown
    · simp only [hmem, if_false]
      exact ⟨fun c hc => .inl (h.tracked hmends hc), fun e he => (by cases he)⟩

theorem Tracks.process (h : Tracks s) {e : KeyEvent} (hp : s.polling = .tracked e) (m : Moment) :
    Tracks { s with keyboard := s.keyboard.transition m e.code e.state, polling := .between } := by
  obtain ⟨hreported, hstates⟩ := records_transition s.keyboard m e.code e.state
  constructor
  · intro c hc
    dsimp only at hc
    refine .inl ?_
    dsimp only
    rw [hreported]
    rw [hstates] at hc
    by_cases hcode : c = e.code
    · rw [hcode, Function.update_self] at hc
      rw [hcode]
      exact h.pressed e hp hc
    · rw [Function.update_of_ne hcode] at hc
      obtain hmem | hmends := h.down c hc
      · exact hmem
      · rw [hp] at hmends
        exact absurd hmends.2.symm hcode
  · exact fun d hd => (by cases hd)

theorem tracks_step {maxPendingMessages : Nat} (h : Tracks s) {move : QueueMove} (hturn : InTurn s move)
    (hs : s.step maxPendingMessages move = some s') : Tracks s' := by
  cases move with
  | enqueue message =>
    simp only [step, Option.ite_none_right_eq_some, Option.some.injEq] at hs
    obtain ⟨-, rfl⟩ := hs
    unfold enqueue
    split <;> exact ⟨h.down, h.pressed⟩
  | release shots =>
    simp only [step, Option.ite_none_right_eq_some, Option.some.injEq] at hs
    obtain ⟨-, rfl⟩ := hs
    exact ⟨fun c hc => (by cases hc), h.pressed⟩
  | clear =>
    simp only [step, Option.ite_none_right_eq_some, Option.some.injEq] at hs
    obtain ⟨-, rfl⟩ := hs
    obtain ⟨hmended, hup⟩ := hturn
    refine ⟨fun c hc => .inr (hmended c hc), fun e he hdown => ?_⟩
    have hstate := hup e he
    rw [hdown] at hstate
    cases hstate
  | pop =>
    simp only [step] at hs
    split at hs
    · rename_i message queue hp hq
      obtain rfl := Option.some.inj hs
      exact ⟨fun c hc => .inl (h.tracked (by rw [hp]; exact fun _ => id) hc), fun e he => (by cases he)⟩
    · cases hs
  | sequence m =>
    simp only [step] at hs
    split at hs
    · rename_i message hp
      obtain rfl := Option.some.inj hs
      exact h.sequence hp m
    · cases hs
  | check =>
    simp only [step] at hs
    split at hs
    · rename_i e hp
      obtain rfl := Option.some.inj hs
      exact h.check hp
    · cases hs
  | track =>
    simp only [step] at hs
    split at hs
    · rename_i e hp
      obtain rfl := Option.some.inj hs
      exact h.track hp hturn
    · cases hs
  | process m =>
    simp only [step] at hs
    split at hs
    · rename_i e hp
      obtain rfl := Option.some.inj hs
      exact h.process hp m
    · cases hs

/-- **The two records agree between any two messages, where the tracked keys are never cleared under a key that is down and
no two codes that are down share a virtual key as one comes up.** -/
theorem agrees_throughout (maxPendingMessages : Nat) (moves : List QueueMove)
    (h : Along (step maxPendingMessages) InTurn {} moves) : Throughout (step maxPendingMessages) Agrees {} moves :=
  (Throughout.of_along (I := Tracks) (fun _ _ _ ht hturn hs => tracks_step ht hturn hs)
    ⟨fun c hc => (by cases hc), fun e he => (by cases he)⟩ h).mono fun _ => Tracks.agrees

/-! ## A key that is pressed, and an overflow while one is -/

def keydown (jsCode : String) : Option Json := some (.obj [("code", .str jsCode), ("type", .str "keydown")])

/-- There is no target. -/
def nowhere : Desktop := ⟨none, none, fun _ => false, fun _ => false, fun _ => false, fun _ => false⟩

def uninjected : Moment := ⟨0, nowhere, ⟨nowhere, false⟩, fun _ => ⟨nowhere, false⟩⟩

/-- One key is pressed. -/
def onePress : List QueueMove := .enqueue (keydown "KeyA") :: round uninjected

theorem agrees_onePress : Throughout (step 16) Agrees {} onePress := by
  refine agrees_throughout 16 onePress fun s₁ h₁ => ⟨trivial, fun s₂ h₂ => ⟨trivial, fun s₃ h₃ => ⟨trivial, fun s₄ h₄ =>
    ⟨trivial, fun s₅ _ => ⟨?_, fun _ _ => ⟨trivial, trivial⟩⟩⟩⟩⟩⟩
  intro e he hup
  have hafter : after (step 16) {} (onePress.take 4) = some s₄ := by
    simp only [onePress, round, List.take_succ_cons, List.take_zero, after, h₁, h₂, h₃, h₄, Option.bind_some]
  have hdown : (after (step 16) {} (onePress.take 4)).all (fun s => match s.polling with
      | .checked e => e.state = .down
      | _ => true) = true := by
    decide +kernel
  rw [hafter, Option.all_some, he] at hdown
  simp [hup] at hdown

/-- The loop has taken a keydown up when 17 messages come in, the last of which overflows the queue; it tracks the key
and records it between the release and the clearing. -/
def preempted : List QueueMove :=
  [.enqueue (keydown "KeyA"), .pop, .sequence uninjected, .check] ++ List.replicate 17 (.enqueue none) ++
    [.release fun _ => uninjected.inject, .track, .process uninjected, .clear]

/-- **The key is down and not tracked**: its keyup will be ignored. -/
theorem not_agrees : ¬∀ (maxPendingMessages : Nat) (moves : List QueueMove),
    Throughout (step maxPendingMessages) Agrees {} moves := by
  intro h
  have hbroken : (after (step 16) {} preempted).any (fun s => (match s.polling with
      | .between => true
      | _ => false) && s.keyboard.keyStates "KeyA" = .down &&
      !(mapJavaScriptCodeToVK "KeyA" ∈ s.keyboard.clientReportedKeysDown)) = true := by
    decide +kernel
  obtain ⟨s, hs, hbroken⟩ := (Option.any_eq_true _ _).1 hbroken
  have hagrees := (h 16 preempted).after hs
  simp only [Bool.and_eq_true, decide_eq_true_eq, Bool.not_eq_true', decide_eq_false_iff_not] at hbroken
  obtain ⟨⟨hbetween, hdown⟩, huntracked⟩ := hbroken
  refine huntracked (hagrees ?_ "KeyA" hdown).1
  cases hp : s.polling with
  | between => rfl
  | _ => simp [hp] at hbetween

end KeyQueue

end KeyInput
end Host
end CloudGaming
