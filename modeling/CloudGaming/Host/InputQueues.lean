import CloudGaming.Async.Lossy
import CloudGaming.Host.GoMedia
/-!
# InputQueues — the input queues of the Go layer as slices

`enqueueMessage` and `enqueueMouseEvent` append to a slice, the polls take from its head.  A full queue is given up for
the layer's own reset and, where it releases something, the new message; a pointer movement takes the place of one that
waits before it.  `goType` is the type that Go's decoding assigns to a message.
-/
namespace CloudGaming
namespace Host
namespace InputQueues

open Lossy
open GoInput (maxKeyboardMessages)
open GoMedia (maxMouseMessages)

/-! ## The queues -/

def keyboardReset : String := "\x7b\"type\":\"input_reset\",\"reason\":\"keyboard_queue_overflow\"\x7d"

def mouseReset : String := "\x7b\"type\":\"input_reset\",\"reason\":\"mouse_queue_overflow\"\x7d"

section

variable (goType : String → String)

/-- The number of live entries, as the code computes it. -/
def liveLength (q : HeadQueue String) : Nat := q.items.length - q.head

def keyboardOverflows (q : HeadQueue String) (_msg : String) : Bool := maxKeyboardMessages ≤ liveLength q

def enqueueMessage (q : HeadQueue String) (msg : String) : HeadQueue String :=
  let q := q.compact 64
  if keyboardOverflows q msg then
    let q := HeadQueue.empty.push keyboardReset
    if goType msg ≠ "keyup" ∧ goType msg ≠ "mouseup" ∧ goType msg ≠ "input_reset" then q else q.push msg
  else q.push msg

/-- A pointer movement behind another one. -/
def coalesces (q : HeadQueue String) (msg : String) : Bool :=
  goType msg = "mousemove" ∧ 0 < liveLength q ∧ q.items.getLast?.map goType = some "mousemove"

def mouseOverflows (q : HeadQueue String) (msg : String) : Bool :=
  !coalesces goType q msg && decide (maxMouseMessages ≤ liveLength q)

def enqueueMouseEvent (q : HeadQueue String) (msg : String) : HeadQueue String :=
  let q := q.compact 64
  if coalesces goType q msg then q.replaceLast msg
  else if mouseOverflows goType q msg then
    let q := HeadQueue.empty.push mouseReset
    if goType msg ≠ "mouseup" ∧ goType msg ≠ "input_reset" then q else q.push msg
  else q.push msg

end

/-- `getDataChannelMessage` and `getMouseChannelMessage`. -/
def getMessage (q : HeadQueue String) : Option String × HeadQueue String := q.pop ""

/-! ## What an operation does to the live part -/

section

variable {goType : String → String} (q : HeadQueue String) (msg : String)

@[simp] theorem liveLength_eq : liveLength q = q.live.length := q.length_live.symm

theorem keyboardOverflows_iff : keyboardOverflows q msg = true ↔ maxKeyboardMessages ≤ q.live.length := by
  simp [keyboardOverflows]

theorem live_enqueueMessage :
    (enqueueMessage goType q msg).live =
      if maxKeyboardMessages ≤ q.live.length then
        keyboardReset :: (if goType msg ∈ ["keyup", "mouseup", "input_reset"] then [msg] else [])
      else q.live ++ [msg] := by
  unfold enqueueMessage
  simp only [keyboardOverflows_iff, HeadQueue.live_compact]
  split
  · by_cases hk : goType msg ∈ ["keyup", "mouseup", "input_reset"]
    · rw [if_pos hk, if_neg (by simpa [imp_iff_or_not, or_comm] using hk)]
      simp
    · rw [if_neg hk, if_pos (by simpa using hk)]
      simp
  · simp

theorem coalesces_iff :
    coalesces goType q msg = true ↔ goType msg = "mousemove" ∧ q.live.getLast?.map goType = some "mousemove" := by
  unfold coalesces
  rw [decide_eq_true_iff, liveLength_eq]
  by_cases hl : q.live = []
  · simp [hl]
  · rw [HeadQueue.getLast?_items hl]
    simp [List.length_pos_iff, hl]

theorem mouseOverflows_iff :
    mouseOverflows goType q msg = true ↔ coalesces goType q msg = false ∧ maxMouseMessages ≤ q.live.length := by
  simp [mouseOverflows]

theorem coalesces_compact : coalesces goType (q.compact 64) msg = coalesces goType q msg := by
  rw [Bool.eq_iff_iff, coalesces_iff, coalesces_iff, HeadQueue.live_compact]

theorem live_enqueueMouseEvent :
    (enqueueMouseEvent goType q msg).live =
      if coalesces goType q msg then q.live.dropLast ++ [msg]
      else if maxMouseMessages ≤ q.live.length then
        mouseReset :: (if goType msg ∈ ["mouseup", "input_reset"] then [msg] else [])
      else q.live ++ [msg] := by
  unfold enqueueMouseEvent
  simp only [coalesces_compact, mouseOverflows_iff, HeadQueue.live_compact]
  by_cases hc : coalesces goType q msg = true
  · have hne : (q.compact 64).live ≠ [] := by
      intro hn
      rw [HeadQueue.live_compact] at hn
      simp [coalesces_iff, hn] at hc
    rw [if_pos hc, if_pos hc, HeadQueue.live_replaceLast hne, HeadQueue.live_compact]
  · rw [if_neg hc, if_neg hc]
    simp only [hc, true_and]
    split
    · by_cases hk : goType msg ∈ ["mouseup", "input_reset"]
      · rw [if_pos hk, if_neg (by simpa [imp_iff_or_not, or_comm] using hk)]
        simp
      · rw [if_neg hk, if_pos (by simpa using hk)]
        simp
    · simp

end

/-! ## The queues as lists -/

section

variable {goType : String → String} {payloadType : Payload → String} {read : String → GoMedia.Message}
  (hread : ∀ msg, payloadType (read msg).payload = goType msg)

include hread

/-- **The slice of the keyboard channel is the list that the rest of the layer is told with.** -/
theorem map_enqueueMessage (hreset : read keyboardReset = GoMedia.ownReset "keyboard_queue_overflow")
    (q : HeadQueue String) (msg : String) :
    (enqueueMessage goType q msg).live.map read =
      GoMedia.enqueueMessage payloadType (q.live.map read) (read msg) := by
  rw [live_enqueueMessage, GoMedia.enqueueMessage, List.length_map, hread]
  split
  · rw [List.map_cons, hreset]
    split <;> rfl
  · rw [List.map_append]
    rfl

theorem map_enqueueMouseEvent (hreset : read mouseReset = GoMedia.ownReset "mouse_queue_overflow")
    (q : HeadQueue String) (msg : String) :
    (enqueueMouseEvent goType q msg).live.map read =
      GoMedia.enqueueMouseEvent payloadType (q.live.map read) (read msg) := by
  have hlast : (q.live.map read).getLast?.map (payloadType ·.payload) = q.live.getLast?.map goType := by
    rw [List.getLast?_map, Option.map_map]
    exact congrArg (q.live.getLast?.map ·) (funext hread)
  rw [live_enqueueMouseEvent, GoMedia.enqueueMouseEvent, List.length_map, hread, hlast]
  simp only [coalesces_iff]
  split
  · rw [List.map_append, List.map_dropLast]
    rfl
  · split
    · rw [List.map_cons, hreset]
      split <;> rfl
    · rw [List.map_append]
      rfl

end

/-! ## Runs -/

/-- What the two queues differ in. -/
structure Discipline where
  enqueue : HeadQueue String → String → HeadQueue String
  overflows : HeadQueue String → String → Bool

def keyboard (goType : String → String) : Discipline := ⟨enqueueMessage goType, keyboardOverflows⟩

def mouse (goType : String → String) : Discipline := ⟨enqueueMouseEvent goType, mouseOverflows goType⟩

inductive Move where
  | enqueue (msg : String)
  | poll
  deriving DecidableEq, Repr

/-- The queue, and what was handed to it and polled from it, the oldest first. -/
structure History where
  queue : HeadQueue String := .empty
  submitted : List String := []
  delivered : List String := []
  overflows : Nat := 0

namespace History

section

variable (d : Discipline)

def step (h : History) : Move → History
  | .enqueue msg =>
    { queue := d.enqueue h.queue msg
      submitted := h.submitted ++ [msg]
      delivered := h.delivered
      overflows := if d.overflows h.queue msg then h.overflows + 1 else h.overflows }
  | .poll => { h with queue := (getMessage h.queue).2, delivered := h.delivered ++ (getMessage h.queue).1.toList }

def run (h : History) (moves : List Move) : History := moves.foldl (step d) h

/-- Everything is delivered: the queue is polled until it is empty. -/
def drain (h : History) : History := h.run d (List.replicate h.queue.live.length .poll)

/-- What has been delivered once the queue is polled empty. -/
def all (h : History) : List String := h.delivered ++ h.queue.live

theorem run_induction {P : History → Prop} (hstep : ∀ h m, P h → P (h.step d m)) :
    ∀ (moves : List Move) {h : History}, P h → P (h.run d moves)
  | [], _, h0 => h0
  | m :: moves, h, h0 => run_induction hstep moves (hstep h m h0)

end

variable {d : Discipline} {h : History}

@[simp] theorem all_poll : (h.step d .poll).all = h.all := by
  unfold all step getMessage
  dsimp only
  rw [HeadQueue.pop_fst, HeadQueue.live_pop]
  cases h.queue.live with
  | nil => simp
  | cons m rest => simp

/-- **Polling delivers what waits, in order, and nothing is left.** -/
theorem drain_spec : (h.drain d).queue.live = [] ∧ (h.drain d).delivered = h.all ∧
    (h.drain d).submitted = h.submitted := by
  unfold drain
  generalize hn : h.queue.live.length = n
  induction n generalizing h with
  | zero =>
    have hnil : h.queue.live = [] := List.length_eq_zero_iff.1 hn
    refine ⟨hnil, ?_, rfl⟩
    unfold all
    rw [hnil, List.append_nil]
    rfl
  | succ n ih =>
    have hlive : (h.step d .poll).queue.live = h.queue.live.tail := HeadQueue.live_pop "" h.queue
    obtain ⟨hl, hd, hs⟩ := ih (h := h.step d .poll) (by rw [hlive, List.length_tail, hn]; rfl)
    exact ⟨hl, hd.trans all_poll, hs⟩

end History

/-! ## The keyboard queue -/

section keyboard

variable {κ : Type*} (goType : String → String) (code : String → κ)

/-- What a message of the keyboard channel does to the keys held. -/
def keyChange (msg : String) : Change κ :=
  if goType msg = "keydown" then .add (code msg)
  else if goType msg = "keyup" then .remove (code msg)
  else if goType msg = "input_reset" then .clear
  else .keep

/-- What holds of the keyboard queue in every state. -/
structure KeyboardKept (h : History) : Prop where
  bounded : h.queue.live.length ≤ maxKeyboardMessages
  fifo : h.overflows = 0 → h.all = h.submitted
  held : held (keyChange goType code) h.all ⊆ held (keyChange goType code) h.submitted

variable {goType code}

theorem keyChange_reset {msg : String} (h : goType msg = "input_reset") : keyChange goType code msg = .clear := by
  unfold keyChange
  rw [h, if_neg (by decide), if_neg (by decide), if_pos rfl]

theorem keyboardKept_enqueue (hreset : goType keyboardReset = "input_reset") {h : History}
    (hk : KeyboardKept goType code h) (msg : String) :
    KeyboardKept goType code (h.step (keyboard goType) (.enqueue msg)) := by
  have hlive : (h.step (keyboard goType) (.enqueue msg)).queue.live = _ := live_enqueueMessage h.queue msg
  have hall : (h.step (keyboard goType) (.enqueue msg)).all = h.delivered ++ _ := congrArg (h.delivered ++ ·) hlive
  have hover : (h.step (keyboard goType) (.enqueue msg)).overflows =
      if keyboardOverflows h.queue msg then h.overflows + 1 else h.overflows := rfl
  by_cases hf : maxKeyboardMessages ≤ h.queue.live.length
  · rw [if_pos hf] at hlive hall
    rw [if_pos ((keyboardOverflows_iff _ _).2 hf)] at hover
    refine ⟨?_, fun h0 => by omega, ?_⟩
    · rw [hlive]
      split <;> simp [maxKeyboardMessages]
    · rw [hall]
      exact held_reset (keyChange_reset hreset) h.delivered h.submitted msg _
  · rw [if_neg hf] at hlive hall
    rw [if_neg (mt (keyboardOverflows_iff _ _).1 hf)] at hover
    rw [← List.append_assoc] at hall
    refine ⟨?_, fun h0 => ?_, ?_⟩
    · rw [hlive, List.length_append, List.length_singleton]
      omega
    · rw [hall, show h.delivered ++ h.queue.live = h.submitted from hk.fifo (hover.symm.trans h0)]
      rfl
    · rw [hall]
      exact held_push hk.held msg

theorem keyboardKept_step (hreset : goType keyboardReset = "input_reset") (h : History) (m : Move)
    (hk : KeyboardKept goType code h) : KeyboardKept goType code (h.step (keyboard goType) m) := by
  cases m with
  | enqueue msg => exact keyboardKept_enqueue hreset hk msg
  | poll =>
    have hlive : (h.step (keyboard goType) .poll).queue.live = h.queue.live.tail := HeadQueue.live_pop "" h.queue
    refine ⟨?_, fun h0 => ?_, ?_⟩
    · rw [hlive, List.length_tail]
      exact (Nat.sub_le _ _).trans hk.bounded
    · rw [History.all_poll]
      exact hk.fifo h0
    · rw [History.all_poll]
      exact hk.held

theorem keyboardKept_run (hreset : goType keyboardReset = "input_reset") (moves : List Move) :
    KeyboardKept goType code (({} : History).run (keyboard goType) moves) :=
  History.run_induction (keyboard goType) (keyboardKept_step hreset) moves
    ⟨by decide, fun _ => rfl, Set.Subset.refl _⟩

end keyboard

/-- **The keyboard queue is bounded, it is a FIFO queue until it overflows, and what is delivered holds no key that the
submitted messages do not hold.** -/
theorem keyboard_queue {κ : Type*} (goType : String → String) (code : String → κ)
    (hreset : goType keyboardReset = "input_reset") (moves : List Move) :
    let h := ({} : History).run (keyboard goType) moves
    let done := h.drain (keyboard goType)
    h.queue.live.length ≤ 128 ∧
      (getMessage h.queue).1 = h.queue.live.head? ∧
      (h.overflows = 0 → h.delivered ++ h.queue.live = h.submitted) ∧
      done.queue.live = [] ∧
      (h.overflows = 0 → done.delivered = h.submitted) ∧
      held (keyChange goType code) done.delivered ⊆ held (keyChange goType code) h.submitted := by
  intro h done
  have hk : KeyboardKept goType code h := keyboardKept_run hreset moves
  obtain ⟨hempty, hdelivered, -⟩ := History.drain_spec (d := keyboard goType) (h := h)
  refine ⟨hk.bounded, HeadQueue.pop_fst "" h.queue, hk.fifo, hempty, fun h0 => hdelivered.trans (hk.fifo h0), ?_⟩
  rw [hdelivered]
  exact hk.held

/-- A table of types: what Go's decoding assigns to the messages in it. -/
def typesOf (table : List (String × String)) (msg : String) : String := (table.lookup msg).getD ""

def keydownW : String := "\x7b\"type\":\"keydown\",\"code\":\"KeyW\"\x7d"

/-- A key held down for more messages than the queue holds. -/
theorem keyboard_queue_repeat :
    let types := typesOf [(keydownW, "keydown"), (keyboardReset, "input_reset")]
    let h := ({} : History).run (keyboard types) (List.replicate 200 (.enqueue keydownW))
    held (keyChange types id) (h.drain (keyboard types)).delivered ⊆ held (keyChange types id) h.submitted :=
  (keyboard_queue (typesOf [(keydownW, "keydown"), (keyboardReset, "input_reset")]) id (by decide)
    (List.replicate 200 (.enqueue keydownW))).2.2.2.2.2

/-! ## The mouse queue -/

section mouse

variable {κ : Type*} (goType : String → String) (button : String → κ)

/-- What a message of the mouse channel does to the buttons held. -/
def buttonChange (msg : String) : Change κ :=
  if goType msg = "mousedown" then .add (button msg)
  else if goType msg = "mouseup" then .remove (button msg)
  else if goType msg = "input_reset" then .clear
  else .keep

def isMove (msg : String) : Bool := goType msg = "mousemove"

/-- What holds of the mouse queue in every state. -/
structure MouseKept (h : History) : Prop where
  bounded : h.queue.live.length ≤ maxMouseMessages
  last : h.overflows = 0 → h.all.getLast? = h.submitted.getLast?
  thinned : h.overflows = 0 → (lastOfRuns (isMove goType) h.submitted).Sublist h.all ∧ h.all.Sublist h.submitted
  held : held (buttonChange goType button) h.all ⊆ held (buttonChange goType button) h.submitted

variable {goType button}

theorem buttonChange_reset {msg : String} (h : goType msg = "input_reset") :
    buttonChange goType button msg = .clear := by
  unfold buttonChange
  rw [h, if_neg (by decide), if_neg (by decide), if_pos rfl]

theorem buttonChange_move {msg : String} (h : goType msg = "mousemove") : buttonChange goType button msg = .keep := by
  unfold buttonChange
  rw [h, if_neg (by decide), if_neg (by decide), if_neg (by decide)]

theorem MouseKept.thin {h : History} (hk : MouseKept goType button h) (h0 : h.overflows = 0) :
    Thinned (isMove goType) h.submitted h.all :=
  ⟨hk.last h0, (hk.thinned h0).1, (hk.thinned h0).2⟩

/-- **A movement takes the place of the movement before it**: nothing else is lost, and no button changes. -/
theorem mouseKept_coalesce {h : History} (hk : MouseKept goType button h) {msg : String}
    (hc : coalesces goType h.queue msg = true) :
    MouseKept goType button (h.step (mouse goType) (.enqueue msg)) := by
  have hlive : (h.step (mouse goType) (.enqueue msg)).queue.live = _ :=
    (live_enqueueMouseEvent h.queue msg).trans (if_pos hc)
  have hover : (h.step (mouse goType) (.enqueue msg)).overflows = h.overflows :=
    if_neg (fun ho => by simp [mouse, mouseOverflows_iff, hc] at ho)
  obtain ⟨hmsg, hprev⟩ := (coalesces_iff h.queue msg).1 hc
  obtain ⟨prev, hlast, hmove⟩ := Option.map_eq_some_iff.1 hprev
  have hne : h.queue.live ≠ [] := by
    intro hn
    rw [hn] at hlast
    cases hlast
  have hsplit : h.queue.live = h.queue.live.dropLast ++ [prev] := by
    conv => lhs; rw [← List.dropLast_append_getLast hne]
    rw [List.getLast?_eq_some_getLast hne] at hlast
    rw [Option.some.inj hlast]
  have hall : h.all = h.delivered ++ h.queue.live.dropLast ++ [prev] := by
    rw [List.append_assoc, ← hsplit]
    rfl
  have hall' : (h.step (mouse goType) (.enqueue msg)).all = h.delivered ++ h.queue.live.dropLast ++ [msg] := by
    rw [List.append_assoc, ← hlive]
    rfl
  have hthin : h.overflows = 0 →
      Thinned (isMove goType) (h.step (mouse goType) (.enqueue msg)).submitted
        (h.step (mouse goType) (.enqueue msg)).all := by
    intro h0
    have hprev := hk.thin h0
    rw [hall] at hprev
    rw [hall']
    exact hprev.replace (by simpa [isMove] using hmove) (by simpa [isMove] using hmsg)
  refine ⟨?_, fun h0 => (hthin (hover.symm.trans h0)).last,
    fun h0 => ⟨(hthin (hover.symm.trans h0)).low, (hthin (hover.symm.trans h0)).high⟩, ?_⟩
  · rw [hlive, List.length_append, List.length_dropLast, List.length_singleton]
    have := List.length_pos_iff.2 hne
    have := hk.bounded
    omega
  · have hheld := hk.held
    rw [hall] at hheld
    rw [hall']
    exact held_replace hheld (buttonChange_move hmove) (buttonChange_move hmsg)

theorem mouseKept_enqueue (hreset : goType mouseReset = "input_reset") {h : History} (hk : MouseKept goType button h)
    (msg : String) : MouseKept goType button (h.step (mouse goType) (.enqueue msg)) := by
  by_cases hc : coalesces goType h.queue msg = true
  · exact mouseKept_coalesce hk hc
  have hlive : (h.step (mouse goType) (.enqueue msg)).queue.live = _ :=
    (live_enqueueMouseEvent h.queue msg).trans (if_neg hc)
  have hall : (h.step (mouse goType) (.enqueue msg)).all = h.delivered ++ _ := congrArg (h.delivered ++ ·) hlive
  have hover : (h.step (mouse goType) (.enqueue msg)).overflows =
      if mouseOverflows goType h.queue msg then h.overflows + 1 else h.overflows := rfl
  by_cases hf : maxMouseMessages ≤ h.queue.live.length
  · rw [if_pos hf] at hlive hall
    rw [if_pos ((mouseOverflows_iff _ _).2 ⟨by simpa using hc, hf⟩)] at hover
    refine ⟨?_, fun h0 => by omega, fun h0 => by omega, ?_⟩
    · rw [hlive]
      split <;> simp [maxMouseMessages]
    · rw [hall]
      exact held_reset (buttonChange_reset hreset) h.delivered h.submitted msg _
  · rw [if_neg hf] at hlive hall
    rw [if_neg (fun ho => hf ((mouseOverflows_iff _ _).1 ho).2)] at hover
    rw [← List.append_assoc] at hall
    replace hall : (h.step (mouse goType) (.enqueue msg)).all = h.all ++ [msg] := hall
    have hthin : h.overflows = 0 → Thinned (isMove goType) (h.submitted ++ [msg]) (h.all ++ [msg]) :=
      fun h0 => (hk.thin h0).push msg
    rw [← hall] at hthin
    refine ⟨?_, fun h0 => (hthin (hover.symm.trans h0)).last,
      fun h0 => ⟨(hthin (hover.symm.trans h0)).low, (hthin (hover.symm.trans h0)).high⟩, ?_⟩
    · rw [hlive, List.length_append, List.length_singleton]
      omega
    · rw [hall]
      exact held_push hk.held msg

theorem mouseKept_step (hreset : goType mouseReset = "input_reset") (h : History) (m : Move)
    (hk : MouseKept goType button h) : MouseKept goType button (h.step (mouse goType) m) := by
  cases m with
  | enqueue msg => exact mouseKept_enqueue hreset hk msg
  | poll =>
    have hlive : (h.step (mouse goType) .poll).queue.live = h.queue.live.tail := HeadQueue.live_pop "" h.queue
    refine ⟨?_, fun h0 => ?_, fun h0 => ?_, ?_⟩
    · rw [hlive, List.length_tail]
      exact (Nat.sub_le _ _).trans hk.bounded
    · rw [History.all_poll]
      exact hk.last h0
    · rw [History.all_poll]
      exact hk.thinned h0
    · rw [History.all_poll]
      exact hk.held

theorem mouseKept_run (hreset : goType mouseReset = "input_reset") (moves : List Move) :
    MouseKept goType button (({} : History).run (mouse goType) moves) :=
  History.run_induction (mouse goType) (mouseKept_step hreset) moves
    ⟨by decide, fun _ => rfl, fun _ => ⟨List.Sublist.refl _, List.Sublist.refl _⟩, Set.Subset.refl _⟩

end mouse

/-- **The mouse queue is bounded; until it overflows it delivers everything in order but movements that another one
followed; and what is delivered holds no button that the submitted messages do not hold.** -/
theorem mouse_queue {κ : Type*} (goType : String → String) (button : String → κ)
    (hreset : goType mouseReset = "input_reset") (moves : List Move) :
    let h := ({} : History).run (mouse goType) moves
    let done := h.drain (mouse goType)
    h.queue.live.length ≤ 256 ∧
      done.queue.live = [] ∧
      (h.overflows = 0 →
        done.delivered.filter (fun m => !isMove goType m) = h.submitted.filter (fun m => !isMove goType m) ∧
        (lastOfRuns (isMove goType) h.submitted).Sublist done.delivered ∧ done.delivered.Sublist h.submitted) ∧
      held (buttonChange goType button) done.delivered ⊆ held (buttonChange goType button) h.submitted := by
  intro h done
  have hk : MouseKept goType button h := mouseKept_run hreset moves
  obtain ⟨hempty, hdelivered, -⟩ := History.drain_spec (d := mouse goType) (h := h)
  refine ⟨hk.bounded, hempty, fun h0 => ?_, ?_⟩
  · rw [hdelivered]
    exact ⟨(hk.thin h0).filter_eq, hk.thinned h0⟩
  · rw [hdelivered]
    exact hk.held

def mousedown : String := "\x7b\"type\":\"mousedown\",\"button\":0\x7d"

/-- A button pressed more often than the queue holds. -/
theorem mouse_queue_clicks :
    let types := typesOf [(mousedown, "mousedown"), (mouseReset, "input_reset")]
    let h := ({} : History).run (mouse types) (List.replicate 300 (.enqueue mousedown))
    held (buttonChange types id) (h.drain (mouse types)).delivered ⊆ held (buttonChange types id) h.submitted :=
  (mouse_queue (typesOf [(mousedown, "mousedown"), (mouseReset, "input_reset")]) id (by decide)
    (List.replicate 300 (.enqueue mousedown))).2.2.2

end InputQueues
end Host
end CloudGaming
