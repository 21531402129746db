import CloudGaming.Async.Monitor
import CloudGaming.Host.AudioFraming
/-!
# AudioThreads — the encoder, the queue processor and how they are stopped

The capture thread puts frames into the ring buffer, the encoder thread turns them into packets, and the queue processor
sends these; a full ring or queue gives up its oldest entry.  `StopCapture` joins the three in turn.  It wakes the
queue processor with the mutex held, and the encoder without.  Frames are numbered, and a packet bears its frame's number.
-/
namespace CloudGaming
namespace Host
namespace AudioThreads

open Async RingQueue
open AudioFraming (ringBufferSize)

def maxQueueSize : Nat := 1

/-- `EncoderThread`; `last` is the loop after the stop. -/
inductive Encoder where
  | testing
  | waiting (w : Waiter)
  | popping
  | encoding (frame : Nat) (last : Bool)
  | draining
  | stopped
  deriving DecidableEq, Repr

/-- `QueueProcessorThread`; in `inner` it holds `m_queueMutex`. -/
inductive QueueProcessor where
  | testing
  | waiting (w : Waiter)
  | inner
  | sending (packet : Nat)
  | relocking
  | stopped
  deriving DecidableEq, Repr

/-- `StopCapture`, with `StopEncoderThread` and `StopQueueProcessor`. -/
inductive Stopping where
  | notCalled
  | joiningCapture
  | stoppingEncoder
  | notifyingEncoder
  | joiningEncoder
  | stoppingQueue
  | joiningQueue
  | done
  deriving DecidableEq, Repr

/-- The lists from `captured` on are history. -/
structure Threads where
  ring : List Nat := []
  droppedCaptureFrames : Nat := 0
  audioQueue : List Nat := []
  droppedEncodedPackets : Nat := 0
  stopEncoder : Bool := false
  stopQueueProcessor : Bool := false
  encoder : Encoder := .testing
  queueProcessor : QueueProcessor := .testing
  stopping : Stopping := .notCalled
  capturing : Bool := true
  captured : List Nat := []
  taken : List Nat := []
  failed : Nat := 0
  queued : List Nat := []
  sent : List Nat := []
  discarded : List Nat := []
  deriving DecidableEq, Repr

/-- The moves of the threads; `spurious` ones wake a thread that nobody has notified. -/
inductive Move where
  | pushFrameToRingBuffer
  | captureEnds
  | encode (succeeds : Bool)
  | process
  | stop
  | spuriousEncoder
  | spuriousQueueProcessor
  deriving DecidableEq, Repr

def Encoder.holds : Encoder → Bool
  | .waiting w => w.holds
  | _ => false

def Encoder.notified : Encoder → Encoder
  | .waiting w => .waiting w.notified
  | e => e

def QueueProcessor.holds : QueueProcessor → Bool
  | .waiting w => w.holds
  | .inner => true
  | _ => false

def QueueProcessor.notified : QueueProcessor → QueueProcessor
  | .waiting w => .waiting w.notified
  | p => p

namespace Threads

variable (s : Threads)

def pushFrameToRingBuffer : Threads := { s with
  ring := pushed ringBufferSize s.ring s.captured.length
  droppedCaptureFrames :=
    if s.ring.length < ringBufferSize then s.droppedCaptureFrames else s.droppedCaptureFrames + 1
  encoder := s.encoder.notified
  captured := s.captured ++ [s.captured.length] }

def queueAudioPacket (packet : Nat) : Threads := { s with
  audioQueue := pushed maxQueueSize s.audioQueue packet
  droppedEncodedPackets :=
    if s.audioQueue.length < maxQueueSize then s.droppedEncodedPackets else s.droppedEncodedPackets + 1
  queueProcessor := s.queueProcessor.notified
  queued := s.queued ++ [packet] }

/-- `PopFrameFromRingBuffer` of a frame. -/
def popFrame (frame : Nat) (ring : List Nat) (last : Bool) : Threads := { s with
  ring
  encoder := .encoding frame last
  taken := s.taken ++ [frame] }

def encoderThread (succeeds : Bool) : Option Threads :=
  match s.encoder with
  | .testing => some { s with encoder := if s.stopEncoder then .draining else .waiting .locking }
  | .waiting .awake => some { s with encoder := if s.stopEncoder then .draining else .popping }
  | .waiting w => (w.next (s.stopEncoder || !s.ring.isEmpty)).map fun w => { s with encoder := .waiting w }
  | .popping =>
    match s.ring with
    | [] => some { s with encoder := .testing }
    | frame :: ring => some (s.popFrame frame ring false)
  | .encoding frame last =>
    let next := if last then .draining else .testing
    if !succeeds then some { s with encoder := next, failed := s.failed + 1 }
    else if s.queueProcessor.holds then none
    else some { s.queueAudioPacket frame with encoder := next }
  | .draining =>
    match s.ring with
    | [] => some { s with encoder := .stopped }
    | frame :: ring => some (s.popFrame frame ring true)
  | .stopped => none

def queueProcessorThread : Option Threads :=
  match s.queueProcessor with
  | .testing => some { s with queueProcessor := if s.stopQueueProcessor then .stopped else .waiting .locking }
  | .waiting .awake =>
    if s.stopQueueProcessor then
      some { s with
        queueProcessor := .stopped
        audioQueue := []
        discarded := s.discarded ++ s.audioQueue }
    else some { s with queueProcessor := .inner }
  | .waiting w =>
    (w.next (s.stopQueueProcessor || !s.audioQueue.isEmpty)).map fun w => { s with queueProcessor := .waiting w }
  | .inner =>
    match s.audioQueue, s.stopQueueProcessor with
    | packet :: queue, false => some { s with audioQueue := queue, queueProcessor := .sending packet }
    | _, _ => some { s with queueProcessor := .testing }
  | .sending packet => some { s with queueProcessor := .relocking, sent := s.sent ++ [packet] }
  | .relocking => some { s with queueProcessor := .inner }
  | .stopped => none

def stopCapture : Option Threads :=
  match s.stopping with
  | .notCalled => some { s with stopping := .joiningCapture }
  | .joiningCapture => if s.capturing then none else some { s with stopping := .stoppingEncoder }
  | .stoppingEncoder =>
    if s.stopEncoder then some { s with stopping := .stoppingQueue }
    else some { s with stopEncoder := true, stopping := .notifyingEncoder }
  | .notifyingEncoder => some { s with encoder := s.encoder.notified, stopping := .joiningEncoder }
  | .joiningEncoder => if s.encoder = .stopped then some { s with stopping := .stoppingQueue } else none
  | .stoppingQueue =>
    if s.stopQueueProcessor then some { s with stopping := .done }
    else if s.queueProcessor.holds then none
    else some { s with
      stopQueueProcessor := true
      queueProcessor := s.queueProcessor.notified
      stopping := .joiningQueue }
  | .joiningQueue => if s.queueProcessor = .stopped then some { s with stopping := .done } else none
  | .done => none

end Threads

open Threads

def step (s : Threads) : Move → Option Threads
  | .pushFrameToRingBuffer => if s.capturing && !s.encoder.holds then some s.pushFrameToRingBuffer else none
  | .captureEnds => if s.capturing then some { s with capturing := false } else none
  | .encode succeeds => s.encoderThread succeeds
  | .process => s.queueProcessorThread
  | .stop => s.stopCapture
  | .spuriousEncoder =>
    if s.encoder = .waiting .sleeping then some { s with encoder := .waiting .locking } else none
  | .spuriousQueueProcessor =>
    if s.queueProcessor = .waiting .sleeping then some { s with queueProcessor := .waiting .locking } else none

/-- A session starts; a packet of the session before may be in the queue. -/
def start (stale : Option Nat) : Threads := { audioQueue := stale.toList }

/-! ## What becomes of a frame -/

def Encoder.inHand : Encoder → List Nat
  | .encoding frame _ => [frame]
  | _ => []

def QueueProcessor.inHand : QueueProcessor → List Nat
  | .sending packet => [packet]
  | _ => []

/-- Each frame of the capture is in the ring, in hand, dropped and counted, failed, or a packet, and each packet is in the
queue, in hand, dropped and counted, sent, or discarded at the stop; what is sent is sent in the order of the capture. -/
structure Accounted (stale : Option Nat) (s : Threads) : Prop where
  frames : Overwrites ringBufferSize s.captured s.taken s.ring s.droppedCaptureFrames
  encoded : ∃ settled, s.taken = settled ++ s.encoder.inHand ∧ s.queued.Sublist settled ∧
    s.failed + s.queued.length = settled.length
  packets : Overwrites maxQueueSize (stale.toList ++ s.queued) (s.sent ++ s.queueProcessor.inHand ++ s.discarded)
    s.audioQueue s.droppedEncodedPackets
  discarded : s.discarded ≠ [] → s.queueProcessor = .stopped

section
variable {stale : Option Nat} {s s' : Threads}

theorem Encoder.inHand_notified (e : Encoder) : e.notified.inHand = e.inHand := by
  cases e <;> rfl

theorem QueueProcessor.inHand_notified (p : QueueProcessor) : p.notified.inHand = p.inHand := by
  cases p <;> rfl

theorem QueueProcessor.stopped_notified (p : QueueProcessor) : p.notified = .stopped ↔ p = .stopped := by
  cases p <;> simp [QueueProcessor.notified]

theorem accounted_start (stale : Option Nat) : Accounted stale (start stale) where
  frames := .empty _
  encoded := ⟨[], rfl, List.Sublist.slnil, rfl⟩
  packets := by
    refine ⟨⟨[], by simp [start], List.Sublist.slnil, rfl⟩, ?_⟩
    cases stale <;> simp [start, maxQueueSize]
  discarded h := absurd rfl h

namespace Accounted

theorem pushFrame (h : Accounted stale s) : Accounted stale s.pushFrameToRingBuffer where
  frames := h.frames.push (by decide) _
  encoded := by
    simp only [pushFrameToRingBuffer, Encoder.inHand_notified]
    exact h.encoded
  packets := h.packets
  discarded := h.discarded

theorem popFrame (h : Accounted stale s) {frame : Nat} {ring : List Nat} (hr : s.ring = frame :: ring)
    (he : s.encoder.inHand = []) (last : Bool) : Accounted stale (s.popFrame frame ring last) where
  frames := by
    have := h.frames
    rw [hr] at this
    exact this.pop
  encoded := by
    obtain ⟨settled, htaken, hsub, hcount⟩ := h.encoded
    rw [he, List.append_nil] at htaken
    exact ⟨settled, by rw [Threads.popFrame, htaken]; rfl, hsub, hcount⟩
  packets := h.packets
  discarded := h.discarded

/-- The encoder moves on with nothing in hand, before as after. -/
theorem encoder (h : Accounted stale s) {e : Encoder} (he : e.inHand = s.encoder.inHand) :
    Accounted stale { s with encoder := e } where
  frames := h.frames
  encoded := by
    simp only [he]
    exact h.encoded
  packets := h.packets
  discarded := h.discarded

theorem failed (h : Accounted stale s) {frame : Nat} {e : Encoder} (hs : s.encoder.inHand = [frame]) (he : e.inHand = []) :
    Accounted stale { s with encoder := e, failed := s.failed + 1 } where
  frames := h.frames
  encoded := by
    obtain ⟨settled, htaken, hsub, hcount⟩ := h.encoded
    refine ⟨settled ++ [frame], by simp [htaken, hs, he], hsub.trans (List.sublist_append_left _ _), ?_⟩
    rw [List.length_append, List.length_singleton]
    exact (Nat.add_right_comm _ _ _).trans (congrArg (· + 1) hcount)
  packets := h.packets
  discarded := h.discarded

theorem queueAudioPacket (h : Accounted stale s) {frame : Nat} {e : Encoder} (hs : s.encoder.inHand = [frame])
    (he : e.inHand = []) : Accounted stale { s.queueAudioPacket frame with encoder := e } where
  frames := h.frames
  encoded := by
    obtain ⟨settled, htaken, hsub, hcount⟩ := h.encoded
    refine ⟨settled ++ [frame], ?_, hsub.append (List.Sublist.refl _), ?_⟩
    · simp [Threads.queueAudioPacket, htaken, hs, he]
    · simp only [Threads.queueAudioPacket, List.length_append, List.length_singleton]
      omega
  packets := by
    simp only [Threads.queueAudioPacket, QueueProcessor.inHand_notified, ← List.append_assoc]
    exact h.packets.push (by decide) _
  discarded hd := (QueueProcessor.stopped_notified _).2 (h.discarded hd)

/-- The queue processor moves on with nothing in hand, before as after. -/
theorem queueProcessor (h : Accounted stale s) {p : QueueProcessor} (hp : p.inHand = s.queueProcessor.inHand)
    (hs : s.queueProcessor = .stopped → p = .stopped) : Accounted stale { s with queueProcessor := p } where
  frames := h.frames
  encoded := h.encoded
  packets := by
    simp only [hp]
    exact h.packets
  discarded hd := hs (h.discarded hd)

theorem nothing_discarded (h : Accounted stale s) (hs : s.queueProcessor ≠ .stopped) : s.discarded = [] :=
  Classical.byContradiction fun hd => hs (h.discarded hd)

theorem encoderThread (h : Accounted stale s) {b : Bool} (hs : s.encoderThread b = some s') : Accounted stale s' := by
  unfold Threads.encoderThread at hs
  split at hs
  · rename_i he
    exact Option.some.inj hs ▸ h.encoder (by rw [he]; split <;> rfl)
  · rename_i he
    exact Option.some.inj hs ▸ h.encoder (by rw [he]; split <;> rfl)
  · rename_i w _ he
    obtain ⟨w', -, rfl⟩ := Option.map_eq_some_iff.1 hs
    exact h.encoder (by rw [he]; rfl)
  · rename_i he
    split at hs
    · exact Option.some.inj hs ▸ h.encoder (by rw [he]; rfl)
    · rename_i hr
      exact Option.some.inj hs ▸ h.popFrame hr (by rw [he]; rfl) false
  · rename_i frame last he
    have hhand : s.encoder.inHand = [frame] := by rw [he]; rfl
    have hnext : (if last then Encoder.draining else .testing).inHand = [] := by cases last <;> rfl
    simp only at hs
    split at hs
    · exact Option.some.inj hs ▸ h.failed hhand hnext
    · split at hs
      · cases hs
      · exact Option.some.inj hs ▸ h.queueAudioPacket hhand hnext
  · rename_i he
    split at hs
    · exact Option.some.inj hs ▸ h.encoder (by rw [he]; rfl)
    · rename_i hr
      exact Option.some.inj hs ▸ h.popFrame hr (by rw [he]; rfl) true
  · cases hs

theorem queueProcessorThread (h : Accounted stale s) (hs : s.queueProcessorThread = some s') : Accounted stale s' := by
  unfold Threads.queueProcessorThread at hs
  split at hs
  · rename_i hp
    exact Option.some.inj hs ▸ h.queueProcessor (by rw [hp]; split <;> rfl) (by simp [hp])
  · rename_i hp
    split at hs
    · obtain rfl := Option.some.inj hs
      have hd := h.nothing_discarded (by simp [hp])
      refine ⟨h.frames, h.encoded, ?_, fun _ => rfl⟩
      have := h.packets.popAll
      simpa [hd, hp, QueueProcessor.inHand] using this
    · exact Option.some.inj hs ▸ h.queueProcessor (by rw [hp]; rfl) (by simp [hp])
  · rename_i w _ hp
    obtain ⟨w', -, rfl⟩ := Option.map_eq_some_iff.1 hs
    exact h.queueProcessor (by rw [hp]; rfl) (by simp [hp])
  · rename_i hp
    split at hs
    · rename_i packet queue hq _
      obtain rfl := Option.some.inj hs
      have hd := h.nothing_discarded (by simp [hp])
      refine ⟨h.frames, h.encoded, ?_, fun hne => absurd hd hne⟩
      have := h.packets
      rw [hq] at this
      simpa [hd, hp, QueueProcessor.inHand] using this.pop
    · exact Option.some.inj hs ▸ h.queueProcessor (by rw [hp]; rfl) (by simp [hp])
  · rename_i packet hp
    obtain rfl := Option.some.inj hs
    have hd := h.nothing_discarded (by simp [hp])
    refine ⟨h.frames, h.encoded, ?_, fun hne => absurd hd hne⟩
    simpa [hp, QueueProcessor.inHand] using h.packets
  · rename_i hp
    exact Option.some.inj hs ▸ h.queueProcessor (by rw [hp]; rfl) (by simp [hp])
  · cases hs

theorem flags (h : Accounted stale s) (stopping : Stopping) (capturing stopEncoder stopQueueProcessor : Bool) :
    Accounted stale { s with stopping, capturing, stopEncoder, stopQueueProcessor } :=
  ⟨h.frames, h.encoded, h.packets, h.discarded⟩

theorem stopCapture (h : Accounted stale s) (hs : s.stopCapture = some s') : Accounted stale s' := by
  unfold Threads.stopCapture at hs
  split at hs
  · exact Option.some.inj hs ▸ h.flags .joiningCapture s.capturing s.stopEncoder s.stopQueueProcessor
  · split at hs
    · cases hs
    · exact Option.some.inj hs ▸ h.flags .stoppingEncoder s.capturing s.stopEncoder s.stopQueueProcessor
  · split at hs
    · exact Option.some.inj hs ▸ h.flags .stoppingQueue s.capturing s.stopEncoder s.stopQueueProcessor
    · exact Option.some.inj hs ▸ h.flags .notifyingEncoder s.capturing true s.stopQueueProcessor
  · exact Option.some.inj hs ▸ (h.encoder (Encoder.inHand_notified _)).flags .joiningEncoder s.capturing s.stopEncoder
      s.stopQueueProcessor
  · split at hs
    · exact Option.some.inj hs ▸ h.flags .stoppingQueue s.capturing s.stopEncoder s.stopQueueProcessor
    · cases hs
  · split at hs
    · exact Option.some.inj hs ▸ h.flags .done s.capturing s.stopEncoder s.stopQueueProcessor
    · split at hs
      · cases hs
      · exact Option.some.inj hs ▸ (h.queueProcessor (QueueProcessor.inHand_notified _)
          (QueueProcessor.stopped_notified _).2).flags .joiningQueue s.capturing s.stopEncoder true
  · split at hs
    · exact Option.some.inj hs ▸ h.flags .done s.capturing s.stopEncoder s.stopQueueProcessor
    · cases hs
  · cases hs

theorem step {m : Move} (h : Accounted stale s) (hs : AudioThreads.step s m = some s') : Accounted stale s' := by
  cases m with
  | pushFrameToRingBuffer =>
    simp only [AudioThreads.step] at hs
    split at hs
    · exact Option.some.inj hs ▸ h.pushFrame
    · cases hs
  | captureEnds =>
    simp only [AudioThreads.step] at hs
    split at hs
    · exact Option.some.inj hs ▸ ⟨h.frames, h.encoded, h.packets, h.discarded⟩
    · cases hs
  | encode succeeds => exact h.encoderThread hs
  | process => exact h.queueProcessorThread hs
  | stop => exact h.stopCapture hs
  | spuriousEncoder =>
    simp only [AudioThreads.step] at hs
    split at hs
    · rename_i he
      exact Option.some.inj hs ▸ h.encoder (by rw [he]; rfl)
    · cases hs
  | spuriousQueueProcessor =>
    simp only [AudioThreads.step] at hs
    split at hs
    · rename_i hp
      exact Option.some.inj hs ▸ h.queueProcessor (by rw [hp]; rfl) (by simp [hp])
    · cases hs

end Accounted

/-! ## How the threads stop -/

def Encoder.resting : Encoder → Bool
  | .waiting w => w.resting
  | _ => false

def QueueProcessor.resting : QueueProcessor → Bool
  | .waiting w => w.resting
  | _ => false

/-- The loop of the encoder is over. -/
def Encoder.leaving : Encoder → Bool
  | .encoding _ last => last
  | .draining | .stopped => true
  | _ => false

def Stopping.pastCapture : Stopping → Bool
  | .notCalled | .joiningCapture => false
  | _ => true

def Stopping.encoderFlagged : Stopping → Bool
  | .notCalled | .joiningCapture | .stoppingEncoder => false
  | _ => true

def Stopping.pastEncoder : Stopping → Bool
  | .stoppingQueue | .joiningQueue | .done => true
  | _ => false

def Stopping.queueFlagged : Stopping → Bool
  | .joiningQueue | .done => true
  | _ => false

structure Inv (s : Threads) : Prop where
  ended : s.stopping.pastCapture = true → s.capturing = false
  encoderFlag : s.stopEncoder = s.stopping.encoderFlagged
  queueFlag : s.stopQueueProcessor = s.stopping.queueFlagged
  joined : s.stopping.pastEncoder = true → s.encoder = .stopped
  done : s.stopping = .done → s.queueProcessor = .stopped
  leaving : s.encoder.leaving = true → s.stopEncoder = true
  popping : s.encoder = .popping → s.ring ≠ []
  encoderAwake : s.encoder = .waiting .awake → s.stopEncoder = true ∨ s.ring ≠ []
  encoderRests : s.encoder.resting = true → s.ring = []
  encoderStopped : s.encoder = .stopped → s.ring = []
  queueAwake : s.queueProcessor = .waiting .awake → s.stopQueueProcessor = true ∨ s.audioQueue ≠ []
  queueRests : s.queueProcessor.resting = true → s.stopQueueProcessor = false ∧ s.audioQueue = []

theorem inv_start (stale : Option Nat) : Inv (start stale) := by
  constructor <;> simp [start, Stopping.pastCapture, Stopping.encoderFlagged, Stopping.queueFlagged,
    Stopping.pastEncoder, Encoder.leaving, Encoder.resting, QueueProcessor.resting]

/-- The encoder goes on, with the ring as it is. -/
theorem Inv.encoder (h : Inv s) {e : Encoder} (hleft : s.encoder ≠ .stopped)
    (hleaving : e.leaving = true → s.stopEncoder = true)
    (hpopping : e = .popping → s.ring ≠ []) (hawake : e = .waiting .awake → s.stopEncoder = true ∨ s.ring ≠ [])
    (hrests : e.resting = true → s.ring = []) (hstopped : e = .stopped → s.ring = []) : Inv { s with encoder := e } where
  ended := h.ended
  encoderFlag := h.encoderFlag
  queueFlag := h.queueFlag
  joined hp := absurd (h.joined hp) hleft
  done := h.done
  leaving := hleaving
  popping := hpopping
  encoderAwake := hawake
  encoderRests := hrests
  encoderStopped := hstopped
  queueAwake := h.queueAwake
  queueRests := h.queueRests

theorem Inv.popFrame (h : Inv s) {frame : Nat} {ring : List Nat} (hleft : s.encoder ≠ .stopped) {last : Bool}
    (hlast : last = true → s.stopEncoder = true) : Inv (s.popFrame frame ring last) where
  ended := h.ended
  encoderFlag := h.encoderFlag
  queueFlag := h.queueFlag
  joined hp := absurd (h.joined hp) hleft
  done := h.done
  leaving := hlast
  popping := nofun
  encoderAwake := nofun
  encoderRests := nofun
  encoderStopped := nofun
  queueAwake := h.queueAwake
  queueRests := h.queueRests

theorem QueueProcessor.resting_notified {p : QueueProcessor} (h : p.holds = false) : p.notified.resting = false := by
  cases p with
  | waiting w => cases w <;> first | rfl | cases h
  | _ => rfl

theorem Encoder.resting_notified {e : Encoder} : e.notified.resting = true ↔ e = .waiting .dozing := by
  cases e with
  | waiting w => simpa [Encoder.notified, Encoder.resting] using Waiter.resting_notified
  | _ => simp [Encoder.notified, Encoder.resting]

theorem Encoder.leaving_notified (e : Encoder) : e.notified.leaving = e.leaving := by
  cases e <;> rfl

theorem Inv.queueAudioPacket (h : Inv s) {frame : Nat} (hfree : s.queueProcessor.holds = false) :
    Inv (s.queueAudioPacket frame) where
  ended := h.ended
  encoderFlag := h.encoderFlag
  queueFlag := h.queueFlag
  joined := h.joined
  done hd := (QueueProcessor.stopped_notified _).2 (h.done hd)
  leaving := h.leaving
  popping := h.popping
  encoderAwake := h.encoderAwake
  encoderRests := h.encoderRests
  encoderStopped := h.encoderStopped
  queueAwake _ := .inr (by simp [Threads.queueAudioPacket, pushed])
  queueRests hr := by
    rw [show (s.queueAudioPacket frame).queueProcessor = s.queueProcessor.notified from rfl,
      QueueProcessor.resting_notified hfree] at hr
    cases hr

theorem Inv.encoderThread (h : Inv s) {b : Bool} (hs : s.encoderThread b = some s') : Inv s' := by
  unfold Threads.encoderThread at hs
  split at hs
  · rename_i he
    refine Option.some.inj hs ▸ h.encoder (by simp [he]) ?_ ?_ ?_ ?_ ?_ <;> split <;>
      simp_all [Encoder.leaving, Encoder.resting, Waiter.resting]
  · rename_i he
    have := h.encoderAwake he
    refine Option.some.inj hs ▸ h.encoder (by simp [he]) ?_ ?_ ?_ ?_ ?_ <;> split <;>
      simp_all [Encoder.leaving, Encoder.resting]
  · rename_i w _ he
    obtain ⟨w', hw, rfl⟩ := Option.map_eq_some_iff.1 hs
    refine h.encoder (by simp [he]) (by rintro ⟨⟩) (by rintro ⟨⟩) (fun ha => ?_) (fun hr => ?_) (by rintro ⟨⟩)
    · have := Waiter.awake_next hw (by simpa using ha)
      simpa using this
    · rcases Waiter.resting_next hw hr with hr | hready
      · exact h.encoderRests (by rw [he]; exact hr)
      · simp_all
  · rename_i he
    split at hs
    · rename_i hr
      exact absurd hr (h.popping he)
    · exact Option.some.inj hs ▸ h.popFrame (by simp [he]) (by rintro ⟨⟩)
  · rename_i frame last he
    have hleaving : last = true → s.stopEncoder = true := fun hl => h.leaving (by rw [he]; exact hl)
    have hnext : ∀ t : Threads, t.encoder = .encoding frame last → t.stopEncoder = s.stopEncoder → Inv t →
        Inv { t with encoder := if last then .draining else .testing } := by
      intro t ht hf hi
      refine hi.encoder (by simp [ht]) ?_ ?_ ?_ ?_ ?_ <;> cases last <;> simp_all [Encoder.leaving, Encoder.resting]
    simp only at hs
    split at hs
    · obtain rfl := Option.some.inj hs
      have hi := hnext s he rfl h
      exact ⟨hi.1, hi.2, hi.3, hi.4, hi.5, hi.6, hi.7, hi.8, hi.9, hi.10, hi.11, hi.12⟩
    · split at hs
      · cases hs
      · rename_i hfree
        exact Option.some.inj hs ▸ hnext _ he rfl (h.queueAudioPacket (by simpa using hfree))
  · rename_i he
    have hflag := h.leaving (by rw [he]; rfl)
    split at hs
    · rename_i hr
      exact Option.some.inj hs ▸ h.encoder (by simp [he]) (fun _ => hflag) (by rintro ⟨⟩) (by rintro ⟨⟩) (by rintro ⟨⟩)
        fun _ => hr
    · exact Option.some.inj hs ▸ h.popFrame (by simp [he]) fun _ => hflag
  · cases hs

/-- The queue processor goes on, with the queue as it is. -/
theorem Inv.queueProcessor (h : Inv s) {p : QueueProcessor} (hdone : s.stopping = .done → p = .stopped)
    (hawake : p = .waiting .awake → s.stopQueueProcessor = true ∨ s.audioQueue ≠ [])
    (hrests : p.resting = true → s.stopQueueProcessor = false ∧ s.audioQueue = []) :
    Inv { s with queueProcessor := p } where
  ended := h.ended
  encoderFlag := h.encoderFlag
  queueFlag := h.queueFlag
  joined := h.joined
  done := hdone
  leaving := h.leaving
  popping := h.popping
  encoderAwake := h.encoderAwake
  encoderRests := h.encoderRests
  encoderStopped := h.encoderStopped
  queueAwake := hawake
  queueRests := hrests

/-- The queue processor takes from the queue. -/
theorem Inv.taken (h : Inv s) {p : QueueProcessor} {queue sent discarded : List Nat} (hleft : s.queueProcessor ≠ .stopped)
    (hawake : p ≠ .waiting .awake) (hrests : p.resting = false) :
    Inv { s with audioQueue := queue, queueProcessor := p, sent, discarded } where
  ended := h.ended
  encoderFlag := h.encoderFlag
  queueFlag := h.queueFlag
  joined := h.joined
  done hd := absurd (h.done hd) hleft
  leaving := h.leaving
  popping := h.popping
  encoderAwake := h.encoderAwake
  encoderRests := h.encoderRests
  encoderStopped := h.encoderStopped
  queueAwake hp := absurd hp hawake
  queueRests hp := absurd hp (by simp [hrests])

theorem Inv.queueProcessorThread (h : Inv s) (hs : s.queueProcessorThread = some s') : Inv s' := by
  have hdone : ∀ {p : QueueProcessor}, s.queueProcessor ≠ .stopped → s.stopping = .done → p = .stopped :=
    fun hleft hd => absurd (h.done hd) hleft
  unfold Threads.queueProcessorThread at hs
  split at hs
  · rename_i hp
    refine Option.some.inj hs ▸ h.queueProcessor (hdone (by simp [hp])) ?_ ?_ <;> split <;>
      simp [QueueProcessor.resting, Waiter.resting]
  · rename_i hp
    split at hs
    · exact Option.some.inj hs ▸ h.taken (by simp [hp]) (by rintro ⟨⟩) rfl
    · exact Option.some.inj hs ▸ h.queueProcessor (hdone (by simp [hp])) (by rintro ⟨⟩) (by rintro ⟨⟩)
  · rename_i w _ hp
    obtain ⟨w', hw, rfl⟩ := Option.map_eq_some_iff.1 hs
    refine h.queueProcessor (hdone (by simp [hp])) (fun ha => ?_) (fun hr => ?_)
    · have := Waiter.awake_next hw (by simpa using ha)
      simpa using this
    · rcases Waiter.resting_next hw hr with hr | hready
      · exact h.queueRests (by rw [hp]; exact hr)
      · simp_all
  · rename_i hp
    split at hs
    · exact Option.some.inj hs ▸ h.taken (by simp [hp]) (by rintro ⟨⟩) rfl
    · exact Option.some.inj hs ▸ h.queueProcessor (hdone (by simp [hp])) (by rintro ⟨⟩) (by rintro ⟨⟩)
  · rename_i hp
    exact Option.some.inj hs ▸ h.taken (by simp [hp]) (by rintro ⟨⟩) rfl
  · rename_i hp
    exact Option.some.inj hs ▸ h.queueProcessor (hdone (by simp [hp])) (by rintro ⟨⟩) (by rintro ⟨⟩)
  · cases hs

/-- The encoder is woken, by a push or at the stop. -/
theorem Inv.notified (h : Inv s) (hring : s.encoder = .waiting .dozing → s.ring = []) :
    Inv { s with encoder := s.encoder.notified } where
  ended := h.ended
  encoderFlag := h.encoderFlag
  queueFlag := h.queueFlag
  joined hp := by simp [h.joined hp, Encoder.notified]
  done := h.done
  leaving hl := h.leaving (by rwa [Encoder.leaving_notified] at hl)
  popping hp := h.popping (by cases he : s.encoder <;> simp_all [Encoder.notified])
  encoderAwake ha := h.encoderAwake (by
    cases he : s.encoder <;> simp_all [Encoder.notified, Waiter.awake_notified])
  encoderRests hr := hring (Encoder.resting_notified.1 hr)
  encoderStopped hst := h.encoderStopped (by cases he : s.encoder <;> simp_all [Encoder.notified])
  queueAwake := h.queueAwake
  queueRests := h.queueRests

theorem Inv.pushFrame (h : Inv s) (hcapturing : s.capturing = true) (hfree : s.encoder.holds = false) :
    Inv s.pushFrameToRingBuffer := by
  have hring : pushed ringBufferSize s.ring s.captured.length ≠ [] := by simp [pushed]
  have hnot : s.stopEncoder = false := by
    have := h.ended
    rw [h.encoderFlag]
    cases hst : s.stopping <;> simp_all [Stopping.pastCapture, Stopping.encoderFlagged]
  have hdoze : s.encoder ≠ .waiting .dozing := by
    intro he
    simp [he, Encoder.holds, Waiter.holds] at hfree
  refine ⟨h.ended, h.encoderFlag, h.queueFlag, fun hp => ?_, h.done, fun hl => ?_, fun _ => hring, fun _ => .inr hring,
    fun hr => absurd (Encoder.resting_notified.1 hr) hdoze, fun hst => ?_, h.queueAwake, h.queueRests⟩
  · simp [Threads.pushFrameToRingBuffer, h.joined hp, Encoder.notified]
  · exact h.leaving (by rwa [← Encoder.leaving_notified])
  · have := h.leaving (by
      cases he : s.encoder <;> simp_all [Encoder.notified, Threads.pushFrameToRingBuffer, Encoder.leaving])
    simp_all

theorem Inv.stopCapture (h : Inv s) (hs : s.stopCapture = some s') : Inv s' := by
  unfold Threads.stopCapture at hs
  obtain ⟨h1, h2, h3, h4, h5, h6, h7, h8, h9, h10, h11, h12⟩ := id h
  split at hs
  · rename_i hst
    simp only [hst] at *
    exact Option.some.inj hs ▸ ⟨nofun, h2, h3, nofun, nofun, h6, h7, h8, h9, h10, h11, h12⟩
  · rename_i hst
    split at hs
    · cases hs
    · rename_i hc
      simp only [hst] at *
      exact Option.some.inj hs ▸ ⟨fun _ => by simpa using hc, h2, h3, nofun, nofun, h6, h7, h8, h9, h10, h11, h12⟩
  · rename_i hst
    simp only [hst] at *
    split at hs
    · rename_i hf
      rw [h2] at hf
      cases hf
    · exact Option.some.inj hs ▸ ⟨h1, rfl, h3, nofun, nofun, fun _ => rfl, h7, fun _ => .inl rfl, h9, h10, h11, h12⟩
  · rename_i hst
    have hn := h.notified fun he => h9 (by rw [he]; rfl)
    simp only [hst] at *
    exact Option.some.inj hs ▸ ⟨h1, h2, h3, nofun, nofun, hn.leaving, hn.popping, hn.encoderAwake, hn.encoderRests,
      hn.encoderStopped, h11, h12⟩
  · rename_i hst
    split at hs
    · rename_i he
      simp only [hst] at *
      exact Option.some.inj hs ▸ ⟨h1, h2, h3, fun _ => he, nofun, h6, h7, h8, h9, h10, h11, h12⟩
    · cases hs
  · rename_i hst
    simp only [hst] at *
    split at hs
    · rename_i hf
      rw [h3] at hf
      cases hf
    · split at hs
      · cases hs
      · rename_i hfree
        refine Option.some.inj hs ▸ ⟨h1, h2, rfl, h4, nofun, h6, h7, h8, h9, h10, fun _ => .inl rfl, fun hr => ?_⟩
        rw [QueueProcessor.resting_notified (by simpa using hfree)] at hr
        cases hr
  · rename_i hst
    split at hs
    · rename_i hp
      simp only [hst] at *
      exact Option.some.inj hs ▸ ⟨h1, h2, h3, h4, fun _ => hp, h6, h7, h8, h9, h10, h11, h12⟩
    · cases hs
  · cases hs

theorem Inv.step {m : Move} (h : Inv s) (hs : AudioThreads.step s m = some s') : Inv s' := by
  cases m with
  | pushFrameToRingBuffer =>
    simp only [AudioThreads.step] at hs
    split at hs
    · rename_i hc
      simp only [Bool.and_eq_true, Bool.not_eq_true'] at hc
      exact Option.some.inj hs ▸ h.pushFrame hc.1 hc.2
    · cases hs
  | captureEnds =>
    simp only [AudioThreads.step] at hs
    split at hs
    · exact Option.some.inj hs ▸ ⟨fun _ => rfl, h.2, h.3, h.4, h.5, h.6, h.7, h.8, h.9, h.10, h.11, h.12⟩
    · cases hs
  | encode succeeds => exact h.encoderThread hs
  | process => exact h.queueProcessorThread hs
  | stop => exact h.stopCapture hs
  | spuriousEncoder =>
    simp only [AudioThreads.step] at hs
    split at hs
    · rename_i he
      exact Option.some.inj hs ▸ h.encoder (by simp [he]) nofun nofun nofun nofun nofun
    · cases hs
  | spuriousQueueProcessor =>
    simp only [AudioThreads.step] at hs
    split at hs
    · rename_i hp
      exact Option.some.inj hs ▸ h.queueProcessor (fun hd => by simpa [hp] using h.done hd) nofun nofun
    · cases hs

/-- What is sent is what was captured, in order and with gaps that are counted, and never far behind: the frames that wait
are the newest ones.  Where `StopCapture` has returned, no frame waits. -/
structure Delivered (stale : Option Nat) (s : Threads) : Prop where
  inOrder : s.sent.Sublist (stale.toList ++ s.captured)
  newest : s.ring <:+ s.captured ∧ s.ring.length ≤ ringBufferSize
  counted : stale.toList.length + s.captured.length = s.sent.length + s.discarded.length + s.droppedCaptureFrames +
    s.droppedEncodedPackets + s.failed + s.ring.length + s.audioQueue.length + s.encoder.inHand.length +
    s.queueProcessor.inHand.length
  short : s.audioQueue.length ≤ maxQueueSize
  settled : s.stopping = .done → s.ring = [] ∧ s.encoder.inHand = [] ∧ s.queueProcessor.inHand = []

theorem Accounted.delivered (h : Accounted stale s) (hi : Inv s) : Delivered stale s where
  inOrder := by
    obtain ⟨settled, htaken, hsub, -⟩ := h.encoded
    have hqueued : s.queued.Sublist s.captured :=
      hsub.trans ((htaken ▸ List.sublist_append_left _ _).trans h.frames.taken_sublist)
    have hsent : s.sent.Sublist (stale.toList ++ s.queued) := by
      refine List.Sublist.trans ?_ h.packets.taken_sublist
      rw [List.append_assoc]
      exact List.sublist_append_left _ _
    exact hsent.trans (hqueued.append_left _)
  newest := by
    obtain ⟨⟨gone, hgone, -⟩, hle⟩ := h.frames
    exact ⟨hgone ▸ List.suffix_append _ _, hle⟩
  counted := by
    obtain ⟨settled, htaken, -, hcount⟩ := h.encoded
    have hframes := h.frames.dropped_eq
    have hpackets := h.packets.dropped_eq
    simp only [htaken, List.length_append] at hframes hpackets
    omega
  short := h.packets.le_bound
  settled hd := by
    have he := hi.joined (by rw [hd]; rfl)
    exact ⟨hi.encoderStopped he, by rw [he]; rfl, by rw [hi.done hd]; rfl⟩

end

/-- **However the threads take turns, the audio that is sent is the audio that was captured, in its order**: every frame
is sent, or counted as dropped, or failed in the encoder, or is one of the few that wait or are in hand. -/
theorem audio_delivered (stale : Option Nat) (moves : List Move) :
    Throughout step (Delivered stale) (start stale) moves := by
  have haccounted : Throughout step (Accounted stale) (start stale) moves :=
    .of_along (fun _ _ _ h _ hs => h.step hs) (accounted_start stale) along_true
  have hinv : Throughout step Inv (start stale) moves :=
    .of_along (fun _ _ _ h _ hs => h.step hs) (inv_start stale) along_true
  exact (haccounted.and hinv).mono fun _ h => h.1.delivered h.2

/-! ## That `StopCapture` returns -/

def Move.isSpurious : Move → Bool
  | .spuriousEncoder | .spuriousQueueProcessor => true
  | _ => false

/-- The encoder rests, and the notification that was for it is over. -/
def Stranded (s : Threads) : Prop := s.stopping = .joiningEncoder ∧ s.encoder.resting = true

/-- `StopEncoderThread` does not notify between the encoder's look at its flag and its sleep. -/
def InTime (s : Threads) (m : Move) : Prop := m = .stop → s.stopping = .notifyingEncoder → s.encoder ≠ .waiting .dozing

instance (s : Threads) (m : Move) : Decidable (InTime s m) := by
  unfold InTime
  infer_instance

def Encoder.rank : Encoder → Nat
  | .testing => 7
  | .waiting w => w.rank
  | .popping => 3
  | .encoding _ last => if last then 14 else 20
  | .draining => 1
  | .stopped => 0

def QueueProcessor.rank (flag : Bool) (queue : List Nat) : QueueProcessor → Nat
  | .testing => if flag then 1 else 7
  | .waiting w => w.rank
  | .inner => if queue = [] then 8 else 3
  | .sending _ => 10
  | .relocking => 9
  | .stopped => 0

def Stopping.rank : Stopping → Nat
  | .notCalled => 15
  | .joiningCapture => 14
  | .stoppingEncoder => 13
  | .notifyingEncoder => 12
  | .joiningEncoder => 7
  | .stoppingQueue => 6
  | .joiningQueue => 1
  | .done => 0

/-- A bound on the moves that are left; a frame in the ring is worth its packet, and a packet its sending. -/
def Threads.rank (s : Threads) : Nat := 18 * s.ring.length + 8 * s.audioQueue.length + s.encoder.rank +
  s.queueProcessor.rank s.stopQueueProcessor s.audioQueue + s.stopping.rank

section
variable {s s' : Threads} {m : Move}

theorem Encoder.rank_notified (e : Encoder) : e.notified.rank ≤ e.rank + 4 := by
  cases e with
  | waiting w => exact Waiter.rank_notified
  | _ => exact Nat.le_add_right _ _

theorem Encoder.rank_le (e : Encoder) : e.rank ≤ 20 := by
  cases e with
  | waiting w => exact Waiter.rank_le.trans (by decide)
  | encoding f last => cases last <;> simp [Encoder.rank]
  | _ => simp [Encoder.rank]

theorem QueueProcessor.rank_le (p : QueueProcessor) (flag : Bool) (queue : List Nat) : p.rank flag queue ≤ 10 := by
  cases p with
  | waiting w => exact Waiter.rank_le.trans (by decide)
  | testing | inner =>
    simp only [QueueProcessor.rank]
    split <;> simp
  | _ => simp [QueueProcessor.rank]

theorem Stopping.rank_le (t : Stopping) : t.rank ≤ 15 := by
  cases t <;> decide

/-- What a notification with the mutex free adds. -/
theorem QueueProcessor.rank_notified {p : QueueProcessor} (hfree : p.holds = false) (flag flag' : Bool)
    (queue queue' : List Nat) (hflag : flag = true → flag' = true) :
    p.notified.rank flag' queue' ≤ p.rank flag queue + 4 := by
  cases p with
  | waiting w => exact Waiter.rank_notified
  | inner => cases hfree
  | testing =>
    simp only [QueueProcessor.notified, QueueProcessor.rank]
    split <;> split <;> simp_all
  | _ => exact Nat.le_add_right _ _

theorem rank_encoderThread (hi : Inv s) {b : Bool} (hs : s.encoderThread b = some s') : s'.rank < s.rank := by
  unfold Threads.encoderThread at hs
  split at hs
  · rename_i he
    obtain rfl := Option.some.inj hs
    simp only [Threads.rank, he]
    split <;> simp [Encoder.rank, Waiter.rank]
  · rename_i he
    obtain rfl := Option.some.inj hs
    simp only [Threads.rank, he]
    split <;> simp [Encoder.rank, Waiter.rank]
  · rename_i w _ he
    obtain ⟨w', hw, rfl⟩ := Option.map_eq_some_iff.1 hs
    have := Waiter.rank_next hw
    simp only [Threads.rank, he, Encoder.rank]
    omega
  · rename_i he
    split at hs
    · rename_i hr
      exact absurd hr (hi.popping he)
    · rename_i frame ring hr
      obtain rfl := Option.some.inj hs
      simp only [Threads.rank, Threads.popFrame, he, hr, Encoder.rank, List.length_cons, Bool.false_eq_true, if_false]
      omega
  · rename_i frame last he
    simp only at hs
    split at hs
    · obtain rfl := Option.some.inj hs
      simp only [Threads.rank, he]
      cases last <;> simp [Encoder.rank]
    · split at hs
      · cases hs
      · rename_i hfree
        obtain rfl := Option.some.inj hs
        have hqueue : (pushed maxQueueSize s.audioQueue frame).length ≤ s.audioQueue.length + 1 := by
          unfold pushed
          split <;> simp
        have hrank := QueueProcessor.rank_notified (by simpa using hfree) s.stopQueueProcessor s.stopQueueProcessor
          s.audioQueue (pushed maxQueueSize s.audioQueue frame) id
        simp only [Threads.rank, Threads.queueAudioPacket, he]
        cases last <;> simp only [Encoder.rank, if_true, Bool.false_eq_true, if_false] <;> omega
  · rename_i he
    split at hs
    · obtain rfl := Option.some.inj hs
      simp [Threads.rank, he, Encoder.rank]
    · rename_i frame ring hr
      obtain rfl := Option.some.inj hs
      simp only [Threads.rank, Threads.popFrame, he, hr, Encoder.rank, List.length_cons, if_true]
      omega
  · cases hs

theorem rank_queueProcessorThread (hi : Inv s) (hs : s.queueProcessorThread = some s') : s'.rank < s.rank := by
  unfold Threads.queueProcessorThread at hs
  split at hs
  · rename_i hp
    obtain rfl := Option.some.inj hs
    simp only [Threads.rank, hp]
    cases s.stopQueueProcessor <;> simp [QueueProcessor.rank, Waiter.rank]
  · rename_i hp
    split at hs
    · obtain rfl := Option.some.inj hs
      simp only [Threads.rank, hp, QueueProcessor.rank, Waiter.rank, List.length_nil]
      omega
    · rename_i hflag
      obtain rfl := Option.some.inj hs
      have hne : s.audioQueue ≠ [] := (hi.queueAwake hp).resolve_left hflag
      simp only [Threads.rank, hp, QueueProcessor.rank, Waiter.rank, if_neg hne]
      omega
  · rename_i w _ hp
    obtain ⟨w', hw, rfl⟩ := Option.map_eq_some_iff.1 hs
    have := Waiter.rank_next hw
    simp only [Threads.rank, hp, QueueProcessor.rank]
    omega
  · rename_i hp
    split at hs
    · rename_i packet queue hq hflag
      obtain rfl := Option.some.inj hs
      simp only [Threads.rank, hp, hq, QueueProcessor.rank, List.length_cons, reduceCtorEq, if_false]
      omega
    · rename_i hnot
      obtain rfl := Option.some.inj hs
      cases hq : s.audioQueue <;> cases hflag : s.stopQueueProcessor <;>
        simp_all [Threads.rank, QueueProcessor.rank]
  · rename_i hp
    obtain rfl := Option.some.inj hs
    simp only [Threads.rank, hp, QueueProcessor.rank]
    omega
  · rename_i hp
    obtain rfl := Option.some.inj hs
    simp only [Threads.rank, hp, QueueProcessor.rank]
    split <;> omega
  · cases hs

theorem rank_stopCapture (hs : s.stopCapture = some s') : s'.rank < s.rank := by
  unfold Threads.stopCapture at hs
  split at hs
  · rename_i hst
    obtain rfl := Option.some.inj hs
    simp [Threads.rank, hst, Stopping.rank]
  · rename_i hst
    split at hs
    · cases hs
    · obtain rfl := Option.some.inj hs
      simp [Threads.rank, hst, Stopping.rank]
  · rename_i hst
    split at hs <;> (obtain rfl := Option.some.inj hs; simp [Threads.rank, hst, Stopping.rank])
  · rename_i hst
    obtain rfl := Option.some.inj hs
    have := s.encoder.rank_notified
    simp only [Threads.rank, hst, Stopping.rank]
    omega
  · rename_i hst
    split at hs
    · obtain rfl := Option.some.inj hs
      simp [Threads.rank, hst, Stopping.rank]
    · cases hs
  · rename_i hst
    split at hs
    · obtain rfl := Option.some.inj hs
      simp [Threads.rank, hst, Stopping.rank]
    · split at hs
      · cases hs
      · rename_i hfree
        obtain rfl := Option.some.inj hs
        have := QueueProcessor.rank_notified (by simpa using hfree) s.stopQueueProcessor true s.audioQueue s.audioQueue
          fun _ => rfl
        simp only [Threads.rank, hst, Stopping.rank]
        omega
  · rename_i hst
    split at hs
    · obtain rfl := Option.some.inj hs
      simp [Threads.rank, hst, Stopping.rank]
    · cases hs
  · cases hs

theorem same_encoderThread {b : Bool} (hs : s.encoderThread b = some s') :
    s'.stopping = s.stopping ∧ s'.capturing = s.capturing := by
  unfold Threads.encoderThread at hs
  grind [Threads.popFrame, Threads.queueAudioPacket, Option.map_eq_some_iff]

theorem same_queueProcessorThread (hs : s.queueProcessorThread = some s') :
    s'.stopping = s.stopping ∧ s'.capturing = s.capturing ∧ s'.encoder = s.encoder := by
  unfold Threads.queueProcessorThread at hs
  grind [Option.map_eq_some_iff]

theorem capturing_stopCapture (hs : s.stopCapture = some s') : s'.capturing = s.capturing := by
  unfold Threads.stopCapture at hs
  grind

/-- **When the capture has ended, every move brings the threads nearer to their end.** -/
theorem rank_step (hi : Inv s) (hm : m.isSpurious = false) (hended : s.capturing = false)
    (hs : step s m = some s') : s'.capturing = false ∧ s'.rank < s.rank := by
  cases m with
  | pushFrameToRingBuffer | captureEnds => simp [step, hended] at hs
  | encode succeeds => exact ⟨(same_encoderThread hs).2.trans hended, rank_encoderThread hi hs⟩
  | process => exact ⟨(same_queueProcessorThread hs).2.1.trans hended, rank_queueProcessorThread hi hs⟩
  | stop => exact ⟨(capturing_stopCapture hs).trans hended, rank_stopCapture hs⟩
  | spuriousEncoder | spuriousQueueProcessor => cases hm

theorem queueProcessor_still (h : s.queueProcessorThread = none) :
    s.queueProcessor = .stopped ∨ s.queueProcessor = .waiting .sleeping := by
  unfold Threads.queueProcessorThread at h
  grind [Waiter.next_eq_none, Option.map_eq_none_iff]

theorem encoder_still (h : s.encoderThread false = none) : s.encoder = .stopped ∨ s.encoder = .waiting .sleeping := by
  unfold Threads.encoderThread at h
  grind [Waiter.next_eq_none, Option.map_eq_none_iff]

/-- **Where nothing moves, `StopCapture` has returned or waits for an encoder that sleeps.** -/
theorem done_or_stranded (hi : Inv s) (hstill : ∀ m, m.isSpurious = false → step s m = none) :
    s.stopping = .done ∨ Stranded s := by
  have hqueue := queueProcessor_still (hstill .process rfl)
  have hencoder := encoder_still (hstill (.encode false) rfl)
  have hstop : s.stopCapture = none := hstill .stop rfl
  unfold Threads.stopCapture at hstop
  split at hstop
  · cases hstop
  · have := hstill .captureEnds rfl
    split at hstop <;> simp_all [step]
  · split at hstop <;> cases hstop
  · cases hstop
  · rename_i hst
    split at hstop
    · cases hstop
    · rename_i hne
      exact .inr ⟨hst, by rw [hencoder.resolve_left hne]; rfl⟩
  · split at hstop
    · cases hstop
    · split at hstop
      · rename_i hholds
        rcases hqueue with hq | hq <;> simp [hq, QueueProcessor.holds, Waiter.holds] at hholds
      · cases hstop
  · rename_i hst
    split at hstop
    · cases hstop
    · rename_i hne
      -- the flag is up, so the queue processor does not rest
      have hflag := (hi.queueRests (by rw [hqueue.resolve_left hne]; rfl)).1
      rw [hi.queueFlag, hst] at hflag
      cases hflag
  · exact .inl ‹_›

/-- An encoder that nobody wakes stays as it is. -/
theorem Stranded.step (h : Stranded s) (hi : Inv s) (hm : m.isSpurious = false) (hs : AudioThreads.step s m = some s') :
    Stranded s' := by
  obtain ⟨hst, hrest⟩ := h
  have hended : s.capturing = false := hi.ended (by rw [hst]; rfl)
  cases m with
  | pushFrameToRingBuffer | captureEnds => simp [AudioThreads.step, hended] at hs
  | encode succeeds =>
    refine ⟨(same_encoderThread hs).1.trans hst, ?_⟩
    cases he : s.encoder with
    | waiting w =>
      rw [he] at hrest
      cases w with
      | dozing =>
        simp only [AudioThreads.step, Threads.encoderThread, he, Waiter.next, Option.map_some, Option.some.injEq] at hs
        exact hs ▸ rfl
      | sleeping => simp [AudioThreads.step, Threads.encoderThread, he, Waiter.next] at hs
      | _ => cases hrest
    | _ => simp [he, Encoder.resting] at hrest
  | process =>
    obtain ⟨hst', -, he⟩ := same_queueProcessorThread hs
    exact ⟨hst'.trans hst, by rw [he]; exact hrest⟩
  | stop =>
    have hne : s.encoder ≠ .stopped := by
      intro he
      rw [he] at hrest
      cases hrest
    simp [AudioThreads.step, Threads.stopCapture, hst, hne] at hs
  | spuriousEncoder | spuriousQueueProcessor => cases hm

/-- **Only a notification between the look and the sleep strands the encoder**, and it always does. -/
theorem stranded_iff (hi : Inv s) (hm : m.isSpurious = false) (hs : step s m = some s') :
    Stranded s' ↔ Stranded s ∨ ¬InTime s m := by
  constructor
  · rintro ⟨hst', hrest'⟩
    refine or_iff_not_imp_right.2 fun hin => ?_
    have hin : InTime s m := Classical.not_not.1 hin
    cases m with
    | pushFrameToRingBuffer =>
      simp only [step] at hs
      split at hs
      · rename_i hc
        obtain rfl := Option.some.inj hs
        have hst : s.stopping = .joiningEncoder := hst'
        simp [hi.ended (by rw [hst]; rfl)] at hc
      · cases hs
    | captureEnds =>
      simp only [step] at hs
      split at hs
      · obtain rfl := Option.some.inj hs
        exact ⟨hst', hrest'⟩
      · cases hs
    | encode succeeds =>
      have hst := (same_encoderThread hs).1.symm.trans hst'
      have hflag : s.stopEncoder = true := hi.encoderFlag.trans (by rw [hst]; rfl)
      refine ⟨hst, ?_⟩
      -- with its flag up, an encoder that looks is awake
      simp only [step] at hs
      unfold Threads.encoderThread at hs
      split at hs
      · obtain rfl := Option.some.inj hs
        simp [hflag, Encoder.resting] at hrest'
      · obtain rfl := Option.some.inj hs
        simp [hflag, Encoder.resting] at hrest'
      · rename_i w _ he
        obtain ⟨w', hw, rfl⟩ := Option.map_eq_some_iff.1 hs
        rw [he]
        exact (Waiter.resting_next hw hrest').resolve_right (by simp [hflag])
      all_goals grind [Threads.popFrame, Threads.queueAudioPacket, Encoder.resting]
    | process =>
      obtain ⟨hst, -, he⟩ := same_queueProcessorThread hs
      exact ⟨hst.symm.trans hst', he ▸ hrest'⟩
    | stop =>
      simp only [step] at hs
      unfold Threads.stopCapture at hs
      split at hs
      case h_4 hst =>
        obtain rfl := Option.some.inj hs
        exact absurd (Encoder.resting_notified.1 hrest') (hin rfl hst)
      all_goals grind
    | spuriousEncoder | spuriousQueueProcessor => cases hm
  · rintro (h | hlate)
    · exact h.step hi hm hs
    · simp only [InTime, Classical.not_imp, not_not] at hlate
      obtain ⟨rfl, hst, he⟩ := hlate
      simp only [step, Threads.stopCapture, hst, Option.some.injEq] at hs
      subst hs
      exact ⟨rfl, by rw [he]; rfl⟩

/-- In a run without spurious wake-ups the encoder is stranded where a notification has not come in time. -/
theorem stranded_after {moves : List Move} (hi : Inv s) (hgenuine : ∀ m ∈ moves, m.isSpurious = false)
    (hs : after step s moves = some s') : Stranded s' ↔ Stranded s ∨ ¬Along step InTime s moves := by
  induction moves generalizing s with
  | nil =>
    obtain rfl := Option.some.inj hs
    simp [Along]
  | cons m moves ih =>
    simp only [after] at hs
    cases hm : step s m with
    | none => simp [hm] at hs
    | some t =>
      rw [hm, Option.bind_some] at hs
      rw [ih (hi.step hm) (fun n hn => hgenuine n (by simp [hn])) hs, stranded_iff hi (hgenuine m (by simp)) hm]
      simp only [Along, hm, Option.some.injEq, forall_eq', not_and_or, or_assoc]

end

/-- **`StopCapture` returns exactly where its notification of the encoder comes in time**: once the capture has ended the
threads make at most 107 more steps, and when they all stand still it has returned, unless `StopEncoderThread` notified
between the encoder's look at its flag and its sleep. -/
theorem stop_capture_returns_iff (stale : Option Nat) {moves more : List Move} {s s' : Threads}
    (hs : after step (start stale) moves = some s) (hended : s.capturing = false) (hmore : after step s more = some s')
    (hgenuine : ∀ m ∈ moves ++ more, m.isSpurious = false) :
    more.length ≤ 107 ∧ ((∀ m, m.isSpurious = false → step s' m = none) →
      (s'.stopping = .done ↔ Along step InTime (start stale) (moves ++ more))) := by
  have hinv : ∀ moves, Throughout step Inv (start stale) moves :=
    fun _ => .of_along (fun _ _ _ h _ hs => h.step hs) (inv_start stale) along_true
  have hall : after step (start stale) (moves ++ more) = some s' := by rw [after_append, hs, Option.bind_some, hmore]
  constructor
  · have hlength : more.length + s'.rank ≤ s.rank := by
      refine length_le_rank (fun s => Inv s ∧ s.capturing = false) (·.isSpurious = false) Threads.rank
        (fun s m s' hi hm hs => ?_) ⟨(hinv moves).after hs, hended⟩ (fun m hm => hgenuine m (by simp [hm])) hmore
      obtain ⟨hended', hlt⟩ := rank_step hi.1 hm hi.2 hs
      exact ⟨⟨hi.1.step hs, hended'⟩, hlt⟩
    have hdelivered := (audio_delivered stale moves).after hs
    have hring := hdelivered.newest.2
    have hqueue := hdelivered.short
    have hencoder := s.encoder.rank_le
    have hprocessor := s.queueProcessor.rank_le s.stopQueueProcessor s.audioQueue
    have hstopping := s.stopping.rank_le
    simp only [ringBufferSize, maxQueueSize] at hring hqueue
    simp only [Threads.rank] at hlength
    omega
  · intro hstill
    have hstranded := stranded_after (inv_start stale) hgenuine hall
    have hstart : ¬Stranded (start stale) := fun h => by cases h.1
    rw [or_iff_right hstart] at hstranded
    constructor
    · intro hdone
      refine Classical.not_not.1 fun hlate => ?_
      have := (hstranded.2 hlate).1
      rw [hdone] at this
      cases this
    · intro hin
      exact (done_or_stranded ((hinv _).after hall) hstill).resolve_right fun h => hstranded.1 h hin

/-- The encoder has looked and is not asleep when the capture ends, and the queue processor sleeps. -/
def dozing : List Move :=
  [.encode true, .encode true, .encode true, .process, .process, .process, .process, .captureEnds]

/-- `StopCapture` up to its wait for the encoder, which falls asleep. -/
def late : List Move := [.stop, .stop, .stop, .stop, .encode true]

theorem stop_capture_returns_iff_late : ∃ s, after step (start none) (dozing ++ late) = some s ∧
    late.length ≤ 107 ∧ ((∀ m, m.isSpurious = false → step s m = none) →
      (s.stopping = .done ↔ Along step InTime (start none) (dozing ++ late))) :=
  ⟨_, rfl, stop_capture_returns_iff none rfl rfl rfl (by decide)⟩

example : ¬Along step InTime (start none) (dozing ++ late) := by decide

end AudioThreads
end Host
end CloudGaming
