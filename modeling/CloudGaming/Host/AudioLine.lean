import CloudGaming.Async.Along
import CloudGaming.Host.AudioClock
import CloudGaming.Host.GoMedia
/-!
# AudioLine — the order in which audio packets enter the send queue

`sendAudioPacket` is called by one thread; until the peer is connected it keeps its packets in a buffer, which the
callback of the connection flushes into the send queue, next to the packets sent live.  Packets are numbered as they
are submitted.  The live packets wait for no flush: what is buffered may enter after them, and evict them.
-/
namespace CloudGaming
namespace Host
namespace GoMedia

open Async

/-- An RTP packet; `sequence` counts the packets made, and the header bears it in 16 bits. -/
structure RtpPacket where
  sequence : Nat
  packet : Packet
  deriving DecidableEq, Repr

def RtpPacket.sequenceNumber (p : RtpPacket) : Nat := p.sequence % 2 ^ 16

/-- Where `enqueueLatestAudioPacket` stands with a numbered packet. -/
inductive Enqueuing where
  | push (p : RtpPacket)
  | evictStale (p : RtpPacket)
  | pushAgain (p : RtpPacket)
  | done (queued : Bool)
  deriving DecidableEq, Repr

/-- Where the call of `sendAudioPacket` stands. -/
inductive AudioProducer where
  | check (a : AudioArgs)
  -- the lock is released; the sequence number is not taken yet
  | stamp (a : AudioArgs) (peer : PeerId)
  | enqueue (e : Enqueuing)
  | ret (code : Int)
  deriving DecidableEq, Repr

/-- Where a run of `flushAudioConnectionBuffer` stands; `rest` is what it copied and has not sent. -/
inductive AudioFlush where
  | take
  | enqueue (e : Enqueuing) (rest : List RtpPacket)
  | done
  deriving DecidableEq, Repr

/-- What the threads share, and where they stand.  `entered` and `evictions` are history: the numbers of the packets
that entered the send queue, in order, and of those evicted, each with that of the packet it made room for. -/
structure AudioLine where
  peer : Option PeerId
  connectionState : PeerConnectionState := .new
  next : Nat := 0
  audioConnectionBuffer : List RtpPacket := []
  audioSendQueue : List RtpPacket := []
  producer : Option AudioProducer := none
  flushes : List AudioFlush := []
  entered : List Nat := []
  evictions : List (Nat × Nat) := []
  deriving DecidableEq, Repr

namespace AudioLine

def enter (s : AudioLine) (p : RtpPacket) : AudioLine :=
  { s with audioSendQueue := s.audioSendQueue ++ [p], entered := s.entered ++ [p.sequence] }

def evict (s : AudioLine) (p : RtpPacket) : AudioLine :=
  { s with
    audioSendQueue := s.audioSendQueue.tail
    evictions := (s.audioSendQueue.head?.map fun stale => (stale.sequence, p.sequence)).toList ++ s.evictions }

/-- There is room in the send queue. -/
def HasRoom (s : AudioLine) : Prop := s.audioSendQueue.length < audioQueueCapacity

instance (s : AudioLine) : Decidable s.HasRoom := inferInstanceAs (Decidable (_ < _))

/-- While the connection is being established the packets are kept, the latest ones. -/
def buffer (s : AudioLine) (p : RtpPacket) : AudioLine :=
  { s with
    next := s.next + 1
    audioConnectionBuffer :=
      (if s.audioConnectionBuffer.length < maxAudioBufferSize then s.audioConnectionBuffer
        else s.audioConnectionBuffer.tail) ++ [p] }

end AudioLine

def Enqueuing.step (s : AudioLine) : Enqueuing → Enqueuing × AudioLine
  | .push p => if s.HasRoom then (.done true, s.enter p) else (.evictStale p, s)
  | .evictStale p => (.pushAgain p, s.evict p)
  | .pushAgain p => if s.HasRoom then (.done true, s.enter p) else (.done false, s)
  | .done queued => (.done queued, s)

def AudioProducer.step (s : AudioLine) : AudioProducer → AudioProducer × AudioLine
  | .check a =>
    if !a.data || a.size ≤ 0 then (.ret (-2), s)
    else
      match s.peer with
      | none => (.ret (-1), s)
      | some peer =>
        if s.connectionState ≠ .connected then (.ret 0, s.buffer ⟨s.next, a.size, a.pts, peer⟩)
        else (.stamp a peer, s)
  | .stamp a peer => (.enqueue (.push ⟨s.next, a.size, a.pts, peer⟩), { s with next := s.next + 1 })
  | .enqueue (.done queued) => (.ret (if queued then 0 else -1), s)
  | .enqueue e => (.enqueue (e.step s).1, (e.step s).2)
  | .ret code => (.ret code, s)

def AudioFlush.step (s : AudioLine) : AudioFlush → AudioFlush × AudioLine
  | .take =>
    match s.audioConnectionBuffer with
    | [] => (.done, s)
    | p :: rest => (.enqueue (.push p) rest, { s with audioConnectionBuffer := [] })
  | .enqueue (.done _) [] => (.done, s)
  | .enqueue (.done _) (p :: rest) => (.enqueue (.push p) rest, s)
  | .enqueue e rest => (.enqueue (e.step s).1 rest, (e.step s).2)
  | .done => (.done, s)

inductive AudioMove where
  | send (a : AudioArgs)
  | produce
  -- `OnConnectionStateChange`
  | connection (state : PeerConnectionState)
  | flush (i : Nat)
  | receive
  deriving DecidableEq, Repr

namespace AudioLine

def step (s : AudioLine) : AudioMove → Option AudioLine
  | .send a => if s.producer = none then some { s with producer := some (.check a) } else none
  | .produce =>
    match s.producer with
    | none => none
    | some (.ret _) => some { s with producer := none }
    | some c => some { (c.step s).2 with producer := some (c.step s).1 }
  | .connection state =>
    some { s with
      connectionState := state
      flushes := if state = .connected then s.flushes ++ [.take] else s.flushes }
  | .flush i => s.flushes[i]?.map fun f => { (f.step s).2 with flushes := s.flushes.set i (f.step s).1 }
  | .receive =>
    match s.audioSendQueue with
    | [] => none
    | _ :: rest => some { s with audioSendQueue := rest }

/-- A peer generation begins: nothing is buffered, queued or in hand. -/
def start (peer : Option PeerId) (state : PeerConnectionState) (next : Nat) : AudioLine :=
  { peer, connectionState := state, next }

end AudioLine

/-! ## What waits -/

/-- The packet a call of `enqueueLatestAudioPacket` still holds. -/
def Enqueuing.held : Enqueuing → List RtpPacket
  | .push p | .evictStale p | .pushAgain p => [p]
  | .done _ => []

/-- The call without the numbers. -/
def Enqueuing.forget : Enqueuing → Enqueue
  | .push p => .push p.packet
  | .evictStale p => .evictStale p.packet
  | .pushAgain p => .pushAgain p.packet
  | .done queued => .done queued

def AudioProducer.held : AudioProducer → List RtpPacket
  | .enqueue e => e.held
  | _ => []

def AudioFlush.held : AudioFlush → List RtpPacket
  | .enqueue e rest => e.held ++ rest
  | _ => []

/-- The packet that the next step puts into the send queue. -/
def Enqueuing.pushing (s : AudioLine) : Enqueuing → Option RtpPacket
  | .push p | .pushAgain p => if s.HasRoom then some p else none
  | _ => none

namespace AudioLine

/-- The packets the producer has in hand. -/
def inCall (s : AudioLine) : List RtpPacket := (s.producer.map (·.held)).getD []

/-- The packets submitted that have not entered the send queue and may still do. -/
def waiting (s : AudioLine) : List RtpPacket := s.audioConnectionBuffer ++ s.flushes.flatMap (·.held) ++ s.inCall

/-- The packet that a move puts into the send queue. -/
def pushing (s : AudioLine) : AudioMove → Option RtpPacket
  | .produce =>
    match s.producer with
    | some (.enqueue e) => e.pushing s
    | _ => none
  | .flush i =>
    match s.flushes[i]? with
    | some (.enqueue e _) => e.pushing s
    | _ => none
  | _ => none

/-- **Packets enter in the order of their submission, and none is evicted for an earlier one.** -/
def InOrder (s : AudioLine) : Prop := s.entered.Pairwise (· < ·) ∧ ∀ e ∈ s.evictions, e.1 < e.2

instance decidableInOrder (s : AudioLine) : Decidable s.InOrder := inferInstanceAs (Decidable (_ ∧ _))

/-- A packet enters the queue only when none that was submitted before it waits. -/
def Orderly (s : AudioLine) (m : AudioMove) : Prop := ∀ p ∈ s.pushing m, ∀ q ∈ s.waiting, p.sequence ≤ q.sequence

instance decidableOrderly (s : AudioLine) (m : AudioMove) : Decidable (s.Orderly m) :=
  inferInstanceAs (Decidable (∀ p ∈ s.pushing m, ∀ q ∈ s.waiting, _))

/-! ## The numbers in the headers, and the packets without them -/

/-- **The header of a packet bears its number in 16 bits**: the counter wraps in 32. -/
theorem getNextSequence_sequenceNumber (t : AudioClock.AudioRTPState) (p : RtpPacket)
    (h : t.sequence.toNat = p.sequence % 2 ^ 32) :
    t.getNextSequence.1.toNat = p.sequenceNumber ∧ t.getNextSequence.2.sequence.toNat = (p.sequence + 1) % 2 ^ 32 := by
  have hnext : (t.sequence + 1).toNat = (t.sequence.toNat + 1) % 2 ^ 32 := UInt32.toNat_add ..
  have hheader : t.getNextSequence.1 = t.sequence.toUInt16 := by
    change (t.sequence + 1 - 1).toUInt16 = _
    rw [UInt32.add_sub_cancel]
  refine ⟨?_, ?_⟩
  · rw [hheader, UInt32.toNat_toUInt16, RtpPacket.sequenceNumber, h]
    omega
  · change (t.sequence + 1).toNat = _
    omega

/-- **Without the numbers a step is that of the call in the rest of the layer.** -/
theorem forget_step (e : Enqueuing) {s : AudioLine} {g : Globals}
    (hg : g.audioSendQueue = s.audioSendQueue.map (·.packet)) :
    (e.step s).1.forget = (e.forget.step g).1 ∧
      (e.step s).2.audioSendQueue.map (·.packet) = (e.forget.step g).2.audioSendQueue := by
  have hroom : s.HasRoom ↔ g.audioSendQueue.length < audioQueueCapacity := by rw [hg, List.length_map]; rfl
  cases e with
  | push p =>
    by_cases hr : s.HasRoom
    · simp only [Enqueuing.step, Enqueuing.forget, Enqueue.step, if_pos hr, if_pos (hroom.1 hr)]
      simp [enter, Globals.pushAudio, hg]
    · simp only [Enqueuing.step, Enqueuing.forget, Enqueue.step, if_neg hr, if_neg (mt hroom.2 hr)]
      simp [hg]
  | evictStale p => exact ⟨rfl, by simp [Enqueuing.step, Enqueuing.forget, Enqueue.step, evict, hg]⟩
  | pushAgain p =>
    by_cases hr : s.HasRoom
    · simp only [Enqueuing.step, Enqueuing.forget, Enqueue.step, if_pos hr, if_pos (hroom.1 hr)]
      simp [enter, Globals.pushAudio, hg]
    · simp only [Enqueuing.step, Enqueuing.forget, Enqueue.step, if_neg hr, if_neg (mt hroom.2 hr)]
      simp [hg]
  | done queued => exact ⟨rfl, hg.symm⟩

/-! ## What a move does -/

/-- What a move does to the packets: nothing new, a packet made, one entering the queue, or one evicted. -/
inductive Effect (s : AudioLine) (m : AudioMove) (s' : AudioLine) : Prop where
  | quiet (hw : s'.waiting.Subperm s.waiting) (hn : s'.next = s.next) (he : s'.entered = s.entered)
      (hv : s'.evictions = s.evictions) (hq : s'.audioSendQueue ⊆ s.audioSendQueue)
  | makes (p : RtpPacket) (hp : p.sequence = s.next) (hw : s'.waiting.Subperm (p :: s.waiting)) (hn : s'.next = s.next + 1)
      (he : s'.entered = s.entered) (hv : s'.evictions = s.evictions) (hq : s'.audioSendQueue ⊆ s.audioSendQueue)
  | enters (p : RtpPacket) (hp : s.pushing m = some p) (hw : (p :: s'.waiting).Subperm s.waiting) (hn : s'.next = s.next)
      (he : s'.entered = s.entered ++ [p.sequence]) (hv : s'.evictions = s.evictions)
      (hq : s'.audioSendQueue = s.audioSendQueue ++ [p])
  | evicts (p : RtpPacket) (hp : p ∈ s.waiting) (hw : s'.waiting.Subperm s.waiting) (hn : s'.next = s.next)
      (he : s'.entered = s.entered)
      (hv : s'.evictions = (s.audioSendQueue.head?.map fun stale => (stale.sequence, p.sequence)).toList ++ s.evictions)
      (hq : s'.audioSendQueue = s.audioSendQueue.tail)

variable {s s' : AudioLine} {m : AudioMove}

/-- A step of `enqueueLatestAudioPacket`, among the packets `W` that wait elsewhere. -/
theorem effect_enqueuing {e : Enqueuing} {W : List RtpPacket} (hpush : s.pushing m = e.pushing s)
    (hw : s.waiting.Perm (e.held ++ W)) (hw' : s'.waiting.Perm ((e.step s).1.held ++ W))
    (hn : s'.next = s.next) (he : s'.entered = (e.step s).2.entered) (hv : s'.evictions = (e.step s).2.evictions)
    (hq : s'.audioSendQueue = (e.step s).2.audioSendQueue) : Effect s m s' := by
  have enters : ∀ p, e.held = [p] → e.pushing s = some p → e.step s = (.done true, s.enter p) → Effect s m s' := by
    intro p hh hp hs
    rw [hs] at he hv hq hw'
    exact .enters p (hpush.trans hp) ((hw'.cons p).trans (by rw [hh] at hw; exact hw.symm)).subperm hn he hv hq
  have quiet : ∀ e', e'.held.Sublist e.held → e.step s = (e', s) → Effect s m s' := by
    intro e' hh hs
    rw [hs] at he hv hq hw'
    exact .quiet ((hw'.subperm.trans (hh.append_right W).subperm).trans hw.symm.subperm) hn he hv (hq ▸ List.Subset.refl _)
  cases e with
  | push p =>
    by_cases hr : s.HasRoom
    · exact enters p rfl (if_pos hr) (if_pos hr)
    · exact quiet (.evictStale p) (List.Sublist.refl _) (if_neg hr)
  | evictStale p =>
    exact .evicts p (hw.symm.subset List.mem_cons_self) (hw'.trans hw.symm).subperm hn he hv hq
  | pushAgain p =>
    by_cases hr : s.HasRoom
    · exact enters p rfl (if_pos hr) (if_pos hr)
    · exact quiet (.done false) (List.nil_sublist _) (if_neg hr)
  | done queued => exact quiet (.done queued) (List.Sublist.refl _) rfl

theorem effect_same (hw : s'.waiting.Subperm s.waiting) (hn : s'.next = s.next) (he : s'.entered = s.entered)
    (hv : s'.evictions = s.evictions) (hq : s'.audioSendQueue = s.audioSendQueue) : Effect s m s' :=
  .quiet hw hn he hv (hq ▸ List.Subset.refl _)

/-- The producer's packets wait behind those of the buffer and of the flushes. -/
theorem waiting_producer (c : AudioProducer) (t : AudioLine) (hb : t.audioConnectionBuffer = s.audioConnectionBuffer)
    (hf : t.flushes = s.flushes) : ({ t with producer := some c } : AudioLine).waiting =
      s.audioConnectionBuffer ++ s.flushes.flatMap (·.held) ++ c.held := by
  unfold waiting inCall
  simp only [hb, hf, Option.map_some, Option.getD_some]

/-- What `enqueueLatestAudioPacket` leaves alone. -/
theorem enqueuing_shared (e : Enqueuing) (s : AudioLine) : (e.step s).2.next = s.next ∧
    (e.step s).2.audioConnectionBuffer = s.audioConnectionBuffer ∧ (e.step s).2.flushes = s.flushes := by
  cases e with
  | push p => simp only [Enqueuing.step]; split <;> exact ⟨rfl, rfl, rfl⟩
  | pushAgain p => simp only [Enqueuing.step]; split <;> exact ⟨rfl, rfl, rfl⟩
  | evictStale p => exact ⟨rfl, rfl, rfl⟩
  | done queued => exact ⟨rfl, rfl, rfl⟩

/-- A packet more is buffered, and the oldest may be given up for it. -/
theorem buffered_subperm (buffer flushed : List RtpPacket) (p : RtpPacket) :
    (((if buffer.length < maxAudioBufferSize then buffer else buffer.tail) ++ [p]) ++ flushed ++ []).Subperm
      (p :: (buffer ++ flushed ++ [])) := by
  have hsub : (if buffer.length < maxAudioBufferSize then buffer else buffer.tail).Sublist buffer := by
    split
    · exact List.Sublist.refl _
    · exact List.tail_sublist buffer
  have hperm : (p :: (buffer ++ flushed ++ [])).Perm (buffer ++ [p] ++ flushed ++ []) := by
    have hmiddle : (buffer ++ p :: flushed).Perm (p :: (buffer ++ flushed)) := List.perm_middle
    simpa using hmiddle.symm
  exact ((((hsub.append_right [p]).append_right flushed).append_right []).subperm).trans hperm.symm.subperm

theorem effect_produce (hs : s.step .produce = some s') : Effect s .produce s' := by
  simp only [step] at hs
  cases hp : s.producer with
  | none => rw [hp] at hs; cases hs
  | some c =>
    rw [hp] at hs
    have hwait : s.waiting = s.audioConnectionBuffer ++ s.flushes.flatMap (·.held) ++ c.held := by
      simp [waiting, inCall, hp]
    cases c with
    | ret code =>
      obtain rfl := Option.some.inj hs
      exact effect_same (by rw [hwait]; exact List.Subperm.refl _) rfl rfl rfl rfl
    | stamp a peer =>
      obtain rfl := Option.some.inj hs
      refine .makes ⟨s.next, a.size, a.pts, peer⟩ rfl ?_ rfl rfl rfl (List.Subset.refl _)
      rw [waiting_producer _ _ rfl rfl, hwait]
      simp only [AudioProducer.step, AudioProducer.held, Enqueuing.held, List.append_nil]
      exact List.perm_append_comm.subperm
    | check a =>
      obtain rfl := Option.some.inj hs
      simp only [AudioProducer.step]
      split
      · exact effect_same (by rw [waiting_producer _ _ rfl rfl, hwait]; exact List.Subperm.refl _) rfl rfl rfl rfl
      · cases hpeer : s.peer with
        | none =>
          exact effect_same (by rw [waiting_producer _ _ rfl rfl, hwait]; exact List.Subperm.refl _) rfl rfl rfl rfl
        | some peer =>
          dsimp only
          split
          · refine .makes ⟨s.next, a.size, a.pts, peer⟩ rfl ?_ rfl rfl rfl (List.Subset.refl _)
            rw [waiting_producer _ _ rfl rfl, hwait]
            exact (buffered_subperm s.audioConnectionBuffer _ _).trans (List.Subperm.refl _)
          · exact effect_same (by rw [waiting_producer _ _ rfl rfl, hwait]; exact List.Subperm.refl _) rfl rfl rfl rfl
    | enqueue e =>
      have hW : s.waiting.Perm (e.held ++ (s.audioConnectionBuffer ++ s.flushes.flatMap (·.held))) := by
        rw [hwait]
        exact List.perm_append_comm
      by_cases hd : ∃ queued, e = .done queued
      · obtain ⟨queued, rfl⟩ := hd
        obtain rfl := Option.some.inj hs
        exact effect_same (by rw [waiting_producer _ _ rfl rfl, hwait]; exact List.Subperm.refl _) rfl rfl rfl rfl
      · obtain rfl : s' = { (e.step s).2 with producer := some (.enqueue (e.step s).1) } := by
          cases e with
          | done queued => exact absurd ⟨queued, rfl⟩ hd
          | _ => exact (Option.some.inj hs).symm
        refine effect_enqueuing (by simp only [pushing, hp]) hW ?_ (enqueuing_shared e s).1 rfl rfl rfl
        rw [waiting_producer _ _ (enqueuing_shared e s).2.1 (enqueuing_shared e s).2.2]
        exact List.perm_append_comm

/-- One entry of a list apart from the others, whatever is put in its place. -/
theorem flatMap_set_perm {α β : Type} (g : α → List β) {a : α} : ∀ {l : List α} {i : Nat}, l[i]? = some a →
    ∃ others, (l.flatMap g).Perm (g a ++ others) ∧ ∀ b, ((l.set i b).flatMap g).Perm (g b ++ others)
  | [], i, h => by cases h
  | x :: l, 0, h => by
    obtain rfl := Option.some.inj h
    exact ⟨l.flatMap g, .refl _, fun b => .refl _⟩
  | x :: l, i + 1, h => by
    obtain ⟨others, hl, hset⟩ := flatMap_set_perm g (l := l) (i := i) (by simpa using h)
    have hswap : ∀ ys, (g x ++ (ys ++ others)).Perm (ys ++ (g x ++ others)) := fun ys => by
      rw [← List.append_assoc, ← List.append_assoc]
      exact List.perm_append_comm.append_right others
    refine ⟨g x ++ others, ?_, fun b => ?_⟩
    · rw [List.flatMap_cons]
      exact (hl.append_left (g x)).trans (hswap (g a))
    · rw [List.set_cons_succ, List.flatMap_cons]
      exact ((hset b).append_left (g x)).trans (hswap (g b))

/-- What waits, with the packets of one flush in front. -/
theorem waiting_flush {f : AudioFlush} {i : Nat} (hf : s.flushes[i]? = some f) : ∃ others,
    s.waiting.Perm (f.held ++ (s.audioConnectionBuffer ++ others)) ∧
      ∀ (t : AudioLine) (f' : AudioFlush), t.producer = s.producer →
        ({ t with flushes := s.flushes.set i f' } : AudioLine).waiting.Perm
          (f'.held ++ (t.audioConnectionBuffer ++ others)) := by
  obtain ⟨others, hl, hset⟩ := flatMap_set_perm AudioFlush.held hf
  have hfront : ∀ buffer ys calls : List RtpPacket,
      (buffer ++ (ys ++ others) ++ calls).Perm (ys ++ (buffer ++ (others ++ calls))) := fun buffer ys calls => by
    have hswap : (buffer ++ ys).Perm (ys ++ buffer) := List.perm_append_comm
    simpa [List.append_assoc] using hswap.append_right (others ++ calls)
  refine ⟨others ++ s.inCall, ?_, fun t f' hp => ?_⟩
  · exact ((hl.append_left _).append_right _).trans (hfront _ _ _)
  · have hcall : ({ t with flushes := s.flushes.set i f' } : AudioLine).inCall = s.inCall := by
      unfold inCall
      rw [hp]
    unfold waiting
    rw [hcall]
    exact (((hset f').append_left _).append_right _).trans (hfront _ _ _)

theorem effect_flush {i : Nat} (hs : s.step (.flush i) = some s') : Effect s (.flush i) s' := by
  obtain ⟨f, hf, rfl⟩ := Option.map_eq_some_iff.1 hs
  obtain ⟨others, hw, hw'⟩ := waiting_flush hf
  cases f with
  | done => exact effect_same ((hw' s .done rfl).trans hw.symm).subperm rfl rfl rfl rfl
  | take =>
    simp only [AudioFlush.step]
    cases hb : s.audioConnectionBuffer with
    | nil => exact effect_same ((hw' s .done rfl).trans hw.symm).subperm rfl rfl rfl rfl
    | cons p rest =>
      rw [hb] at hw
      exact effect_same ((hw' { s with audioConnectionBuffer := [] } (.enqueue (.push p) rest) rfl).trans hw.symm).subperm
        rfl rfl rfl rfl
  | enqueue e rest =>
    by_cases hd : ∃ queued, e = .done queued
    · obtain ⟨queued, rfl⟩ := hd
      cases rest with
      | nil => exact effect_same ((hw' s .done rfl).trans hw.symm).subperm rfl rfl rfl rfl
      | cons p rest => exact effect_same ((hw' s (.enqueue (.push p) rest) rfl).trans hw.symm).subperm rfl rfl rfl rfl
    · have hstep : AudioFlush.step s (.enqueue e rest) = (.enqueue (e.step s).1 rest, (e.step s).2) := by
        cases e with
        | done queued => exact absurd ⟨queued, rfl⟩ hd
        | _ => rfl
      rw [hstep]
      obtain ⟨hnext, hbuffer, -⟩ := enqueuing_shared e s
      have hproducer : (e.step s).2.producer = s.producer := by
        cases e with
        | push p => simp only [Enqueuing.step]; split <;> rfl
        | pushAgain p => simp only [Enqueuing.step]; split <;> rfl
        | _ => rfl
      have hw'' := hw' (e.step s).2 (.enqueue (e.step s).1 rest) hproducer
      refine effect_enqueuing (W := rest ++ (s.audioConnectionBuffer ++ others)) (by simp only [pushing, hf]) ?_ ?_ hnext
        rfl rfl rfl
      · rw [← List.append_assoc]
        exact hw
      · rw [← List.append_assoc]
        exact hw''.trans (by rw [hbuffer]; exact .refl _)

/-- **What a move can do.** -/
theorem effect_of_step (hs : s.step m = some s') : Effect s m s' := by
  cases m with
  | produce => exact effect_produce hs
  | flush i => exact effect_flush hs
  | send a =>
    simp only [step] at hs
    split at hs
    · rename_i hp
      obtain rfl := Option.some.inj hs
      refine effect_same ?_ rfl rfl rfl rfl
      rw [waiting_producer _ _ rfl rfl]
      unfold waiting inCall
      rw [hp]
      exact List.Subperm.refl _
    · cases hs
  | connection state =>
    obtain rfl := Option.some.inj hs
    refine effect_same ?_ rfl rfl rfl rfl
    unfold waiting
    dsimp only
    split
    · rw [List.flatMap_append]
      simp only [List.flatMap_cons, List.flatMap_nil, AudioFlush.held, List.append_nil]
      exact List.Subperm.refl _
    · exact List.Subperm.refl _
  | receive =>
    simp only [step] at hs
    split at hs
    · cases hs
    · rename_i p rest hq
      obtain rfl := Option.some.inj hs
      exact .quiet (List.Subperm.refl _) rfl rfl rfl (by rw [hq]; exact List.subset_cons_self p rest)

/-! ## Runs -/

/-- What holds in every state of a run that lets no packet past an earlier one. -/
structure Lined (s : AudioLine) : Prop where
  inOrder : s.InOrder
  queued : ∀ p ∈ s.audioSendQueue, p.sequence ∈ s.entered
  before : ∀ n ∈ s.entered, ∀ q ∈ s.waiting, n < q.sequence
  nodup : (s.waiting.map (·.sequence)).Nodup
  issued : (∀ n ∈ s.entered, n < s.next) ∧ ∀ q ∈ s.waiting, q.sequence < s.next

theorem lined_start (peer : Option PeerId) (state : PeerConnectionState) (next : Nat) :
    (start peer state next).Lined where
  inOrder := ⟨.nil, fun _ h => by cases h⟩
  queued := fun _ h => by cases h
  before := fun _ h => by cases h
  nodup := .nil
  issued := ⟨fun _ h => (by cases h), fun _ h => (by cases h)⟩

theorem nodup_of_subperm {xs ys : List RtpPacket} (h : xs.Subperm ys) (hn : (ys.map (·.sequence)).Nodup) :
    (xs.map (·.sequence)).Nodup := by
  obtain ⟨l, hl, hsub⟩ := h
  exact (hl.map _).nodup_iff.1 (hn.sublist (hsub.map _))

theorem lined_step (h : s.Lined) (hm : s.Orderly m) (hs : s.step m = some s') : s'.Lined := by
  obtain ⟨⟨hsorted, hevictions⟩, hqueued, hbefore, hnodup, hentered, hwaiting⟩ := h
  cases effect_of_step hs with
  | quiet hw hn he hv hq =>
    refine ⟨⟨he ▸ hsorted, hv ▸ hevictions⟩, ?_, ?_, nodup_of_subperm hw hnodup, ?_, ?_⟩
    · rw [he]
      exact fun p hp => hqueued p (hq hp)
    · rw [he]
      exact fun n hn q hq => hbefore n hn q (hw.subset hq)
    · rw [he, hn]
      exact hentered
    · rw [hn]
      exact fun q hq => hwaiting q (hw.subset hq)
  | makes p hp hw hn he hv hq =>
    refine ⟨⟨he ▸ hsorted, hv ▸ hevictions⟩, ?_, ?_, nodup_of_subperm hw ?_, ?_, ?_⟩
    · rw [he]
      exact fun p hp => hqueued p (hq hp)
    · rw [he]
      intro n hn q hq
      rcases List.mem_cons.1 (hw.subset hq) with rfl | hq
      · rw [hp]
        exact hentered n hn
      · exact hbefore n hn q hq
    · refine List.nodup_cons.2 ⟨fun hmem => ?_, hnodup⟩
      obtain ⟨q, hq, heq⟩ := List.mem_map.1 hmem
      have hlt : q.sequence < s.next := hwaiting q hq
      have hsame : q.sequence = p.sequence := heq
      omega
    · rw [he, hn]
      exact fun n hn => Nat.lt_succ_of_lt (hentered n hn)
    · rw [hn]
      intro q hq
      rcases List.mem_cons.1 (hw.subset hq) with rfl | hq
      · omega
      · exact Nat.lt_succ_of_lt (hwaiting q hq)
  | enters p hp hw hn he hv hq =>
    have hin : p ∈ s.waiting := hw.subset List.mem_cons_self
    have hrest : ∀ q ∈ s'.waiting, p.sequence < q.sequence := by
      intro q hq
      have hle := hm p hp q (hw.subset (List.mem_cons_of_mem p hq))
      have hne : q.sequence ≠ p.sequence := fun heq =>
        (List.nodup_cons.1 (nodup_of_subperm hw hnodup)).1 (List.mem_map.2 ⟨q, hq, heq⟩)
      omega
    refine ⟨⟨?_, hv ▸ hevictions⟩, ?_, ?_, ?_, ?_, ?_⟩
    · rw [he]
      refine List.pairwise_append.2 ⟨hsorted, List.pairwise_singleton _ _, fun n hn k hk => ?_⟩
      rw [List.mem_singleton.1 hk]
      exact hbefore n hn p hin
    · rw [he, hq]
      intro q hq
      rcases List.mem_append.1 hq with hq | hq
      · exact List.mem_append_left _ (hqueued q hq)
      · rw [List.mem_singleton.1 hq]
        exact List.mem_append_right _ List.mem_cons_self
    · rw [he]
      intro n hn q hq
      rcases List.mem_append.1 hn with hn | hn
      · exact hbefore n hn q (hw.subset (List.mem_cons_of_mem p hq))
      · rw [List.mem_singleton.1 hn]
        exact hrest q hq
    · exact (List.nodup_cons.1 (nodup_of_subperm hw hnodup)).2
    · rw [he, hn]
      intro n hn
      rcases List.mem_append.1 hn with hn | hn
      · exact hentered n hn
      · rw [List.mem_singleton.1 hn]
        exact hwaiting p hin
    · rw [hn]
      exact fun q hq => hwaiting q (hw.subset (List.mem_cons_of_mem p hq))
  | evicts p hp hw hn he hv hq =>
    refine ⟨⟨he ▸ hsorted, ?_⟩, ?_, ?_, nodup_of_subperm hw hnodup, ?_, ?_⟩
    · rw [hv]
      intro e hmem
      rcases List.mem_append.1 hmem with hmem | hmem
      · obtain ⟨stale, hstale, rfl⟩ := Option.map_eq_some_iff.1 (Option.mem_toList.1 hmem)
        exact hbefore stale.sequence (hqueued stale (List.mem_of_head? hstale)) p hp
      · exact hevictions e hmem
    · rw [he, hq]
      exact fun q hq => hqueued q (List.mem_of_mem_tail hq)
    · rw [he]
      exact fun n hn q hq => hbefore n hn q (hw.subset hq)
    · rw [he, hn]
      exact hentered
    · rw [hn]
      exact fun q hq => hwaiting q (hw.subset hq)

/-- **Packets enter in order, and none is evicted for an earlier one, in every run in which a packet enters only when
none submitted before it waits.** -/
theorem audio_inOrder (peer : Option PeerId) (state : PeerConnectionState) (next : Nat) (moves : List AudioMove)
    (h : Along step Orderly (start peer state next) moves) :
    Throughout step InOrder (start peer state next) moves :=
  (Throughout.of_along (fun _ _ _ hl hm hs => lined_step hl hm hs) (lined_start peer state next) h).mono
    fun _ hl => hl.inOrder

def audioFrame : AudioArgs := ⟨true, 120, 10000⟩

/-- A packet is buffered, the peer connects, the buffer is flushed, and a live packet follows. -/
theorem audio_inOrder_flush : Throughout step InOrder (start (some 0) .new 0)
    ([.send audioFrame, .produce, .produce, .connection .connected] ++ List.replicate 3 (.flush 0) ++
      [.send audioFrame] ++ List.replicate 5 .produce) :=
  audio_inOrder (some 0) .new 0 _ (by decide)

/-- A packet is buffered, the peer connects, and three live packets are sent before the flush begins. -/
def liveFirst : List AudioMove :=
  [.send audioFrame, .produce, .produce, .connection .connected] ++
    (List.replicate 3 (.send audioFrame :: List.replicate 5 .produce)).flatten ++ List.replicate 4 (.flush 0)

/-- **What was buffered enters after the live packets, and evicts one of them.** -/
theorem not_audio_inOrder : ¬ ∀ peer state next moves, Throughout step InOrder (start peer state next) moves := by
  intro h
  obtain ⟨t, ht, hn⟩ : ∃ t ∈ after step (start (some 0) .new 0) liveFirst,
      ¬t.entered.Pairwise (· < ·) ∧ ¬∀ e ∈ t.evictions, e.1 < e.2 := by decide
  exact hn.1 ((h _ _ _ liveFirst).after ht).1

end AudioLine

end GoMedia
end Host
end CloudGaming
