import CloudGaming.Async.Along
import CloudGaming.Async.Ledger
import CloudGaming.Host.GoMedia
/-!
# VideoLine — one producer and the video sender, within one peer generation

`sendVideoSample` is called by one thread, one call after another, and the sender goroutine runs beside it; no peer
connection is made or closed.  The samples handed over, held by the sender and queued form a ledger (`Line.ledger`):
each move is one entry in it, or none (`entry_of_step`).
-/
namespace CloudGaming
namespace Host
namespace GoMedia

open Async

/-! ## The two threads -/

structure Line where
  g : Globals
  producer : Option VideoCall := none
  sender : VideoSender := .idle

inductive LineMove where
  | send (a : VideoArgs)
  | produce
  | consume
  -- a callback of the peer connection
  | state (state : PeerConnectionState)

def Line.step (s : Line) : LineMove → Option Line
  | .send a => if s.producer = none then some { s with producer := some (.check a) } else none
  | .produce =>
    match s.producer with
    | none => none
    | some (.ret _) => some { s with producer := none }
    | some c => some { s with producer := some (c.step s.g).1, g := (c.step s.g).2 }
  | .consume => (s.sender.step s.g).map fun r => { s with sender := r.1, g := r.2 }
  | .state state => some { s with g := { s.g with connectionState := state } }

/-- A peer generation begins: nothing queued, nothing counted. -/
def Line.start (g : Globals) : Line where
  g := { g with
    videoPendingDrops := 0
    videoSendQueue := []
    accepted := 0
    dropped := []
    returned := []
    videoWritten := [] }

/-! ## The ledger -/

/-- What the sender holds before it hands it to the track. -/
def VideoSender.held : VideoSender → List QueuedVideoSample
  | .testGeneration queued | .loadTrack queued | .write queued _ => [queued]
  | _ => []

/-- What the sender is done with but for the buffer. -/
def VideoSender.unreturned : VideoSender → List Nat
  | .putBuf queued => [queued.id]
  | _ => []

def QueuedVideoSample.ticket (q : QueuedVideoSample) : Ticket := ⟨q.id, q.prevDroppedPackets⟩

namespace VideoCall

/-- The sample a call submits, once it is accepted and until it is queued or given up. -/
def fresh : VideoCall → Option Nat
  | .loadGeneration _ _ id _ => some id
  | .push queued | .receiveOldest queued | .pushReplacement queued | .pushBack queued _ => some queued.id
  | _ => none

/-- The keyframe it has taken out of the queue. -/
def taken : VideoCall → Option Ticket
  | .pushBack _ oldest => some oldest.ticket
  | _ => none

/-- The drops it has to pass on. -/
def carried : VideoCall → Nat
  | .loadGeneration _ _ _ droppedBefore => droppedBefore
  | .push queued | .receiveOldest queued | .pushReplacement queued | .pushBack queued _ => queued.prevDroppedPackets
  | .loadPending count | .casPending count _ => count
  | _ => 0

/-- It has passed the connection check and is not over. -/
def isUnderway : VideoCall → Bool
  | .check _ | .ret _ => false
  | _ => true

/-- The place in the queue it has made by taking a sample out. -/
def room : VideoCall → Nat
  | .pushBack .. | .pushReplacement _ => 1
  | _ => 0

@[simp] theorem fresh_ret (code : Int) : (ret code).fresh = none := rfl

@[simp] theorem taken_ret (code : Int) : (ret code).taken = none := rfl

@[simp] theorem carried_ret (code : Int) : (ret code).carried = 0 := rfl

end VideoCall

namespace Line

variable (s : Line)

def call : VideoCall := s.producer.getD (.ret 0)

/-- The samples handed to the track, in order. -/
def handed : List QueuedVideoSample := s.g.videoWritten.map (·.2)

/-- The samples handed to the sender. -/
def received : List QueuedVideoSample := s.handed ++ s.sender.held

def samples : List QueuedVideoSample := s.received ++ s.g.videoSendQueue

def ledger : Ledger where
  line := s.samples.map (·.ticket)
  taken := s.call.taken
  fresh := s.call.fresh
  carried := s.call.carried
  pending := s.g.videoPendingDrops
  issued := s.g.accepted
  dropped := s.g.dropped

/-- What holds within a peer generation: the queue stays within its capacity, every sample bears the generation, and
the track is there. -/
structure Inv : Prop where
  capacity : s.g.videoSendQueue.length + s.call.room ≤ videoQueueCapacity
  generation : ∀ q ∈ s.sender.held ++ s.g.videoSendQueue ++ s.call.samples, q.generation = s.g.peerGeneration
  track : s.call.isUnderway ∨ s.sender.held ++ s.g.videoSendQueue ≠ [] → s.g.videoTrack ≠ none
  writes : ∀ q track, s.sender = .write q track → track ≠ none
  pending : s.g.videoPendingDrops ≤ 65535
  carried : ∀ a peer id d, s.call = .loadGeneration a peer id d → d ≤ 65535

end Line

/-! ## Steps -/

namespace Line

variable {s s' : Line} {m : LineMove}

@[simp] theorem call_mk (g : Globals) (c : VideoCall) (v : VideoSender) : (Line.mk g (some c) v).call = c := rfl

@[simp] theorem call_none (g : Globals) (v : VideoSender) : (Line.mk g none v).call = .ret 0 := rfl

theorem step_send {a : VideoArgs} (hs : s.step (.send a) = some s') :
    s.producer = none ∧ s' = { s with producer := some (.check a) } := by
  simp only [step] at hs
  split at hs
  · rename_i h; exact ⟨h, (Option.some.inj hs).symm⟩
  · cases hs

/-- A call ends, or makes its next step. -/
theorem step_produce (hs : s.step .produce = some s') :
    (∃ code, s.producer = some (.ret code) ∧ s' = { s with producer := none }) ∨
    ∃ c, s.producer = some c ∧ (∀ code, c ≠ .ret code) ∧
      s' = { s with producer := some (c.step s.g).1, g := (c.step s.g).2 } := by
  simp only [step] at hs
  split at hs
  · cases hs
  · rename_i code h; exact .inl ⟨code, h, (Option.some.inj hs).symm⟩
  · rename_i c hne h; exact .inr ⟨c, h, fun code he => hne code he, (Option.some.inj hs).symm⟩

theorem step_consume (hs : s.step .consume = some s') :
    ∃ v g, s.sender.step s.g = some (v, g) ∧ s' = { s with sender := v, g := g } := by
  obtain ⟨⟨v, g⟩, hr, rfl⟩ := Option.map_eq_some_iff.1 hs
  exact ⟨v, g, hr, rfl⟩

theorem inv_start (g : Globals) : (start g).Inv where
  capacity := Nat.zero_le _
  generation := by simp [start, VideoSender.held, VideoCall.samples]
  track := by simp [start, VideoSender.held, VideoCall.isUnderway]
  writes := by simp [start]
  pending := Nat.zero_le _
  carried := by simp [start]

theorem saturate_le (n : Nat) : saturate n ≤ 65535 := by
  unfold saturate; split <;> omega

theorem saturate_of_le {n : Nat} (h : n ≤ 65535) : saturate n = n := by
  unfold saturate; split <;> omega

/-- A step of the sender, where every sample is of the generation and has its track. -/
inductive Consumed (s : Line) : Line → Prop where
  | receive {q : QueuedVideoSample} {rest : List QueuedVideoSample} (hsender : s.sender = .idle)
      (hqueue : s.g.videoSendQueue = q :: rest) :
      Consumed s { s with sender := .testGeneration q, g := { s.g with videoSendQueue := rest } }
  | testGeneration {q : QueuedVideoSample} (hsender : s.sender = .testGeneration q) :
      Consumed s { s with sender := .loadTrack q }
  | loadTrack {q : QueuedVideoSample} (hsender : s.sender = .loadTrack q) :
      Consumed s { s with sender := .write q s.g.videoTrack }
  | write {q : QueuedVideoSample} {track : Nat} (hsender : s.sender = .write q (some track)) :
      Consumed s { s with sender := .putBuf q, g := { s.g with videoWritten := s.g.videoWritten ++ [(track, q)] } }
  | putBuf {q : QueuedVideoSample} (hsender : s.sender = .putBuf q) :
      Consumed s { s with sender := .idle, g := s.g.putSampleBuf q.id }

theorem consumed_of_step (hi : s.Inv) (hs : s.step .consume = some s') : Consumed s s' := by
  obtain ⟨v, g, hr, rfl⟩ := step_consume hs
  cases hsender : s.sender with
  | idle =>
    simp only [hsender, VideoSender.step] at hr
    split at hr
    · cases hr
    · rename_i q rest hqueue
      obtain ⟨rfl, rfl⟩ := Prod.mk.inj (Option.some.inj hr)
      exact .receive hsender hqueue
  | testGeneration q =>
    have hgen : q.generation = s.g.peerGeneration := hi.generation q (by simp [hsender, VideoSender.held])
    simp only [hsender, VideoSender.step, if_pos hgen] at hr
    obtain ⟨rfl, rfl⟩ := Prod.mk.inj (Option.some.inj hr)
    exact .testGeneration hsender
  | loadTrack q =>
    rw [hsender] at hr
    obtain ⟨rfl, rfl⟩ := Prod.mk.inj (Option.some.inj hr)
    exact .loadTrack hsender
  | write q track =>
    obtain ⟨track, rfl⟩ := Option.ne_none_iff_exists'.1 (hi.writes q track hsender)
    rw [hsender] at hr
    obtain ⟨rfl, rfl⟩ := Prod.mk.inj (Option.some.inj hr)
    exact .write hsender
  | putBuf q =>
    rw [hsender] at hr
    obtain ⟨rfl, rfl⟩ := Prod.mk.inj (Option.some.inj hr)
    exact .putBuf hsender

theorem inv_consume (hi : s.Inv) (hs : s.step .consume = some s') : s'.Inv := by
  have hcap := hi.capacity
  have hgen := hi.generation
  have htrack := hi.track
  cases consumed_of_step hi hs with
  | receive hsender hqueue =>
    simp only [hsender, hqueue, VideoSender.held, List.nil_append, List.length_cons] at hcap hgen htrack
    refine ⟨?_, ?_, ?_, ?_, hi.pending, hi.carried⟩
    · exact Nat.le_trans (Nat.add_le_add_right (Nat.le_succ _) _) hcap
    · simpa [VideoSender.held, call] using hgen
    · exact fun _ => htrack (.inr (by simp))
    · simp
  | testGeneration hsender =>
    rw [hsender] at hgen htrack
    exact ⟨hcap, hgen, htrack, by simp, hi.pending, hi.carried⟩
  | loadTrack hsender =>
    rw [hsender] at hgen htrack
    refine ⟨hcap, hgen, htrack, ?_, hi.pending, hi.carried⟩
    rintro _ _ h
    cases h
    exact htrack (.inr (by simp [VideoSender.held]))
  | write hsender =>
    rw [hsender] at hgen htrack
    refine ⟨hcap, ?_, ?_, by simp, hi.pending, hi.carried⟩
    · exact fun x hx => hgen x (List.mem_cons_of_mem _ hx)
    · exact fun h => htrack (h.imp_right fun h' => by simp [VideoSender.held])
  | putBuf hsender =>
    rw [hsender] at hgen htrack
    exact ⟨hcap, hgen, htrack, by simp, hi.pending, hi.carried⟩

/-- A call that leaves the queue and the track as they are, with no new sample and no new room. -/
theorem inv_call (hi : s.Inv) {c n : VideoCall} (hp : s.producer = some c) (hroom : n.room ≤ c.room)
    (hsamples : ∀ q ∈ n.samples, q.generation = s.g.peerGeneration ∨ q ∈ c.samples)
    (htrack : n.isUnderway → s.g.videoTrack ≠ none) (hc : ∀ a peer id d, n ≠ .loadGeneration a peer id d) :
    ({ s with producer := some n } : Line).Inv where
  capacity := by
    have := hi.capacity
    simp only [call, hp, Option.getD_some] at this ⊢
    omega
  generation := by
    intro q hq
    rcases List.mem_append.1 hq with hq | hq
    · exact hi.generation q (List.mem_append_left _ hq)
    · rcases hsamples q hq with h | h
      · exact h
      · exact hi.generation q (List.mem_append_right _ (by simpa [call, hp] using h))
  track := fun h => h.elim htrack fun h => hi.track (.inr h)
  writes := hi.writes
  pending := hi.pending
  carried := fun a peer id d h => absurd h (hc a peer id d)

/-- The call puts one sample at the end of the queue, where there is room. -/
theorem inv_push (hi : s.Inv) {c c' : VideoCall} (hp : s.producer = some c) {x : QueuedVideoSample}
    (hx : x ∈ c.samples) (hlt : s.g.videoSendQueue.length < videoQueueCapacity) (hc : c.isUnderway)
    (hc' : c'.room = 0) (hs' : c'.samples = []) (hl : ∀ a peer id d, c' ≠ .loadGeneration a peer id d)
    {dropped returned : List Nat} :
    ({ s with producer := some c', g := { s.g.push x with dropped := dropped, returned := returned } } : Line).Inv where
  capacity := by
    simp only [call, Option.getD_some, hc', Globals.push, List.length_append, List.length_singleton]
    omega
  generation := by
    intro q hq
    simp only [call, Option.getD_some, hs', Globals.push, List.append_nil, ← List.append_assoc] at hq
    rcases List.mem_append.1 hq with hq | hq
    · exact hi.generation q (List.mem_append_left _ hq)
    · rw [List.mem_singleton.1 hq]
      exact hi.generation x (List.mem_append_right _ (by simpa [call, hp] using hx))
  track := fun _ => hi.track (.inl (by simpa [call, hp] using hc))
  writes := hi.writes
  pending := hi.pending
  carried := fun a peer id d h => absurd h (hl a peer id d)

/-- A call that is to put a sample finds room for it. -/
theorem Inv.room_left (hi : s.Inv) {c : VideoCall} (hcall : s.call = c) (hroom : c.room = 1) :
    s.g.videoSendQueue.length < videoQueueCapacity := by
  have hcap := hi.capacity
  rw [hcall, hroom] at hcap
  omega

/-- A call under way has found a track. -/
theorem Inv.track_underway (hi : s.Inv) {c : VideoCall} (hcall : s.call = c) (hc : c.isUnderway) :
    s.g.videoTrack ≠ none :=
  hi.track (.inl (hcall ▸ hc))

theorem inv_produce (hi : s.Inv) (hs : s.step .produce = some s') : s'.Inv := by
  rcases step_produce hs with ⟨code, hp, rfl⟩ | ⟨c, hp, hne, rfl⟩
  · exact ⟨by have := hi.capacity; simp only [call, hp] at this; simpa [call, VideoCall.room] using this,
      fun q hq => hi.generation q (by simpa [call, hp, VideoCall.samples] using hq),
      fun h => hi.track (.inr (h.resolve_left (by simp [call, VideoCall.isUnderway]))), hi.writes, hi.pending,
      by simp [call]⟩
  · have hcall : s.call = c := by simp [call, hp]
    cases c with
    | check a =>
      rcases a.check_cases s.g with ⟨code, hc⟩ | ⟨peer, hc, -, ht⟩
      · simp only [VideoCall.step, hc]
        exact inv_call hi hp (Nat.le_refl _) (by simp [VideoCall.samples]) (by simp [VideoCall.isUnderway]) (by simp)
      · simp only [VideoCall.step, hc]
        exact inv_call hi hp (Nat.le_refl _) (by simp [VideoCall.samples]) (fun _ => ht) (by simp)
    | swapPending a peer =>
      have ht : s.g.videoTrack ≠ none := hi.track_underway hcall rfl
      have hcap := hi.capacity
      rw [hcall] at hcap
      refine ⟨hcap, ?_, fun _ => ht, hi.writes, Nat.zero_le _, ?_⟩
      · exact fun q hq => hi.generation q (by simpa [hcall, VideoCall.step, VideoCall.samples] using hq)
      · intro a' peer' id d h
        simp only [VideoCall.step, call_mk, VideoCall.loadGeneration.injEq] at h
        exact h.2.2.2 ▸ hi.pending
    | loadGeneration a peer id d =>
      have ht : s.g.videoTrack ≠ none := hi.track_underway hcall rfl
      simp only [VideoCall.step]
      exact inv_call hi hp (Nat.le_refl _) (by simp [VideoCall.samples]) (fun _ => ht) (by simp)
    | push q =>
      have ht : s.g.videoTrack ≠ none := hi.track_underway hcall rfl
      simp only [VideoCall.step]
      split
      · rename_i hlt
        exact inv_push hi hp (by simp [VideoCall.samples]) hlt rfl rfl rfl (by simp)
      · exact inv_call hi hp (Nat.le_refl _) (by simp [VideoCall.samples]) (fun _ => ht) (by simp)
    | receiveOldest q =>
      have ht : s.g.videoTrack ≠ none := hi.track_underway hcall rfl
      have hcap := hi.capacity
      have hgen := hi.generation
      rw [hcall] at hcap hgen
      simp only [VideoCall.step]
      cases hq : s.g.videoSendQueue with
      | nil =>
        have h := inv_call hi hp (n := .loadPending (q.prevDroppedPackets + 1)) (Nat.le_refl _)
          (by simp [VideoCall.samples]) (fun _ => ht) (by simp)
        exact ⟨h.capacity, h.generation, h.track, h.writes, h.pending, h.carried⟩
      | cons o rest =>
        simp only [hq, VideoCall.room, VideoCall.samples, List.length_cons] at hcap hgen
        simp only
        split
        · refine ⟨?_, ?_, fun _ => ht, hi.writes, hi.pending, by simp⟩
          · simp only [call_mk, VideoCall.room]; omega
          · intro x hx
            simp only [call_mk, VideoCall.samples, List.mem_append, List.mem_cons, List.not_mem_nil, or_false] at hx hgen
            exact hgen x (by tauto)
        · refine ⟨?_, ?_, fun _ => ht, hi.writes, hi.pending, by simp⟩
          · simp only [call_mk, VideoCall.room, Globals.drop]; omega
          · intro x hx
            simp only [call_mk, VideoCall.samples, Globals.drop, List.mem_append, List.mem_cons, List.not_mem_nil,
              or_false] at hx hgen
            rcases hx with (hx | hx) | rfl
            · exact hgen x (by tauto)
            · exact hgen x (by tauto)
            · exact hgen q (by tauto)
    | pushBack q o =>
      have hlt : s.g.videoSendQueue.length < videoQueueCapacity := hi.room_left hcall rfl
      simp only [VideoCall.step, if_pos hlt]
      exact inv_push hi hp (by simp [VideoCall.samples]) hlt rfl rfl rfl (by simp)
    | pushReplacement q =>
      have hlt : s.g.videoSendQueue.length < videoQueueCapacity := hi.room_left hcall rfl
      simp only [VideoCall.step, if_pos hlt]
      exact inv_push hi hp (by simp [VideoCall.samples]) hlt rfl rfl rfl (by simp)
    | loadPending count =>
      have ht : s.g.videoTrack ≠ none := hi.track_underway hcall rfl
      simp only [VideoCall.step]
      exact inv_call hi hp (Nat.le_refl _) (by simp [VideoCall.samples]) (fun _ => ht) (by simp)
    | casPending count current =>
      have ht : s.g.videoTrack ≠ none := hi.track_underway hcall rfl
      simp only [VideoCall.step]
      split
      · have h := inv_call hi hp (n := .ret (-1)) (Nat.le_refl _) (by simp [VideoCall.samples])
          (by simp [VideoCall.isUnderway]) (by simp)
        exact ⟨h.capacity, h.generation, h.track, h.writes, saturate_le _, h.carried⟩
      · exact inv_call hi hp (Nat.le_refl _) (by simp [VideoCall.samples]) (fun _ => ht) (by simp)
    | ret code => exact absurd rfl (hne code)

theorem inv_step (hi : s.Inv) (hs : s.step m = some s') : s'.Inv := by
  cases m with
  | send a =>
    obtain ⟨hp, rfl⟩ := step_send hs
    have hcall : s.call = .ret 0 := by simp [call, hp]
    refine ⟨?_, ?_, fun h => hi.track (.inr (h.resolve_left (by simp [call, VideoCall.isUnderway]))), hi.writes,
      hi.pending, by simp [call]⟩
    · have hcap := hi.capacity
      rwa [hcall] at hcap
    · have hgen := hi.generation
      rwa [hcall] at hgen
  | produce => exact inv_produce hi hs
  | consume => exact inv_consume hi hs
  | state state =>
    obtain rfl := Option.some.inj hs
    exact ⟨hi.capacity, hi.generation, hi.track, hi.writes, hi.pending, hi.carried⟩

/-! ## Entries -/

/-- The producer, `queued` in hand, takes `oldest` out of the queue in front of `rest`. -/
structure Receipt where
  queued : QueuedVideoSample
  oldest : QueuedVideoSample
  rest : List QueuedVideoSample
  deriving DecidableEq

/-- The keyframe is to go back, and the delta frame to be given up. -/
def Receipt.putsBack (r : Receipt) : Bool := r.oldest.isKeyframe && !r.queued.isKeyframe

/-- What the producer takes out of the queue in a move. -/
def receipt (s : Line) : LineMove → Option Receipt
  | .produce =>
    match s.producer, s.g.videoSendQueue with
    | some (.receiveOldest queued), oldest :: rest => some ⟨queued, oldest, rest⟩
    | _, _ => none
  | _ => none

/-- What the producer adds to the pending drops in a move, and the drops it adds them to. -/
def settlement (s : Line) : LineMove → Option (Nat × Nat)
  | .produce =>
    match s.producer with
    | some (.casPending count current) => if s.g.videoPendingDrops = current then some (count, current) else none
    | _ => none
  | _ => none

theorem receipt_eq_some {r : Receipt} : s.receipt m = some r ↔
    m = .produce ∧ s.producer = some (.receiveOldest r.queued) ∧ s.g.videoSendQueue = r.oldest :: r.rest := by
  constructor
  · intro h
    cases m <;> simp only [receipt] at h <;> try cases h
    split at h
    · rename_i queued oldest rest hp hq
      obtain rfl := Option.some.inj h
      exact ⟨rfl, hp, hq⟩
    · cases h
  · rintro ⟨rfl, hp, hq⟩
    simp [receipt, hp, hq]

theorem settlement_eq_some {count current : Nat} : s.settlement m = some (count, current) ↔
    m = .produce ∧ s.producer = some (.casPending count current) ∧ s.g.videoPendingDrops = current := by
  constructor
  · intro h
    cases m <;> simp only [settlement] at h <;> try cases h
    split at h
    · rename_i count' current' hp
      split at h
      · rename_i hpd
        obtain ⟨rfl, rfl⟩ := Prod.mk.inj (Option.some.inj h)
        exact ⟨rfl, hp, hpd⟩
      · cases h
    · cases h
  · rintro ⟨rfl, hp, hpd⟩
    simp [settlement, hp, hpd]

/-- Taking the oldest sample out is an entry of its own: it is put back later, or dropped. -/
theorem ledger_receive {r : Receipt} (hr : s.receipt m = some r) (hs : s.step m = some s') :
    s.ledger.line = s.received.map (·.ticket) ++ r.oldest.ticket :: r.rest.map (·.ticket) ∧ s.ledger.taken = none ∧
      s.ledger.carried = r.queued.prevDroppedPackets ∧
      s'.ledger = if r.putsBack
        then s.ledger.takeOut r.oldest.ticket (s.received.map (·.ticket)) (r.rest.map (·.ticket))
        else s.ledger.evict (saturate (r.queued.prevDroppedPackets + r.oldest.prevDroppedPackets + 1)) r.oldest.ticket
          (s.received.map (·.ticket)) (r.rest.map (·.ticket)) := by
  obtain ⟨q, o, rest⟩ := r
  obtain ⟨rfl, hp, hq⟩ := receipt_eq_some.1 hr
  have hcall : s.call = .receiveOldest q := by simp [call, hp]
  refine ⟨by simp [ledger, samples, hq], by simp [ledger, hcall, VideoCall.taken],
    by simp [ledger, hcall, VideoCall.carried], ?_⟩
  simp only at hq hp
  simp only [step, hp, VideoCall.step, hq, Option.some.injEq] at hs
  subst hs
  by_cases hk : (o.isKeyframe && !q.isKeyframe) = true
  · rw [show (Receipt.mk q o rest).putsBack = true from hk, if_pos hk, if_pos rfl]
    simp [ledger, Ledger.takeOut, samples, received, handed, VideoCall.taken, VideoCall.fresh, VideoCall.carried, hcall]
  · rw [show (Receipt.mk q o rest).putsBack = false from Bool.eq_false_iff.2 hk, if_neg hk, if_neg Bool.false_ne_true]
    simp [ledger, Ledger.evict, samples, received, handed, VideoCall.taken, VideoCall.fresh, VideoCall.carried, hcall,
      Globals.drop, QueuedVideoSample.replacing, QueuedVideoSample.ticket]

theorem ledger_settle {count current : Nat} (hc : s.settlement m = some (count, current)) (hs : s.step m = some s') :
    s.ledger.fresh = none ∧ s.ledger.carried = count ∧ s.ledger.pending = current ∧
      s'.ledger = s.ledger.settle (saturate (current + count)) := by
  obtain ⟨rfl, hp, hq⟩ := settlement_eq_some.1 hc
  have hcall : s.call = .casPending count current := by simp [call, hp]
  refine ⟨by simp [ledger, hcall, VideoCall.fresh], by simp [ledger, hcall, VideoCall.carried], hq, ?_⟩
  simp only [step, hp, VideoCall.step, hq, Option.some.injEq] at hs
  subst hs
  simp [ledger, Ledger.settle, samples, received, handed, VideoCall.taken, VideoCall.fresh, VideoCall.carried, hcall]

/-- What the sender does moves the samples along the line. -/
theorem ledger_consume (hi : s.Inv) (hs : s.step .consume = some s') : s'.ledger = s.ledger := by
  cases consumed_of_step hi hs with
  | receive hsender hqueue => simp [ledger, samples, received, handed, VideoSender.held, hsender, hqueue, call]
  | testGeneration hsender | loadTrack hsender | putBuf hsender =>
    simp [ledger, samples, received, handed, VideoSender.held, hsender, call, Globals.putSampleBuf]
  | write hsender => simp [ledger, samples, received, handed, VideoSender.held, hsender, call]

/-- A call that goes on with the same sample and the same drops, and leaves the globals, enters nothing. -/
theorem ledger_call {c n : VideoCall} (hp : s.producer = some c) (hf : n.fresh = c.fresh) (ht : n.taken = c.taken)
    (hc : n.carried = c.carried) : ({ s with producer := some n } : Line).ledger = s.ledger := by
  simp [ledger, call, hp, hf, ht, hc, samples, received, handed]

/-- A sample that joins the queue joins the line. -/
theorem ledger_push {c : VideoCall} (hp : s.producer = some c) {q : QueuedVideoSample}
    (hc : c.carried = q.prevDroppedPackets) (ht : c.taken = none) :
    ({ s with producer := some (.ret 0), g := s.g.push q } : Line).ledger = s.ledger.push q.id := by
  simp [ledger, Ledger.push, call, hp, hc, ht, samples, received, handed, Globals.push, QueuedVideoSample.ticket]

theorem ledger_eq {c : VideoCall} (hp : s.producer = some c) :
    s.ledger.fresh = c.fresh ∧ s.ledger.taken = c.taken ∧ s.ledger.carried = c.carried := by
  simp [ledger, call, hp]

theorem entry_cases (hi : s.Inv) (hs : s.step m = some s') :
    (∃ r, s.receipt m = some r) ∨ (∃ count current, s.settlement m = some (count, current)) ∨
      s.ledger.Entry s'.ledger := by
  cases m with
  | send a =>
    obtain ⟨hp, rfl⟩ := step_send hs
    have h : ({ s with producer := some (.check a) } : Line).ledger = s.ledger := by
      simp [ledger, call, hp, samples, received, handed, VideoCall.fresh, VideoCall.taken, VideoCall.carried]
    exact .inr (.inr (h ▸ .stay))
  | consume => exact .inr (.inr (ledger_consume hi hs ▸ .stay))
  | state state =>
    obtain rfl := Option.some.inj hs
    exact .inr (.inr .stay)
  | produce =>
    rcases step_produce hs with ⟨code, hp, rfl⟩ | ⟨c, hp, hne, rfl⟩
    · have h : ({ s with producer := none } : Line).ledger = s.ledger := by
        simp [ledger, call, hp, samples, received, handed, VideoCall.fresh, VideoCall.taken, VideoCall.carried]
      exact .inr (.inr (h ▸ .stay))
    · obtain ⟨hf, ht, hc⟩ := ledger_eq hp
      have hcall : s.call = c := by simp [call, hp]
      have hroom := hi.capacity
      rw [hcall] at hroom
      cases c with
      | check a =>
        have h : ({ s with producer := some (a.check s.g) } : Line).ledger = s.ledger := by
          rcases a.check_cases s.g with ⟨code, hr⟩ | ⟨peer, hr, -⟩ <;> rw [hr] <;> exact ledger_call hp rfl rfl rfl
        exact .inr (.inr (h ▸ .stay))
      | swapPending a peer =>
        have h : ({ s with
            producer := some (.loadGeneration a peer s.g.accepted s.g.videoPendingDrops)
            g := { s.g with videoPendingDrops := 0, accepted := s.g.accepted + 1 } } : Line).ledger =
              s.ledger.issue := by
          simp [ledger, Ledger.issue, hcall, samples, received, handed, VideoCall.fresh, VideoCall.taken,
            VideoCall.carried]
        exact .inr (.inr (h ▸ .issue hf ht))
      | loadGeneration a peer id d =>
        have hd : d % 65536 = d := Nat.mod_eq_of_lt (Nat.lt_succ_of_le (hi.carried a peer id d hcall))
        have h := ledger_call (s := s) hp
          (n := .push ⟨a.size, a.durationUs, d % 65536, a.isKeyframe, s.g.peerGeneration, id, peer⟩) rfl rfl hd
        exact .inr (.inr (h ▸ .stay))
      | push q =>
        simp only [VideoCall.step]
        split
        · exact .inr (.inr (ledger_push hp (q := q) rfl rfl ▸ .push q.id hf ht))
        · have h := ledger_call (s := s) hp (n := .receiveOldest q) rfl rfl rfl
          exact .inr (.inr (h ▸ .stay))
      | receiveOldest q =>
        cases hq : s.g.videoSendQueue with
        | nil =>
          have h : ({ s with
              producer := some (.loadPending (q.prevDroppedPackets + 1))
              g := s.g.drop q.id } : Line).ledger = s.ledger.giveUp q.id := by
            simp [ledger, Ledger.giveUp, hcall, samples, received, handed, VideoCall.fresh, VideoCall.taken,
              VideoCall.carried, Globals.drop]
          simp only [VideoCall.step, hq]
          exact .inr (.inr (h ▸ .giveUp q.id hf ht))
        | cons o rest => exact .inl ⟨⟨q, o, rest⟩, receipt_eq_some.2 ⟨rfl, hp, hq⟩⟩
      | pushBack q o =>
        have hlt : s.g.videoSendQueue.length < videoQueueCapacity := by simp only [VideoCall.room] at hroom; omega
        have h : ({ s with
            producer := some (.loadPending (q.prevDroppedPackets + 1))
            g := (s.g.push o).drop q.id } : Line).ledger = s.ledger.putBack q.id o.ticket := by
          simp [ledger, Ledger.putBack, hcall, samples, received, handed, VideoCall.fresh, VideoCall.taken,
            VideoCall.carried, Globals.drop, Globals.push]
        simp only [VideoCall.step, if_pos hlt]
        exact .inr (.inr (h ▸ .putBack q.id o.ticket hf ht))
      | pushReplacement q =>
        have hlt : s.g.videoSendQueue.length < videoQueueCapacity := by simp only [VideoCall.room] at hroom; omega
        simp only [VideoCall.step, if_pos hlt]
        exact .inr (.inr (ledger_push hp (q := q) rfl rfl ▸ .push q.id hf ht))
      | loadPending count =>
        have h := ledger_call (s := s) hp (n := .casPending count s.g.videoPendingDrops) rfl rfl rfl
        exact .inr (.inr (h ▸ .stay))
      | casPending count current =>
        by_cases hpd : s.g.videoPendingDrops = current
        · exact .inr (.inl ⟨count, current, settlement_eq_some.2 ⟨rfl, hp, hpd⟩⟩)
        · have h := ledger_call (s := s) hp (n := .loadPending count) rfl rfl rfl
          simp only [VideoCall.step, if_neg hpd]
          exact .inr (.inr (h ▸ .stay))
      | ret code => exact absurd rfl (hne code)

/-- **What a move enters in the ledger**: but for taking the oldest sample out and for settling, it keeps the books. -/
theorem entry_of_step (hi : s.Inv) (hs : s.step m = some s') :
    (∃ r, s.receipt m = some r) ∨ s.receipt m = none ∧
      ((∃ count current, s.settlement m = some (count, current)) ∨ s.ledger.Entry s'.ledger) := by
  cases h : s.receipt m with
  | some r => exact .inl ⟨r, rfl⟩
  | none => exact .inr ⟨rfl, (entry_cases hi hs).resolve_left fun ⟨r, hr⟩ => by simp [h] at hr⟩

end Line

end GoMedia
end Host
end CloudGaming
