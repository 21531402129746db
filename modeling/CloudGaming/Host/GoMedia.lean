import CloudGaming.Host.GoQueue
/-!
# GoMedia — the peers, the media queues and the callbacks of the Go layer

The package globals of the Go layer, and the goroutines and calls that share them.  A call is kept as the point it
stands at: from one point to the next it makes one atomic step, which is a section under a lock, an atomic load or
store, an operation on a channel, or a write to a track.  RTP headers, timers, the statistics and the closing of the
module are left out; `peerGeneration` is not bounded.
-/
namespace CloudGaming
namespace Host
namespace GoMedia

open GoInput (goReset maxKeyboardMessages)

/-- `webrtc.PeerConnectionState`. -/
inductive PeerConnectionState where
  | unknown | new | connecting | connected | disconnected | failed | closed
  deriving DecidableEq, Repr

/-- A peer connection, numbered as it becomes the current one. -/
abbrev PeerId := Nat

/-! ## The globals -/

/-- `queuedVideoSample`; `id` numbers the accepted samples and `checkedAt` is the peer of the connection check: history. -/
structure QueuedVideoSample where
  size : Int
  durationUs : Int
  prevDroppedPackets : Nat
  isKeyframe : Bool
  generation : Nat
  id : Nat
  checkedAt : PeerId
  deriving DecidableEq, Repr

/-- An audio packet; `checkedAt` is the peer of the connection check: history. -/
structure Packet where
  size : Int
  pts : Int
  checkedAt : PeerId
  deriving DecidableEq, Repr

structure Channel where
  peer : PeerId
  id : Nat
  deriving DecidableEq, Repr

/-- A queued input message, and the peer it was received from; the Go layer's own resets have none: history. -/
structure Message where
  payload : Payload
  receivedFrom : Option PeerId

/-- The globals.  The last block is history: how many peers were made current, the peer of the last
`createPeerConnectionGo` that returned, how many samples were accepted, those given up by `sendVideoSample`, those whose
buffer went back to the pool, what was written to the tracks, and the messages polled. -/
structure Globals where
  peerConnection : Option PeerId := none
  videoTrack : Option PeerId := none
  audioTrack : Option PeerId := none
  dataChannel : Option Channel := none
  mouseChannel : Option Channel := none
  connectionState : PeerConnectionState := .new
  peerGeneration : Nat := 0
  videoPendingDrops : Nat := 0
  videoSendQueue : List QueuedVideoSample := []
  audioSendQueue : List Packet := []
  audioConnectionBuffer : List Packet := []
  messageQueue : List Message := []
  mouseQueue : List Message := []
  created : Nat := 0
  served : Option PeerId := none
  accepted : Nat := 0
  dropped : List Nat := []
  returned : List Nat := []
  videoWritten : List (PeerId × QueuedVideoSample) := []
  audioWritten : List (PeerId × Packet) := []
  polled : List Message := []

namespace Globals

def putSampleBuf (g : Globals) (id : Nat) : Globals := { g with returned := id :: g.returned }

/-- The sample is given up, and its buffer goes back. -/
def drop (g : Globals) (id : Nat) : Globals := { g with dropped := id :: g.dropped, returned := id :: g.returned }

def push (g : Globals) (q : QueuedVideoSample) : Globals := { g with videoSendQueue := g.videoSendQueue ++ [q] }

def pushAudio (g : Globals) (p : Packet) : Globals := { g with audioSendQueue := g.audioSendQueue ++ [p] }

end Globals

def videoQueueCapacity : Nat := 2

def audioQueueCapacity : Nat := 3

def maxAudioBufferSize : Nat := 3

/-! ## `sendVideoSample` -/

structure VideoArgs where
  data : Bool
  size : Int
  durationUs : Int
  isKeyframe : Bool
  deriving DecidableEq, Repr

def validateVideoDuration (durationUs : Int) : Bool :=
  if durationUs < 0 then false
  else if durationUs = 0 then false
  else if durationUs < 100 then false
  else if 1000000 < durationUs then false
  else true

/-- Where a call of `sendVideoSample` stands: what its next step does. -/
inductive VideoCall where
  | check (a : VideoArgs)
  -- checked while `peer` was current; the buffer is filled
  | swapPending (a : VideoArgs) (peer : PeerId)
  | loadGeneration (a : VideoArgs) (peer : PeerId) (id droppedBefore : Nat)
  | push (queued : QueuedVideoSample)
  | receiveOldest (queued : QueuedVideoSample)
  -- the keyframe `oldest` goes back, and the incoming delta frame is given up
  | pushBack (queued oldest : QueuedVideoSample)
  | pushReplacement (queued : QueuedVideoSample)
  | loadPending (count : Nat)
  | casPending (count current : Nat)
  | ret (code : Int)
  deriving DecidableEq, Repr

/-- The samples a call has stamped or taken out of the queue. -/
def VideoCall.samples : VideoCall → List QueuedVideoSample
  | .push queued | .receiveOldest queued | .pushReplacement queued => [queued]
  | .pushBack queued oldest => [queued, oldest]
  | _ => []

def saturate (n : Nat) : Nat := if 65535 < n then 65535 else n

/-- The sample that takes the place of `oldest` in the queue also takes over its gap. -/
def QueuedVideoSample.replacing (queued oldest : QueuedVideoSample) : QueuedVideoSample :=
  { queued with prevDroppedPackets := saturate (queued.prevDroppedPackets + oldest.prevDroppedPackets + 1) }

def VideoArgs.check (a : VideoArgs) (g : Globals) : VideoCall :=
  if !a.data || a.size ≤ 0 then .ret (-2)
  else
    match g.peerConnection, g.videoTrack with
    | some peer, some _ =>
      if g.connectionState ≠ .connected then .ret 0
      else if validateVideoDuration a.durationUs then .swapPending a peer
      else .ret (-3)
    | _, _ => .ret (-1)

/-- A call that passes the check was made while the peer was there, and its track. -/
theorem VideoArgs.check_cases (a : VideoArgs) (g : Globals) : (∃ code, a.check g = .ret code) ∨
    ∃ peer, a.check g = .swapPending a peer ∧ g.peerConnection = some peer ∧ g.videoTrack ≠ none := by
  unfold VideoArgs.check
  split
  · exact .inl ⟨_, rfl⟩
  · split
    · rename_i peer track hp ht
      split
      · exact .inl ⟨_, rfl⟩
      · split
        · exact .inr ⟨peer, rfl, hp, by simp [ht]⟩
        · exact .inl ⟨_, rfl⟩
    · exact .inl ⟨_, rfl⟩

def VideoCall.step (g : Globals) : VideoCall → VideoCall × Globals
  | .check a => (a.check g, g)
  | .swapPending a peer =>
    (.loadGeneration a peer g.accepted g.videoPendingDrops,
      { g with videoPendingDrops := 0, accepted := g.accepted + 1 })
  | .loadGeneration a peer id droppedBefore =>
    (.push ⟨a.size, a.durationUs, droppedBefore % 65536, a.isKeyframe, g.peerGeneration, id, peer⟩, g)
  | .push queued =>
    if g.videoSendQueue.length < videoQueueCapacity then (.ret 0, g.push queued) else (.receiveOldest queued, g)
  | .receiveOldest queued =>
    match g.videoSendQueue with
    | [] => (.loadPending (queued.prevDroppedPackets + 1), g.drop queued.id)
    | oldest :: rest =>
      if oldest.isKeyframe && !queued.isKeyframe then (.pushBack queued oldest, { g with videoSendQueue := rest })
      else (.pushReplacement (queued.replacing oldest), { g with videoSendQueue := rest }.drop oldest.id)
  | .pushBack queued oldest =>
    if g.videoSendQueue.length < videoQueueCapacity then
      (.loadPending (queued.prevDroppedPackets + 1), (g.push oldest).drop queued.id)
    else (.pushReplacement (queued.replacing oldest), g.drop oldest.id)
  | .pushReplacement queued =>
    if g.videoSendQueue.length < videoQueueCapacity then (.ret 0, g.push queued)
    else (.loadPending (queued.prevDroppedPackets + 1), g.drop queued.id)
  -- `addPendingVideoDrops`
  | .loadPending count => (.casPending count g.videoPendingDrops, g)
  | .casPending count current =>
    if g.videoPendingDrops = current then (.ret (-1), { g with videoPendingDrops := saturate (current + count) })
    else (.loadPending count, g)
  | .ret code => (.ret code, g)

/-- Where `videoSenderGoroutine` stands. -/
inductive VideoSender where
  | idle
  | testGeneration (queued : QueuedVideoSample)
  -- the pacing wait, up to the load of the track
  | loadTrack (queued : QueuedVideoSample)
  | write (queued : QueuedVideoSample) (track : Option PeerId)
  | putBuf (queued : QueuedVideoSample)
  deriving DecidableEq, Repr

def VideoSender.step (g : Globals) : VideoSender → Option (VideoSender × Globals)
  | .idle =>
    match g.videoSendQueue with
    | [] => none
    | queued :: rest => some (.testGeneration queued, { g with videoSendQueue := rest })
  | .testGeneration queued =>
    some (if queued.generation = g.peerGeneration then .loadTrack queued else .putBuf queued, g)
  | .loadTrack queued => some (.write queued g.videoTrack, g)
  | .write queued track =>
    some (.putBuf queued, { g with videoWritten := g.videoWritten ++ (track.map (·, queued)).toList })
  | .putBuf queued => some (.idle, g.putSampleBuf queued.id)

/-! ## `sendAudioPacket` -/

structure AudioArgs where
  data : Bool
  size : Int
  pts : Int
  deriving DecidableEq, Repr

/-- Where `enqueueLatestAudioPacket` stands. -/
inductive Enqueue where
  | push (p : Packet)
  | evictStale (p : Packet)
  | pushAgain (p : Packet)
  | done (queued : Bool)
  deriving DecidableEq, Repr

def Enqueue.step (g : Globals) : Enqueue → Enqueue × Globals
  | .push p =>
    if g.audioSendQueue.length < audioQueueCapacity then (.done true, g.pushAudio p) else (.evictStale p, g)
  | .evictStale p => (.pushAgain p, { g with audioSendQueue := g.audioSendQueue.tail })
  | .pushAgain p =>
    if g.audioSendQueue.length < audioQueueCapacity then (.done true, g.pushAudio p) else (.done false, g)
  | .done queued => (.done queued, g)

/-- The packet this part of a call still holds. -/
def Enqueue.held : Enqueue → List Packet
  | .push p | .evictStale p | .pushAgain p => [p]
  | .done _ => []

/-- Where a call of `sendAudioPacket` stands. -/
inductive AudioCall where
  | check (a : AudioArgs)
  | enqueue (e : Enqueue)
  | ret (code : Int)
  deriving DecidableEq, Repr

/-- While the connection is being established the packets are kept, the latest ones. -/
def Globals.bufferAudio (g : Globals) (p : Packet) : Globals :=
  { g with
    audioConnectionBuffer :=
      (if g.audioConnectionBuffer.length < maxAudioBufferSize then g.audioConnectionBuffer
        else g.audioConnectionBuffer.tail) ++ [p] }

def AudioArgs.check (a : AudioArgs) (g : Globals) : AudioCall × Globals :=
  if !a.data || a.size ≤ 0 then (.ret (-2), g)
  else
    match g.peerConnection, g.audioTrack with
    | some peer, some _ =>
      if g.connectionState ≠ .connected then (.ret 0, g.bufferAudio ⟨a.size, a.pts, peer⟩)
      else (.enqueue (.push ⟨a.size, a.pts, peer⟩), g)
    | _, _ => (.ret (-1), g)

def AudioCall.step (g : Globals) : AudioCall → AudioCall × Globals
  | .check a => a.check g
  | .enqueue (.done queued) => (.ret (if queued then 0 else -1), g)
  | .enqueue e => (.enqueue (e.step g).1, (e.step g).2)
  | .ret code => (.ret code, g)

/-- Where `audioSenderGoroutine` stands. -/
inductive AudioSender where
  | idle
  | loadTrack (p : Packet)
  | write (p : Packet) (track : Option PeerId)
  deriving DecidableEq, Repr

def AudioSender.step (g : Globals) : AudioSender → Option (AudioSender × Globals)
  | .idle =>
    match g.audioSendQueue with
    | [] => none
    | p :: rest => some (.loadTrack p, { g with audioSendQueue := rest })
  | .loadTrack p => some (.write p g.audioTrack, g)
  | .write p track => some (.idle, { g with audioWritten := g.audioWritten ++ (track.map (·, p)).toList })

/-! ## The input queues -/

section callbacks

/- The type Go's own decoder reads in a message. -/
variable (goType : Payload → String)

/-- A reset of the Go layer's own. -/
def ownReset (reason : String) : Message := ⟨goReset reason, none⟩

def enqueueMessage (queue : List Message) (m : Message) : List Message :=
  if maxKeyboardMessages ≤ queue.length then
    ownReset "keyboard_queue_overflow" :: (if goType m.payload ∈ ["keyup", "mouseup", "input_reset"] then [m] else [])
  else queue ++ [m]

def maxMouseMessages : Nat := 256

/-- A pointer movement takes the place of the one before it. -/
def enqueueMouseEvent (queue : List Message) (m : Message) : List Message :=
  if goType m.payload = "mousemove" ∧ queue.getLast?.map (goType ·.payload) = some "mousemove" then
    queue.dropLast ++ [m]
  else if maxMouseMessages ≤ queue.length then
    ownReset "mouse_queue_overflow" :: (if goType m.payload ∈ ["mouseup", "input_reset"] then [m] else [])
  else queue ++ [m]

/-- The queue of the one channel or the other. -/
def Globals.enqueue (g : Globals) (mouse : Bool) (m : Message) : Globals :=
  if mouse then { g with mouseQueue := enqueueMouseEvent goType g.mouseQueue m }
  else { g with messageQueue := enqueueMessage goType g.messageQueue m }

/-- `getDataChannelMessage`. -/
def Globals.pollKey (g : Globals) : Globals :=
  match g.messageQueue with
  | [] => g
  | m :: rest => { g with messageQueue := rest, polled := m :: g.polled }

/-- `getMouseChannelMessage`. -/
def Globals.pollMouse (g : Globals) : Globals :=
  match g.mouseQueue with
  | [] => g
  | m :: rest => { g with mouseQueue := rest, polled := m :: g.polled }

/-! ## The callbacks of a peer connection -/

/-- Where a callback stands; `mouse` tells the two data channels apart. -/
inductive Callback where
  | setState (peer : PeerId) (state : PeerConnectionState)
  | flush
  | enqueue (e : Enqueue) (rest : List Packet)
  | openChannel (c : Channel) (mouse : Bool)
  | message (c : Channel) (mouse : Bool) (p : Payload)
  | close (c : Channel) (mouse : Bool)
  | error (c : Channel) (mouse : Bool)
  | reset (mouse : Bool) (reason : String)
  | done

/-- The peer a callback belongs to, as it starts. -/
def Callback.peer? : Callback → Option PeerId
  | setState peer _ => some peer
  | openChannel c _ | message c _ _ | close c _ | error c _ => some c.peer
  | _ => none

def Callback.step (g : Globals) : Callback → Callback × Globals
  | .setState _ state =>
    (if state = .connected then .flush
      else if state = .failed ∨ state = .disconnected ∨ state = .closed then .reset false "peer_connection_unavailable"
      else .done, { g with connectionState := state })
  -- `flushAudioConnectionBuffer`
  | .flush =>
    match g.audioConnectionBuffer with
    | [] => (.done, g)
    | p :: rest => (.enqueue (.push p) rest, { g with audioConnectionBuffer := [] })
  | .enqueue (.done _) [] => (.done, g)
  | .enqueue (.done _) (p :: rest) => (.enqueue (.push p) rest, g)
  | .enqueue e rest => (.enqueue (e.step g).1 rest, (e.step g).2)
  | .openChannel c mouse =>
    (.done, if mouse then { g with mouseChannel := some c } else { g with dataChannel := some c })
  | .message c mouse p => (.done, g.enqueue goType mouse ⟨p, some c.peer⟩)
  | .close c true =>
    (.reset true "mouse_channel_closed",
      { g with mouseChannel := if g.mouseChannel = some c then none else g.mouseChannel })
  | .close c false =>
    (.reset false "keyboard_channel_closed",
      { g with dataChannel := if g.dataChannel = some c then none else g.dataChannel })
  | .error _ mouse =>
    (.done, g.enqueue goType mouse (ownReset (if mouse then "mouse_channel_error" else "keyboard_channel_error")))
  | .reset mouse reason => (.done, g.enqueue goType mouse (ownReset reason))
  | .done => (.done, g)

/-- The packets a callback still holds. -/
def Callback.held : Callback → List Packet
  | .enqueue e rest => e.held ++ rest
  | _ => []

/-! ## `createPeerConnectionGo` and `closePeerConnection` -/

/-- Where the one of the two that runs stands; they exclude each other. -/
inductive Lifecycle where
  | idle
  | bumpGeneration (create : Bool)
  | zeroPending (create : Bool)
  | drainVideo (create : Bool)
  | drainAudio (create : Bool)
  | clearQueues
  | clearBuffer
  | install
  deriving DecidableEq, Repr

/-- How the calls into the library end. -/
inductive Outcome where
  | failed | videoTrackFailed | addTrackFailed | created (audio : Bool)
  deriving DecidableEq, Repr

/-- The first section of both. -/
def Globals.unset (g : Globals) (state : PeerConnectionState) : Globals :=
  { g with
    peerConnection := none
    videoTrack := none
    audioTrack := none
    dataChannel := none
    mouseChannel := none
    connectionState := state }

/-- The last section of `createPeerConnectionGo`.  A video track that could not be added stays. -/
def Globals.install (g : Globals) : Outcome → Globals
  | .failed => { g with served := none }
  | .videoTrackFailed => { g with videoTrack := none, served := none }
  | .addTrackFailed => { g with videoTrack := some g.created, created := g.created + 1, served := none }
  | .created audio =>
    { g with
      peerConnection := some g.created
      videoTrack := some g.created
      audioTrack := if audio then some g.created else none
      created := g.created + 1
      served := some g.created }

def Lifecycle.step (o : Outcome) (g : Globals) : Lifecycle → Option (Lifecycle × Globals)
  | .idle => none
  | .bumpGeneration create => some (.zeroPending create, { g with peerGeneration := g.peerGeneration + 1 })
  | .zeroPending create => some (.drainVideo create, { g with videoPendingDrops := 0 })
  | .drainVideo create =>
    match g.videoSendQueue with
    | [] => some (.drainAudio create, g)
    | queued :: rest => some (.drainVideo create, { g with videoSendQueue := rest }.putSampleBuf queued.id)
  | .drainAudio create =>
    match g.audioSendQueue with
    | [] => some (if create then .clearQueues else .idle, g)
    | _ :: rest => some (.drainAudio create, { g with audioSendQueue := rest })
  | .clearQueues => some (.clearBuffer, { g with messageQueue := [], mouseQueue := [] })
  | .clearBuffer => some (.install, { g with audioConnectionBuffer := [] })
  | .install => some (.idle, g.install o)

/-! ## The layer -/

/-- The globals, and where everything that runs on them stands. -/
structure Layer where
  g : Globals := {}
  lifecycle : Lifecycle := .idle
  videoCalls : List VideoCall := []
  audioCalls : List AudioCall := []
  callbacks : List Callback := []
  videoSender : VideoSender := .idle
  audioSender : AudioSender := .idle

/-- What happens: something starts, or takes its next step. -/
inductive Move where
  | createPeerConnection
  | closePeerConnection
  | lifecycle (o : Outcome)
  | sendVideoSample (a : VideoArgs)
  | video (i : Nat)
  | sendAudioPacket (a : AudioArgs)
  | audio (i : Nat)
  | callback (c : Callback)
  | resume (i : Nat)
  | videoSender
  | audioSender
  | pollKey
  | pollMouse

def Layer.step (s : Layer) : Move → Option Layer
  | .createPeerConnection =>
    if s.lifecycle = .idle then some { s with g := s.g.unset .new, lifecycle := .bumpGeneration true } else none
  | .closePeerConnection =>
    if s.lifecycle = .idle then some { s with g := s.g.unset .closed, lifecycle := .bumpGeneration false } else none
  | .lifecycle o => (s.lifecycle.step o s.g).map fun r => { s with lifecycle := r.1, g := r.2 }
  | .sendVideoSample a => some { s with videoCalls := s.videoCalls ++ [.check a] }
  | .video i =>
    s.videoCalls[i]?.map fun c => { s with videoCalls := s.videoCalls.set i (c.step s.g).1, g := (c.step s.g).2 }
  | .sendAudioPacket a => some { s with audioCalls := s.audioCalls ++ [.check a] }
  | .audio i =>
    s.audioCalls[i]?.map fun c => { s with audioCalls := s.audioCalls.set i (c.step s.g).1, g := (c.step s.g).2 }
  -- the library runs a callback of any peer it was given, the closed ones included
  | .callback c =>
    if c.peer?.any (· < s.g.created) then some { s with callbacks := s.callbacks ++ [c] } else none
  | .resume i =>
    s.callbacks[i]?.map fun c =>
      { s with callbacks := s.callbacks.set i (c.step goType s.g).1, g := (c.step goType s.g).2 }
  | .videoSender => (s.videoSender.step s.g).map fun r => { s with videoSender := r.1, g := r.2 }
  | .audioSender => (s.audioSender.step s.g).map fun r => { s with audioSender := r.1, g := r.2 }
  | .pollKey => some { s with g := s.g.pollKey }
  | .pollMouse => some { s with g := s.g.pollMouse }

/-- The queue is the one the input chain of the host models. -/
theorem map_enqueueMessage (queue : List Message) (m : Message) :
    (enqueueMessage goType queue m).map (·.payload) =
      GoInput.goEnqueue goType (queue.map (·.payload)) m.payload := by
  unfold enqueueMessage GoInput.goEnqueue
  rw [List.length_map]
  split
  · split <;> rfl
  · rw [List.map_append]; rfl

end callbacks

end GoMedia
end Host
end CloudGaming
