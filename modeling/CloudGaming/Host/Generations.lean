import CloudGaming.Async.Along
import CloudGaming.Host.GoMedia
/-!
# Generations — what a replaced peer connection leaves behind

A connection check, a stamp, a push, a test and the load of a track are steps of their own, and the peer may be replaced
between any two of them.  What is in flight stays with the peer it was checked for (`Scoped`) in every run in which the
peer is replaced only where nothing is caught between two of these steps (`written_scoped`).  The callbacks of a peer
bear no generation: what is kept of them, the library has to keep (`isolated`).
-/
namespace CloudGaming
namespace Host
namespace GoMedia

open Async
open InputSchema

/-! ## What is in flight -/

/-- The peer of a call that was checked and is not stamped. -/
def VideoCall.unstamped : VideoCall → Option PeerId
  | .swapPending _ peer => some peer
  | .loadGeneration _ peer _ _ => some peer
  | _ => none

def AudioCall.held : AudioCall → List Packet
  | .enqueue e => e.held
  | _ => []

/-- The packet whose track is not loaded. -/
def AudioSender.held : AudioSender → List Packet
  | .loadTrack p => [p]
  | _ => []

/-- The sample that passed the generation test and whose track is not loaded. -/
def VideoSender.passed : VideoSender → Option QueuedVideoSample
  | .loadTrack queued => some queued
  | _ => none

/-- What is on its way to a track. -/
def VideoSender.writing : VideoSender → List (PeerId × QueuedVideoSample)
  | .write queued track => (track.map (·, queued)).toList
  | _ => []

def AudioSender.writing : AudioSender → List (PeerId × Packet)
  | .write p track => (track.map (·, p)).toList
  | _ => []

/-- The samples that are stamped and not yet tested. -/
def Layer.stamped (s : Layer) : List QueuedVideoSample :=
  s.g.videoSendQueue ++ s.videoCalls.flatMap (·.samples) ++
    match s.videoSender with
    | .testGeneration queued => [queued]
    | _ => []

/-- The packets whose track is not yet loaded. -/
def Layer.packets (s : Layer) : List Packet :=
  s.g.audioSendQueue ++ s.g.audioConnectionBuffer ++ s.audioCalls.flatMap (·.held) ++ s.callbacks.flatMap (·.held) ++
    s.audioSender.held

/-- The stages of a replacement after the generation is counted up. -/
def Lifecycle.isBumped : Lifecycle → Bool
  | .idle | .bumpGeneration _ => false
  | _ => true

/-- A stamped sample of the generation `G` was checked for the peer before `V`; there is none of a later one. -/
def QueuedVideoSample.Scoped (G V : Nat) (q : QueuedVideoSample) : Prop :=
  q.generation ≤ G ∧ (q.generation = G → q.checkedAt + 1 = V)

/-- **What is in flight belongs to its peer.**  `G` is the generation in which the last video track was made, `V` and
`A` follow the peers of the last video and the last audio track. -/
structure Scoped (G V A : Nat) (s : Layer) : Prop where
  generation : G ≤ s.g.peerGeneration
  bumped : s.lifecycle.isBumped → G < s.g.peerGeneration
  current : ∀ p ∈ s.g.peerConnection, s.lifecycle = .idle ∧ p + 1 = V ∧ G = s.g.peerGeneration ∧
    ∀ t ∈ s.g.audioTrack, t = p
  videoTrack : ∀ t ∈ s.g.videoTrack, t + 1 = V
  audioTrack : ∀ t ∈ s.g.audioTrack, t + 1 = A
  unstamped : ∀ c ∈ s.videoCalls, ∀ p ∈ c.unstamped, p + 1 = V ∧ G = s.g.peerGeneration
  stamped : ∀ q ∈ s.stamped, q.Scoped G V
  passed : ∀ q ∈ s.videoSender.passed, q.checkedAt + 1 = V
  packets : ∀ p ∈ s.packets, p.checkedAt + 1 = A
  cleared : s.lifecycle = .install → s.g.audioConnectionBuffer = []
  video : ∀ w ∈ s.g.videoWritten ++ s.videoSender.writing, w.1 = w.2.checkedAt
  audio : ∀ w ∈ s.g.audioWritten ++ s.audioSender.writing, w.1 = w.2.checkedAt

theorem scoped_initial : Scoped 0 0 0 {} := by
  constructor <;> simp [Layer.stamped, Layer.packets, Lifecycle.isBumped, VideoSender.passed, VideoSender.writing,
    AudioSender.held, AudioSender.writing]

/-! ## Conditions -/

/-- The outcome leaves a new video track, or a new audio track. -/
def Outcome.makesVideoTrack : Outcome → Bool
  | .addTrackFailed | .created _ => true
  | _ => false

def Outcome.makesAudioTrack : Outcome → Bool
  | .created audio => audio
  | _ => false

/-- A stage of a replacement catches nothing in between: no call stands between its check and its stamp when the
generation is counted up; when a new track is made, the sender has no sample past the test, and no packet is left. -/
def Lifecycle.Quiet (s : Layer) (o : Outcome) : Lifecycle → Prop
  | .bumpGeneration _ => ∀ c ∈ s.videoCalls, c.unstamped = none
  | .install => (o.makesVideoTrack → s.videoSender.passed = none) ∧ (o.makesAudioTrack → s.packets = [])
  | _ => True

/-- The peer is replaced only where nothing is caught in between. -/
def Layer.Quiet (s : Layer) : Move → Prop
  | .lifecycle o => s.lifecycle.Quiet s o
  | _ => True

instance Lifecycle.decidableQuiet (s : Layer) (o : Outcome) : ∀ l : Lifecycle, Decidable (l.Quiet s o)
  | .bumpGeneration _ => inferInstanceAs (Decidable (∀ c ∈ s.videoCalls, c.unstamped = none))
  | .install => inferInstanceAs (Decidable (_ ∧ _))
  | .idle | .zeroPending _ | .drainVideo _ | .drainAudio _ | .clearQueues | .clearBuffer => .isTrue trivial

instance Layer.decidableQuiet (s : Layer) : ∀ m : Move, Decidable (s.Quiet m)
  | .lifecycle o => Lifecycle.decidableQuiet s o s.lifecycle
  | .createPeerConnection | .closePeerConnection | .sendVideoSample _ | .video _ | .sendAudioPacket _ | .audio _
  | .callback _ | .resume _ | .videoSender | .audioSender | .pollKey | .pollMouse => .isTrue trivial

section steps
variable {goType : Payload → String} {s s' : Layer} {G V A : Nat}

theorem scoped_unset (h : Scoped G V A s) (state : PeerConnectionState) (create : Bool) :
    Scoped G V A { s with g := s.g.unset state, lifecycle := .bumpGeneration create } where
  generation := h.generation
  bumped := by simp [Lifecycle.isBumped]
  current := by simp [Globals.unset]
  videoTrack := by simp [Globals.unset]
  audioTrack := by simp [Globals.unset]
  unstamped := h.unstamped
  stamped := h.stamped
  passed := h.passed
  packets := h.packets
  cleared := by simp
  video := h.video
  audio := h.audio

/-- A stage that leaves the peer and the generation as they are, and adds nothing to what is in flight. -/
theorem Scoped.stage (h : Scoped G V A s) {l : Lifecycle} {g : Globals} (hl : s.lifecycle ≠ .idle)
    (hbump : l.isBumped → s.lifecycle.isBumped)
    (hg : g.peerGeneration = s.g.peerGeneration ∧ g.peerConnection = s.g.peerConnection ∧
      g.videoTrack = s.g.videoTrack ∧ g.audioTrack = s.g.audioTrack ∧ g.videoWritten = s.g.videoWritten ∧
      g.audioWritten = s.g.audioWritten)
    (hv : g.videoSendQueue ⊆ s.g.videoSendQueue) (ha : g.audioSendQueue ⊆ s.g.audioSendQueue)
    (hb : g.audioConnectionBuffer ⊆ s.g.audioConnectionBuffer) (hc : l = .install → g.audioConnectionBuffer = []) :
    Scoped G V A { s with g := g, lifecycle := l } := by
  obtain ⟨hgen, hpeer, hvt, hat, hvw, haw⟩ := hg
  have hnone : s.g.peerConnection = none := by
    cases hp : s.g.peerConnection with
    | none => rfl
    | some p => exact absurd (h.current p hp).1 hl
  have hstamped : ({ s with g := g, lifecycle := l } : Layer).stamped ⊆ s.stamped :=
    List.append_subset.2 ⟨List.append_subset.2 ⟨fun q hq => by simp [Layer.stamped, hv hq],
      fun q hq => List.mem_append_left _ (List.mem_append_right _ hq)⟩, fun q hq => List.mem_append_right _ hq⟩
  have hpackets : ({ s with g := g, lifecycle := l } : Layer).packets ⊆ s.packets := by
    intro p hp
    simp only [Layer.packets, List.mem_append] at hp ⊢
    rcases hp with (((hp | hp) | hp) | hp) | hp
    · exact .inl (.inl (.inl (.inl (ha hp))))
    · exact .inl (.inl (.inl (.inr (hb hp))))
    · exact .inl (.inl (.inr hp))
    · exact .inl (.inr hp)
    · exact .inr hp
  exact
    { generation := hgen ▸ h.generation
      bumped := fun hl => hgen ▸ h.bumped (hbump hl)
      current := by simp [hpeer, hnone]
      videoTrack := fun t ht => h.videoTrack t (hvt ▸ ht)
      audioTrack := fun t ht => h.audioTrack t (hat ▸ ht)
      unstamped := fun c hc p hp => hgen ▸ h.unstamped c hc p hp
      stamped := fun q hq => h.stamped q (hstamped hq)
      passed := h.passed
      packets := fun p hp => h.packets p (hpackets hp)
      cleared := hc
      video := fun w hw => h.video w (hvw ▸ hw)
      audio := fun w hw => h.audio w (haw ▸ hw) }

theorem peer_none (h : Scoped G V A s) (hl : s.lifecycle ≠ .idle) : s.g.peerConnection = none := by
  cases hp : s.g.peerConnection with
  | none => rfl
  | some p => exact absurd (h.current p hp).1 hl

/-- The generation is counted up where no call is to be stamped. -/
theorem scoped_bump (h : Scoped G V A s) {create : Bool} (hl : s.lifecycle = .bumpGeneration create)
    (hq : ∀ c ∈ s.videoCalls, c.unstamped = none) :
    Scoped G V A { s with
      g := { s.g with peerGeneration := s.g.peerGeneration + 1 }
      lifecycle := .zeroPending create } where
  generation := Nat.le_succ_of_le h.generation
  bumped := fun _ => Nat.lt_succ_of_le h.generation
  current := by simp [peer_none h (by simp [hl])]
  videoTrack := h.videoTrack
  audioTrack := h.audioTrack
  unstamped := fun c hc p hp => by simp [hq c hc] at hp
  stamped := h.stamped
  passed := h.passed
  packets := h.packets
  cleared := by simp
  video := h.video
  audio := h.audio

/-- Once the generation is counted up, no stamped sample bears it. -/
theorem stamped_later (h : Scoped G V A s) (hb : G < s.g.peerGeneration) (W : Nat) :
    ∀ q ∈ s.stamped, q.Scoped s.g.peerGeneration W := fun q hq => by
  have := (h.stamped q hq).1
  exact ⟨by omega, fun he => by omega⟩

/-- A new video track begins a new generation: nothing stamped bears it, and nothing is caught before the old track. -/
theorem scoped_made (h : Scoped G V A s) (hl : s.lifecycle = .install) {g : Globals} {W B : Nat}
    (hp : s.videoSender.passed = none)
    (hg : g.peerGeneration = s.g.peerGeneration ∧ g.videoSendQueue = s.g.videoSendQueue ∧
      g.audioSendQueue = s.g.audioSendQueue ∧ g.audioConnectionBuffer = s.g.audioConnectionBuffer ∧
      g.videoWritten = s.g.videoWritten ∧ g.audioWritten = s.g.audioWritten)
    (hcur : ∀ p ∈ g.peerConnection, p + 1 = W ∧ ∀ t ∈ g.audioTrack, t = p) (hvt : ∀ t ∈ g.videoTrack, t + 1 = W)
    (hat : ∀ t ∈ g.audioTrack, t + 1 = B) (hpackets : ∀ p ∈ s.packets, p.checkedAt + 1 = B) :
    Scoped s.g.peerGeneration W B { s with g := g, lifecycle := .idle } := by
  have hb : G < s.g.peerGeneration := h.bumped (by simp [hl, Lifecycle.isBumped])
  obtain ⟨hgen, hvq, haq, hab, hvw, haw⟩ := hg
  exact
    { generation := Nat.le_of_eq hgen.symm
      bumped := by simp [Lifecycle.isBumped]
      current := fun p hp => ⟨rfl, (hcur p hp).1, hgen.symm, (hcur p hp).2⟩
      videoTrack := hvt
      audioTrack := hat
      unstamped := fun c hc p hp => by
        have := (h.unstamped c hc p hp).2
        omega
      stamped := fun q hq => stamped_later h hb W q (by simpa [Layer.stamped, hvq] using hq)
      passed := by simp [hp]
      packets := fun p hp => hpackets p (by simpa [Layer.packets, haq, hab] using hp)
      cleared := by simp
      video := fun w hw => h.video w (hvw ▸ hw)
      audio := fun w hw => h.audio w (haw ▸ hw) }

theorem scoped_install (h : Scoped G V A s) (hl : s.lifecycle = .install) {o : Outcome}
    (hq : (o.makesVideoTrack → s.videoSender.passed = none) ∧ (o.makesAudioTrack → s.packets = [])) :
    ∃ G V A, Scoped G V A { s with g := s.g.install o, lifecycle := .idle } := by
  have hnone := peer_none h (by simp [hl])
  cases o with
  | failed =>
    exact ⟨G, V, A, h.generation, by simp [Lifecycle.isBumped], by simp [Globals.install, hnone], h.videoTrack,
      h.audioTrack, h.unstamped, h.stamped, h.passed, h.packets, by simp, h.video, h.audio⟩
  | videoTrackFailed =>
    exact ⟨G, V, A, h.generation, by simp [Lifecycle.isBumped], by simp [Globals.install, hnone],
      by simp [Globals.install], h.audioTrack, h.unstamped, h.stamped, h.passed, h.packets, by simp, h.video, h.audio⟩
  | addTrackFailed =>
    exact ⟨_, s.g.created + 1, A, scoped_made h hl (hq.1 rfl) ⟨rfl, rfl, rfl, rfl, rfl, rfl⟩
      (by simp [Globals.install, hnone]) (by simp [Globals.install]) h.audioTrack h.packets⟩
  | created audio =>
    cases audio with
    | false =>
      exact ⟨_, s.g.created + 1, A, scoped_made h hl (hq.1 rfl) ⟨rfl, rfl, rfl, rfl, rfl, rfl⟩
        (by simp [Globals.install]) (by simp [Globals.install]) (by simp [Globals.install]) h.packets⟩
    | true =>
      exact ⟨_, s.g.created + 1, s.g.created + 1, scoped_made h hl (hq.1 rfl) ⟨rfl, rfl, rfl, rfl, rfl, rfl⟩
        (by simp [Globals.install]) (by simp [Globals.install]) (by simp [Globals.install]) (by simp [hq.2 rfl])⟩

theorem scoped_lifecycle (h : Scoped G V A s) {o : Outcome} (hq : s.Quiet (.lifecycle o))
    (hs : s.step goType (.lifecycle o) = some s') : ∃ G V A, Scoped G V A s' := by
  obtain ⟨⟨l, g⟩, hr, rfl⟩ := Option.map_eq_some_iff.1 hs
  cases hl : s.lifecycle with
  | idle => simp [hl, Lifecycle.step] at hr
  | bumpGeneration create =>
    simp only [hl, Lifecycle.step, Option.some.injEq, Prod.mk.injEq] at hr
    obtain ⟨rfl, rfl⟩ := hr
    simp only [Layer.Quiet, Lifecycle.Quiet, hl] at hq
    exact ⟨G, V, A, scoped_bump h hl hq⟩
  | zeroPending create =>
    simp only [hl, Lifecycle.step, Option.some.injEq, Prod.mk.injEq] at hr
    obtain ⟨rfl, rfl⟩ := hr
    exact ⟨G, V, A, h.stage (by simp [hl]) (by simp [hl, Lifecycle.isBumped]) ⟨rfl, rfl, rfl, rfl, rfl, rfl⟩
      (List.Subset.refl _) (List.Subset.refl _) (List.Subset.refl _) (by simp)⟩
  | drainVideo create =>
    simp only [hl, Lifecycle.step] at hr
    split at hr <;> obtain ⟨rfl, rfl⟩ := Prod.mk.inj (Option.some.inj hr)
    · exact ⟨G, V, A, h.stage (by simp [hl]) (by simp [hl, Lifecycle.isBumped]) ⟨rfl, rfl, rfl, rfl, rfl, rfl⟩
        (List.Subset.refl _) (List.Subset.refl _) (List.Subset.refl _) (by simp)⟩
    · rename_i queued rest hv
      exact ⟨G, V, A, h.stage (by simp [hl]) (by simp [hl, Lifecycle.isBumped]) ⟨rfl, rfl, rfl, rfl, rfl, rfl⟩
        (by simp [Globals.putSampleBuf, hv]) (List.Subset.refl _) (List.Subset.refl _) (by simp)⟩
  | drainAudio create =>
    simp only [hl, Lifecycle.step] at hr
    split at hr <;> obtain ⟨rfl, rfl⟩ := Prod.mk.inj (Option.some.inj hr)
    · exact ⟨G, V, A, h.stage (by simp [hl]) (by simp [hl, Lifecycle.isBumped]) ⟨rfl, rfl, rfl, rfl, rfl, rfl⟩
        (List.Subset.refl _) (List.Subset.refl _) (List.Subset.refl _) (by split <;> simp)⟩
    · rename_i p rest ha
      exact ⟨G, V, A, h.stage (by simp [hl]) (by simp [hl, Lifecycle.isBumped]) ⟨rfl, rfl, rfl, rfl, rfl, rfl⟩
        (List.Subset.refl _) (by simp [ha]) (List.Subset.refl _) (by simp)⟩
  | clearQueues =>
    simp only [hl, Lifecycle.step, Option.some.injEq, Prod.mk.injEq] at hr
    obtain ⟨rfl, rfl⟩ := hr
    exact ⟨G, V, A, h.stage (by simp [hl]) (by simp [hl, Lifecycle.isBumped]) ⟨rfl, rfl, rfl, rfl, rfl, rfl⟩
      (List.Subset.refl _) (List.Subset.refl _) (List.Subset.refl _) (by simp)⟩
  | clearBuffer =>
    simp only [hl, Lifecycle.step, Option.some.injEq, Prod.mk.injEq] at hr
    obtain ⟨rfl, rfl⟩ := hr
    exact ⟨G, V, A, h.stage (by simp [hl]) (by simp [hl, Lifecycle.isBumped]) ⟨rfl, rfl, rfl, rfl, rfl, rfl⟩
      (List.Subset.refl _) (List.Subset.refl _) (List.nil_subset _) (fun _ => rfl)⟩
  | install =>
    simp only [hl, Lifecycle.step, Option.some.injEq, Prod.mk.injEq] at hr
    obtain ⟨rfl, rfl⟩ := hr
    simp only [Layer.Quiet, Lifecycle.Quiet, hl] at hq
    exact scoped_install h hl hq

/-! ### Calls, senders and callbacks -/

/-- What every step but those of a replacement leaves as it is. -/
structure Globals.SameSite (g g' : Globals) : Prop where
  generation : g'.peerGeneration = g.peerGeneration
  peer : g'.peerConnection = g.peerConnection
  videoTrack : g'.videoTrack = g.videoTrack
  audioTrack : g'.audioTrack = g.audioTrack

theorem Globals.SameSite.refl (g : Globals) : g.SameSite g := ⟨rfl, rfl, rfl, rfl⟩

/-- A move beside the replacement: what is in flight after it stays with its peer. -/
theorem Scoped.beside (h : Scoped G V A s) (hl : s'.lifecycle = s.lifecycle) (hg : s.g.SameSite s'.g)
    (hu : ∀ c ∈ s'.videoCalls, ∀ p ∈ c.unstamped, p + 1 = V ∧ G = s.g.peerGeneration)
    (hst : ∀ q ∈ s'.stamped, q.Scoped G V) (hpa : ∀ q ∈ s'.videoSender.passed, q.checkedAt + 1 = V)
    (hpk : ∀ p ∈ s'.packets, p.checkedAt + 1 = A)
    (hc : s.lifecycle = .install → s'.g.audioConnectionBuffer ⊆ s.g.audioConnectionBuffer)
    (hv : ∀ w ∈ s'.g.videoWritten ++ s'.videoSender.writing, w.1 = w.2.checkedAt)
    (ha : ∀ w ∈ s'.g.audioWritten ++ s'.audioSender.writing, w.1 = w.2.checkedAt) : Scoped G V A s' where
  generation := hg.generation ▸ h.generation
  bumped := by rw [hl, hg.generation]; exact h.bumped
  current := by rw [hl, hg.peer, hg.generation, hg.audioTrack]; exact h.current
  videoTrack := by rw [hg.videoTrack]; exact h.videoTrack
  audioTrack := by rw [hg.audioTrack]; exact h.audioTrack
  unstamped := by rw [hg.generation]; exact hu
  stamped := hst
  passed := hpa
  packets := hpk
  cleared := fun hi => by
    rw [hl] at hi
    exact List.eq_nil_of_subset_nil (h.cleared hi ▸ hc hi)
  video := hv
  audio := ha

section call
variable (c : VideoCall) (g : Globals)

/-- What a call may do to the globals. -/
theorem VideoCall.step_frame : ∃ queue pending accepted dropped returned, (c.step g).2 =
    { g with
      videoSendQueue := queue
      videoPendingDrops := pending
      accepted := accepted
      dropped := dropped
      returned := returned } := by
  cases c with
  | push q => simp only [VideoCall.step]; split <;> exact ⟨_, _, _, _, _, rfl⟩
  | receiveOldest q =>
    simp only [VideoCall.step]
    split
    · exact ⟨_, _, _, _, _, rfl⟩
    · split <;> exact ⟨_, _, _, _, _, rfl⟩
  | pushBack q o => simp only [VideoCall.step]; split <;> exact ⟨_, _, _, _, _, rfl⟩
  | pushReplacement q => simp only [VideoCall.step]; split <;> exact ⟨_, _, _, _, _, rfl⟩
  | casPending count current => simp only [VideoCall.step]; split <;> exact ⟨_, _, _, _, _, rfl⟩
  | _ => exact ⟨_, _, _, _, _, rfl⟩

/-- A call that is to be stamped was so before, or was checked in this step. -/
theorem VideoCall.step_unstamped {p : PeerId} (hp : (c.step g).1.unstamped = some p) :
    c.unstamped = some p ∨ g.peerConnection = some p := by
  cases c with
  | check a =>
    rcases a.check_cases g with ⟨code, hc⟩ | ⟨peer, hc, hpeer, -⟩ <;> simp only [VideoCall.step, hc] at hp
    · cases hp
    · obtain rfl := Option.some.inj hp
      exact .inr hpeer
  | swapPending a peer => exact .inl hp
  | push q => simp only [VideoCall.step] at hp; split at hp <;> cases hp
  | receiveOldest q =>
    simp only [VideoCall.step] at hp
    split at hp
    · cases hp
    · split at hp <;> cases hp
  | pushBack q o => simp only [VideoCall.step] at hp; split at hp <;> cases hp
  | pushReplacement q => simp only [VideoCall.step] at hp; split at hp <;> cases hp
  | casPending count current => simp only [VideoCall.step] at hp; split at hp <;> cases hp
  | _ => cases hp

/-- A property of the generation and the peer of a sample that the queue, the call and its stamp have is kept. -/
theorem VideoCall.step_samples {P : Nat → PeerId → Prop}
    (hq : ∀ q ∈ g.videoSendQueue ++ c.samples, P q.generation q.checkedAt)
    (hu : ∀ p ∈ c.unstamped, P g.peerGeneration p) :
    ∀ q ∈ (c.step g).2.videoSendQueue ++ (c.step g).1.samples, P q.generation q.checkedAt := by
  have hq' : ∀ q ∈ g.videoSendQueue, P q.generation q.checkedAt := fun q h => hq q (List.mem_append_left _ h)
  have hc : ∀ q ∈ c.samples, P q.generation q.checkedAt := fun q h => hq q (List.mem_append_right _ h)
  cases c with
  | check a =>
    rcases a.check_cases g with ⟨code, hc⟩ | ⟨peer, hc, -⟩ <;> simpa [VideoCall.step, hc, VideoCall.samples] using hq'
  | swapPending a peer => simpa [VideoCall.step, VideoCall.samples] using hq'
  | loadGeneration a peer id d =>
    have hp : P g.peerGeneration peer := hu peer rfl
    simp only [VideoCall.step, VideoCall.samples]
    exact List.forall_mem_append.2 ⟨hq', by simpa using hp⟩
  | push q =>
    simp only [VideoCall.step]
    split
    · simpa [Globals.push, VideoCall.samples] using hq
    · exact hq
  | receiveOldest q =>
    simp only [VideoCall.step]
    split
    · simpa [Globals.drop, VideoCall.samples] using hq'
    · rename_i o rest hr
      have ho : P o.generation o.checkedAt := hq' o (by simp [hr])
      have hrest : ∀ x ∈ rest, P x.generation x.checkedAt := fun x hx => hq' x (by simp [hr, hx])
      have hq1 : P q.generation q.checkedAt := hc q (by simp [VideoCall.samples])
      split
      · exact List.forall_mem_append.2 ⟨hrest, by simpa [VideoCall.samples] using ⟨hq1, ho⟩⟩
      · exact List.forall_mem_append.2 ⟨hrest, by simpa [VideoCall.samples, QueuedVideoSample.replacing] using hq1⟩
  | pushBack q o =>
    have hq1 : P q.generation q.checkedAt := hc q (by simp [VideoCall.samples])
    have ho : P o.generation o.checkedAt := hc o (by simp [VideoCall.samples])
    simp only [VideoCall.step]
    split
    · simp only [Globals.drop, Globals.push, VideoCall.samples, List.append_nil]
      exact List.forall_mem_append.2 ⟨hq', by simpa using ho⟩
    · exact List.forall_mem_append.2 ⟨hq', by simpa [VideoCall.samples, QueuedVideoSample.replacing] using hq1⟩
  | pushReplacement q =>
    have hq1 : P q.generation q.checkedAt := hc q (by simp [VideoCall.samples])
    simp only [VideoCall.step]
    split
    · simp only [Globals.push, VideoCall.samples, List.append_nil]
      exact List.forall_mem_append.2 ⟨hq', by simpa using hq1⟩
    · simpa [Globals.drop, VideoCall.samples] using hq'
  | loadPending count => simpa [VideoCall.step, VideoCall.samples] using hq'
  | casPending count current =>
    simp only [VideoCall.step]
    split <;> simpa [VideoCall.samples] using hq'
  | ret code => exact hq

end call

theorem mem_flatMap_set {α β : Type} {f : α → List β} {l : List α} {i : Nat} {a : α} {b : β}
    (h : b ∈ (l.set i a).flatMap f) : b ∈ f a ∨ b ∈ l.flatMap f := by
  obtain ⟨x, hx, hb⟩ := List.mem_flatMap.1 h
  rcases List.mem_or_eq_of_mem_set hx with hx | rfl
  · exact .inr (List.mem_flatMap.2 ⟨x, hx, hb⟩)
  · exact .inl hb

theorem scoped_video (h : Scoped G V A s) {i : Nat} (hs : s.step goType (.video i) = some s') : Scoped G V A s' := by
  obtain ⟨c, hc, rfl⟩ := Option.map_eq_some_iff.1 hs
  have hmem : c ∈ s.videoCalls := List.mem_of_getElem? hc
  obtain ⟨queue, pending, accepted, dropped, returned, hg⟩ := c.step_frame s.g
  have hun : ∀ p ∈ (c.step s.g).1.unstamped, p + 1 = V ∧ G = s.g.peerGeneration := fun p hp => by
    rcases c.step_unstamped s.g hp with hp | hp
    · exact h.unstamped c hmem p hp
    · exact ⟨(h.current p hp).2.1, (h.current p hp).2.2.1⟩
  have hst : ∀ q ∈ (c.step s.g).2.videoSendQueue ++ (c.step s.g).1.samples, q.Scoped G V := by
    refine c.step_samples s.g (P := fun g p => g ≤ G ∧ (g = G → p + 1 = V)) (fun q hq => h.stamped q ?_) fun p hp => ?_
    · rcases List.mem_append.1 hq with hq | hq
      · simp [Layer.stamped, hq]
      · exact List.mem_append_left _ (List.mem_append_right _ (List.mem_flatMap.2 ⟨c, hmem, hq⟩))
    · have := h.unstamped c hmem p hp
      exact ⟨Nat.le_of_eq this.2.symm, fun _ => this.1⟩
  refine h.beside rfl (hg ▸ ⟨rfl, rfl, rfl, rfl⟩) ?_ ?_ h.passed ?_ ?_ ?_ ?_
  · intro c' hc' p hp
    rcases List.mem_or_eq_of_mem_set hc' with hc' | rfl
    · exact h.unstamped c' hc' p hp
    · exact hun p hp
  · intro q hq
    rcases List.mem_append.1 hq with hq | hq
    · rcases List.mem_append.1 hq with hq | hq
      · exact hst q (List.mem_append_left _ hq)
      · rcases mem_flatMap_set hq with hq | hq
        · exact hst q (List.mem_append_right _ hq)
        · exact h.stamped q (List.mem_append_left _ (List.mem_append_right _ hq))
    · exact h.stamped q (List.mem_append_right _ hq)
  · simpa [Layer.packets, hg] using h.packets
  · exact fun _ => hg ▸ List.Subset.refl _
  · simpa [hg] using h.video
  · simpa [hg] using h.audio

/-! ### Audio -/

/-- `enqueueLatestAudioPacket` touches the audio queue only, and keeps to the packets there were. -/
theorem Enqueue.step_held (e : Enqueue) (g : Globals) :
    (∃ queue, (e.step g).2 = { g with audioSendQueue := queue }) ∧
      (e.step g).2.audioSendQueue ++ (e.step g).1.held ⊆ g.audioSendQueue ++ e.held := by
  cases e with
  | push p =>
    simp only [Enqueue.step]
    split
    · exact ⟨⟨_, rfl⟩, by simp [Globals.pushAudio, Enqueue.held]⟩
    · exact ⟨⟨_, rfl⟩, List.Subset.refl _⟩
  | evictStale p =>
    refine ⟨⟨_, rfl⟩, ?_⟩
    exact List.append_subset.2 ⟨fun x hx => List.mem_append_left _ (List.mem_of_mem_tail hx),
      List.subset_append_right _ _⟩
  | pushAgain p =>
    simp only [Enqueue.step]
    split
    · exact ⟨⟨_, rfl⟩, by simp [Globals.pushAudio, Enqueue.held]⟩
    · exact ⟨⟨_, rfl⟩, by simp [Enqueue.held]⟩
  | done queued => exact ⟨⟨_, rfl⟩, List.Subset.refl _⟩

/-- What a step on the audio packets may do to the globals. -/
structure Globals.SameVideo (g g' : Globals) : Prop extends g.SameSite g' where
  videoSendQueue : g'.videoSendQueue = g.videoSendQueue
  videoWritten : g'.videoWritten = g.videoWritten
  audioWritten : g'.audioWritten = g.audioWritten

/-- A move on the packets alone: those after it were there before, or were checked in it. -/
theorem Scoped.packetMove (h : Scoped G V A s) {g : Globals} {audioCalls : List AudioCall} {callbacks : List Callback}
    (hg : s.g.SameVideo g)
    (hp : ∀ p ∈ ({ s with g := g, audioCalls := audioCalls, callbacks := callbacks } : Layer).packets,
      p ∈ s.packets ∨ s.g.audioTrack ≠ none ∧ s.g.peerConnection = some p.checkedAt)
    (hc : s.lifecycle = .install → g.audioConnectionBuffer ⊆ s.g.audioConnectionBuffer) :
    Scoped G V A { s with g := g, audioCalls := audioCalls, callbacks := callbacks } := by
  refine h.beside rfl hg.toSameSite h.unstamped ?_ h.passed ?_ hc ?_ ?_
  · simpa [Layer.stamped, hg.videoSendQueue] using h.stamped
  · intro p hm
    rcases hp p hm with hm | ⟨ht, hpeer⟩
    · exact h.packets p hm
    · obtain ⟨t, ht⟩ := Option.ne_none_iff_exists'.1 ht
      have : t = p.checkedAt := (h.current _ hpeer).2.2.2 t ht
      exact this ▸ h.audioTrack t ht
  · exact fun w hw => h.video w (hg.videoWritten ▸ hw)
  · exact fun w hw => h.audio w (hg.audioWritten ▸ hw)

/-- What a call may do to the globals. -/
theorem AudioCall.step_frame (c : AudioCall) (g : Globals) : ∃ queue buffer, (c.step g).2 =
    { g with
      audioSendQueue := queue
      audioConnectionBuffer := buffer } := by
  cases c with
  | check a =>
    simp only [AudioCall.step, AudioArgs.check]
    split
    · exact ⟨_, _, rfl⟩
    · split
      · split <;> exact ⟨_, _, rfl⟩
      · exact ⟨_, _, rfl⟩
  | enqueue e =>
    obtain ⟨⟨queue, hg⟩, -⟩ := e.step_held g
    cases e with
    | done queued => exact ⟨_, _, rfl⟩
    | _ => exact ⟨queue, g.audioConnectionBuffer, hg⟩
  | ret code => exact ⟨_, _, rfl⟩

/-- The packets of a step: those it found, and the one it checks. -/
theorem AudioCall.step_packets (c : AudioCall) (g : Globals) :
    (∀ p ∈ (c.step g).2.audioSendQueue ++ (c.step g).2.audioConnectionBuffer ++ (c.step g).1.held,
      p ∈ g.audioSendQueue ++ g.audioConnectionBuffer ++ c.held ∨
        g.audioTrack ≠ none ∧ g.peerConnection = some p.checkedAt) ∧
    (g.peerConnection = none → (c.step g).2.audioConnectionBuffer = g.audioConnectionBuffer) := by
  cases c with
  | check a =>
    simp only [AudioCall.step, AudioArgs.check]
    split
    · exact ⟨fun p hp => .inl hp, fun _ => rfl⟩
    · split
      · rename_i peer track hpeer htrack
        have ht : g.audioTrack ≠ none := by simp [htrack]
        split
        · refine ⟨fun p hp => ?_, fun hn => by simp [hn] at hpeer⟩
          simp only [Globals.bufferAudio, AudioCall.held, List.append_nil, List.mem_append, List.mem_singleton] at hp ⊢
          rcases hp with hp | hp | rfl
          · exact .inl (.inl hp)
          · refine .inl (.inr ?_)
            split at hp
            · exact hp
            · exact List.mem_of_mem_tail hp
          · exact .inr ⟨ht, hpeer⟩
        · refine ⟨fun p hp => ?_, fun _ => rfl⟩
          rcases List.mem_append.1 hp with hp | hp
          · exact .inl (List.mem_append_left _ hp)
          · obtain rfl := List.mem_singleton.1 hp
            exact .inr ⟨ht, hpeer⟩
      · exact ⟨fun p hp => .inl hp, fun _ => rfl⟩
  | enqueue e =>
    obtain ⟨⟨queue, hg⟩, hsub⟩ := e.step_held g
    have hbuf : (e.step g).2.audioConnectionBuffer = g.audioConnectionBuffer := by rw [hg]
    have hstep : ∀ p ∈ (e.step g).2.audioSendQueue ++ (e.step g).2.audioConnectionBuffer ++ (e.step g).1.held,
        p ∈ g.audioSendQueue ++ g.audioConnectionBuffer ++ e.held := by
      intro p hp
      have := @hsub p
      simp only [hbuf, List.mem_append] at hp this ⊢
      grind
    cases e with
    | done queued => exact ⟨fun p hp => .inl hp, fun _ => rfl⟩
    | _ => exact ⟨fun p hp => .inl (hstep p hp), fun _ => hbuf⟩
  | ret code => exact ⟨fun p hp => .inl hp, fun _ => rfl⟩

theorem scoped_audio (h : Scoped G V A s) {i : Nat} (hs : s.step goType (.audio i) = some s') : Scoped G V A s' := by
  obtain ⟨c, hc, rfl⟩ := Option.map_eq_some_iff.1 hs
  have hmem : c ∈ s.audioCalls := List.mem_of_getElem? hc
  obtain ⟨queue, buffer, hg⟩ := c.step_frame s.g
  obtain ⟨hstep, hbuf⟩ := c.step_packets s.g
  have hold : s.g.audioSendQueue ++ s.g.audioConnectionBuffer ++ c.held ⊆ s.packets := by
    intro p hp
    have : p ∈ c.held → p ∈ s.audioCalls.flatMap (·.held) := fun hp => List.mem_flatMap.2 ⟨c, hmem, hp⟩
    simp only [Layer.packets, List.mem_append] at hp ⊢
    grind
  refine h.packetMove (hg ▸ ⟨⟨rfl, rfl, rfl, rfl⟩, rfl, rfl, rfl⟩) (fun p hp => ?_) fun hi => ?_
  · have hin : p ∈ (c.step s.g).2.audioSendQueue ++ (c.step s.g).2.audioConnectionBuffer ++ (c.step s.g).1.held ∨
        p ∈ s.packets := by
      have hset := @mem_flatMap_set _ _ AudioCall.held s.audioCalls i (c.step s.g).1 p
      simp only [Layer.packets, List.mem_append] at hp ⊢
      grind
    rcases hin with hin | hin
    · exact (hstep p hin).imp_left fun hin => hold hin
    · exact .inl hin
  · rw [hbuf (peer_none h (by simp [hi]))]
    exact List.Subset.refl _

/-! ### Callbacks -/

theorem Globals.enqueue_media (goType : Payload → String) (g : Globals) (mouse : Bool) (m : Message) :
    ∃ keys mice, g.enqueue goType mouse m = { g with messageQueue := keys, mouseQueue := mice } := by
  unfold Globals.enqueue
  split <;> exact ⟨_, _, rfl⟩

variable (goType) in
/-- A callback adds no packet. -/
theorem Callback.step_packets (c : Callback) (g : Globals) : g.SameVideo (c.step goType g).2 ∧
    (c.step goType g).2.audioSendQueue ++ (c.step goType g).2.audioConnectionBuffer ++ (c.step goType g).1.held ⊆
      g.audioSendQueue ++ g.audioConnectionBuffer ++ c.held ∧
    (c.step goType g).2.audioConnectionBuffer ⊆ g.audioConnectionBuffer := by
  have hsame : g.SameVideo g := ⟨.refl g, rfl, rfl, rfl⟩
  have hqueue : ∀ mouse m, g.SameVideo (g.enqueue goType mouse m) ∧
      (g.enqueue goType mouse m).audioSendQueue ++ (g.enqueue goType mouse m).audioConnectionBuffer ++ [] ⊆
        g.audioSendQueue ++ g.audioConnectionBuffer ++ [] ∧
      (g.enqueue goType mouse m).audioConnectionBuffer ⊆ g.audioConnectionBuffer := by
    intro mouse m
    obtain ⟨keys, mice, he⟩ := g.enqueue_media goType mouse m
    rw [he]
    exact ⟨⟨⟨rfl, rfl, rfl, rfl⟩, rfl, rfl, rfl⟩, List.Subset.refl _, List.Subset.refl _⟩
  cases c with
  | setState peer state =>
    refine ⟨⟨⟨rfl, rfl, rfl, rfl⟩, rfl, rfl, rfl⟩, ?_, List.Subset.refl _⟩
    simp only [Callback.step]
    repeat' split
    all_goals exact List.Subset.refl _
  | flush =>
    simp only [Callback.step]
    split
    · exact ⟨hsame, List.Subset.refl _, List.Subset.refl _⟩
    · rename_i p rest hb
      exact ⟨⟨⟨rfl, rfl, rfl, rfl⟩, rfl, rfl, rfl⟩, by simp [Callback.held, Enqueue.held, hb], List.nil_subset _⟩
  | enqueue e rest =>
    obtain ⟨⟨queue, hg⟩, hsub⟩ := e.step_held g
    have hstep : (e.step g).2.audioSendQueue ++ g.audioConnectionBuffer ++ ((e.step g).1.held ++ rest) ⊆
        g.audioSendQueue ++ g.audioConnectionBuffer ++ (e.held ++ rest) := by
      intro p hp
      have := @hsub p
      simp only [List.mem_append] at hp this ⊢
      grind
    have hsame' : g.SameVideo (e.step g).2 := by rw [hg]; exact ⟨⟨rfl, rfl, rfl, rfl⟩, rfl, rfl, rfl⟩
    have hbuf : (e.step g).2.audioConnectionBuffer = g.audioConnectionBuffer := by rw [hg]
    cases e with
    | done queued =>
      cases rest with
      | nil => exact ⟨hsame, List.Subset.refl _, List.Subset.refl _⟩
      | cons p rest => exact ⟨hsame, List.Subset.refl _, List.Subset.refl _⟩
    | push p => exact ⟨hsame', fun x hx => hstep (hbuf ▸ hx), fun x hx => hbuf ▸ hx⟩
    | evictStale p => exact ⟨hsame', fun x hx => hstep (hbuf ▸ hx), fun x hx => hbuf ▸ hx⟩
    | pushAgain p => exact ⟨hsame', fun x hx => hstep (hbuf ▸ hx), fun x hx => hbuf ▸ hx⟩
  | openChannel c mouse =>
    cases mouse <;> exact ⟨⟨⟨rfl, rfl, rfl, rfl⟩, rfl, rfl, rfl⟩, List.Subset.refl _, List.Subset.refl _⟩
  | message c mouse p => exact hqueue mouse _
  | close c mouse =>
    cases mouse <;> exact ⟨⟨⟨rfl, rfl, rfl, rfl⟩, rfl, rfl, rfl⟩, List.Subset.refl _, List.Subset.refl _⟩
  | error c mouse => exact hqueue mouse _
  | reset mouse reason => exact hqueue mouse _
  | done => exact ⟨hsame, List.Subset.refl _, List.Subset.refl _⟩

theorem scoped_resume (h : Scoped G V A s) {i : Nat} (hs : s.step goType (.resume i) = some s') : Scoped G V A s' := by
  obtain ⟨c, hc, rfl⟩ := Option.map_eq_some_iff.1 hs
  have hmem : c ∈ s.callbacks := List.mem_of_getElem? hc
  obtain ⟨hsame, hstep, hbuf⟩ := c.step_packets goType s.g
  refine h.packetMove hsame (fun p hp => .inl ?_) fun _ => hbuf
  have hin : p ∈ s.g.audioSendQueue ++ s.g.audioConnectionBuffer ++ c.held ∨ p ∈ s.packets := by
    have hset := @mem_flatMap_set _ _ Callback.held s.callbacks i (c.step goType s.g).1 p
    have hs' := @hstep p
    simp only [Layer.packets, List.mem_append] at hp hs' ⊢
    grind
  have : p ∈ c.held → p ∈ s.callbacks.flatMap (·.held) := fun hp => List.mem_flatMap.2 ⟨c, hmem, hp⟩
  simp only [Layer.packets, List.mem_append] at hin ⊢
  grind

/-! ### Senders -/

theorem scoped_videoSender (h : Scoped G V A s) (hs : s.step goType .videoSender = some s') : Scoped G V A s' := by
  obtain ⟨⟨v, g⟩, hr, rfl⟩ := Option.map_eq_some_iff.1 hs
  obtain ⟨hstamped, hpassed, hvideo⟩ : _ ∧ _ ∧ _ := ⟨h.stamped, h.passed, h.video⟩
  simp only [Layer.stamped] at hstamped
  cases hv : s.videoSender with
  | idle =>
    simp only [hv, VideoSender.step] at hr
    split at hr
    · cases hr
    · rename_i q rest hq
      obtain ⟨rfl, rfl⟩ := Prod.mk.inj (Option.some.inj hr)
      refine h.beside rfl ⟨rfl, rfl, rfl, rfl⟩ h.unstamped (fun x hx => ?_) (by simp [VideoSender.passed]) h.packets
        (fun _ => List.Subset.refl _) (by simpa [hv, VideoSender.writing] using hvideo) h.audio
      refine hstamped x ?_
      simp only [Layer.stamped, hq, hv, List.mem_append, List.mem_cons, List.not_mem_nil, or_false] at hx ⊢
      grind
  | testGeneration q =>
    simp only [hv, VideoSender.step, Option.some.injEq, Prod.mk.injEq] at hr
    obtain ⟨rfl, rfl⟩ := hr
    have hq : q.Scoped G V := hstamped q (by simp [hv])
    have hrest : ∀ x ∈ s.g.videoSendQueue ++ s.videoCalls.flatMap (·.samples), x.Scoped G V :=
      fun x hx => hstamped x (List.mem_append_left _ hx)
    have hw : ∀ w ∈ s.g.videoWritten, w.1 = w.2.checkedAt := fun w hw => hvideo w (List.mem_append_left _ hw)
    split
    · rename_i heq
      refine h.beside rfl (.refl _) h.unstamped (by simpa [Layer.stamped] using hrest) ?_ h.packets
        (fun _ => List.Subset.refl _) (by simpa [VideoSender.writing] using hw) h.audio
      rintro x hx
      obtain rfl := Option.some.inj hx
      have := h.generation
      exact hq.2 (Nat.le_antisymm hq.1 (heq ▸ this))
    · exact h.beside rfl (.refl _) h.unstamped (by simpa [Layer.stamped] using hrest) (by simp [VideoSender.passed])
        h.packets (fun _ => List.Subset.refl _) (by simpa [VideoSender.writing] using hw) h.audio
  | loadTrack q =>
    simp only [hv, VideoSender.step, Option.some.injEq, Prod.mk.injEq] at hr
    obtain ⟨rfl, rfl⟩ := hr
    have hq : q.checkedAt + 1 = V := hpassed q (by simp [hv, VideoSender.passed])
    refine h.beside rfl (.refl _) h.unstamped ?_ (by simp [VideoSender.passed]) h.packets
      (fun _ => List.Subset.refl _) ?_ h.audio
    · simpa [Layer.stamped, hv] using hstamped
    · refine List.forall_mem_append.2 ⟨fun w hw => hvideo w (List.mem_append_left _ hw), fun w hw => ?_⟩
      simp only [VideoSender.writing, Option.mem_toList, Option.map_eq_some_iff] at hw
      obtain ⟨t, ht, rfl⟩ := hw
      exact Nat.add_right_cancel ((h.videoTrack t ht).trans hq.symm)
  | write q track =>
    simp only [hv, VideoSender.step, Option.some.injEq, Prod.mk.injEq] at hr
    obtain ⟨rfl, rfl⟩ := hr
    exact h.beside rfl ⟨rfl, rfl, rfl, rfl⟩ h.unstamped (by simpa [Layer.stamped, hv] using hstamped)
      (by simp [VideoSender.passed]) h.packets (fun _ => List.Subset.refl _)
      (by simpa [hv, VideoSender.writing] using hvideo) h.audio
  | putBuf q =>
    simp only [hv, VideoSender.step, Option.some.injEq, Prod.mk.injEq] at hr
    obtain ⟨rfl, rfl⟩ := hr
    exact h.beside rfl ⟨rfl, rfl, rfl, rfl⟩ h.unstamped
      (by simpa [Layer.stamped, hv, Globals.putSampleBuf] using hstamped) (by simp [VideoSender.passed]) h.packets
      (fun _ => List.Subset.refl _) (by simpa [hv, VideoSender.writing, Globals.putSampleBuf] using hvideo) h.audio

theorem scoped_audioSender (h : Scoped G V A s) (hs : s.step goType .audioSender = some s') : Scoped G V A s' := by
  obtain ⟨⟨v, g⟩, hr, rfl⟩ := Option.map_eq_some_iff.1 hs
  have hpackets := h.packets
  have haudio := h.audio
  simp only [Layer.packets] at hpackets
  cases hv : s.audioSender with
  | idle =>
    simp only [hv, AudioSender.step] at hr
    split at hr
    · cases hr
    · rename_i p rest hq
      obtain ⟨rfl, rfl⟩ := Prod.mk.inj (Option.some.inj hr)
      refine h.beside rfl ⟨rfl, rfl, rfl, rfl⟩ h.unstamped h.stamped h.passed (fun x hx => hpackets x ?_)
        (fun _ => List.Subset.refl _) h.video (by simpa [hv, AudioSender.writing] using haudio)
      simp only [Layer.packets, AudioSender.held, hq, hv, List.mem_append, List.mem_cons, List.not_mem_nil,
        or_false] at hx ⊢
      grind
  | loadTrack p =>
    simp only [hv, AudioSender.step, Option.some.injEq, Prod.mk.injEq] at hr
    obtain ⟨rfl, rfl⟩ := hr
    have hp : p.checkedAt + 1 = A := hpackets p (by simp [hv, AudioSender.held])
    refine h.beside rfl (.refl _) h.unstamped h.stamped h.passed (fun x hx => hpackets x ?_)
      (fun _ => List.Subset.refl _) h.video ?_
    · simp only [Layer.packets, AudioSender.held, List.append_nil] at hx
      exact List.mem_append_left _ hx
    · refine List.forall_mem_append.2 ⟨fun w hw => haudio w (List.mem_append_left _ hw), fun w hw => ?_⟩
      simp only [AudioSender.writing, Option.mem_toList, Option.map_eq_some_iff] at hw
      obtain ⟨t, ht, rfl⟩ := hw
      exact Nat.add_right_cancel ((h.audioTrack t ht).trans hp.symm)
  | write p track =>
    simp only [hv, AudioSender.step, Option.some.injEq, Prod.mk.injEq] at hr
    obtain ⟨rfl, rfl⟩ := hr
    refine h.beside rfl ⟨rfl, rfl, rfl, rfl⟩ h.unstamped h.stamped h.passed (fun x hx => hpackets x ?_)
      (fun _ => List.Subset.refl _) h.video (by simpa [hv, AudioSender.writing] using haudio)
    simp only [Layer.packets, AudioSender.held, List.append_nil] at hx
    exact List.mem_append_left _ hx

/-! ## Media of the peer -/

theorem Globals.pollKey_eq (g : Globals) :
    ∃ keys polled, g.pollKey = { g with messageQueue := keys, polled := polled } := by
  unfold Globals.pollKey
  split <;> exact ⟨_, _, rfl⟩

theorem Globals.pollMouse_eq (g : Globals) :
    ∃ mice polled, g.pollMouse = { g with mouseQueue := mice, polled := polled } := by
  unfold Globals.pollMouse
  split <;> exact ⟨_, _, rfl⟩

theorem scoped_step (h : Scoped G V A s) {m : Move} (hq : s.Quiet m) (hs : s.step goType m = some s') :
    ∃ G V A, Scoped G V A s' := by
  cases m with
  | createPeerConnection =>
    simp only [Layer.step] at hs
    split at hs
    · exact Option.some.inj hs ▸ ⟨G, V, A, scoped_unset h .new true⟩
    · cases hs
  | closePeerConnection =>
    simp only [Layer.step] at hs
    split at hs
    · exact Option.some.inj hs ▸ ⟨G, V, A, scoped_unset h .closed false⟩
    · cases hs
  | lifecycle o => exact scoped_lifecycle h hq hs
  | sendVideoSample a =>
    obtain rfl := Option.some.inj hs
    refine ⟨G, V, A, h.beside rfl (.refl _) (fun c hc p hp => ?_) ?_ h.passed h.packets
      (fun _ => List.Subset.refl _) h.video h.audio⟩
    · rcases List.mem_append.1 hc with hc | hc
      · exact h.unstamped c hc p hp
      · obtain rfl := List.mem_singleton.1 hc
        cases hp
    · simpa [Layer.stamped, VideoCall.samples] using h.stamped
  | video i => exact ⟨G, V, A, scoped_video h hs⟩
  | sendAudioPacket a =>
    obtain rfl := Option.some.inj hs
    refine ⟨G, V, A, h.packetMove ⟨.refl _, rfl, rfl, rfl⟩ (fun p hp => .inl ?_) fun _ => List.Subset.refl _⟩
    simpa [Layer.packets, AudioCall.held] using hp
  | audio i => exact ⟨G, V, A, scoped_audio h hs⟩
  | callback c =>
    simp only [Layer.step] at hs
    split at hs
    · rename_i hpeer
      obtain rfl := Option.some.inj hs
      have hheld : c.held = [] := by cases c <;> first | rfl | simp [Callback.peer?] at hpeer
      refine ⟨G, V, A, h.packetMove ⟨.refl _, rfl, rfl, rfl⟩ (fun p hp => .inl ?_) fun _ => List.Subset.refl _⟩
      simpa [Layer.packets, hheld] using hp
    · cases hs
  | resume i => exact ⟨G, V, A, scoped_resume h hs⟩
  | videoSender => exact ⟨G, V, A, scoped_videoSender h hs⟩
  | audioSender => exact ⟨G, V, A, scoped_audioSender h hs⟩
  | pollKey =>
    obtain ⟨keys, polled, he⟩ := s.g.pollKey_eq
    simp only [Layer.step, he, Option.some.injEq] at hs
    exact hs ▸ ⟨G, V, A, h.beside rfl ⟨rfl, rfl, rfl, rfl⟩ h.unstamped h.stamped h.passed h.packets
      (fun _ => List.Subset.refl _) h.video h.audio⟩
  | pollMouse =>
    obtain ⟨mice, polled, he⟩ := s.g.pollMouse_eq
    simp only [Layer.step, he, Option.some.injEq] at hs
    exact hs ▸ ⟨G, V, A, h.beside rfl ⟨rfl, rfl, rfl, rfl⟩ h.unstamped h.stamped h.passed h.packets
      (fun _ => List.Subset.refl _) h.video h.audio⟩

/-- What was written to the track of a peer was checked while the peer was current. -/
def Layer.WrittenScoped (s : Layer) : Prop :=
  (∀ w ∈ s.g.videoWritten, w.1 = w.2.checkedAt) ∧ ∀ w ∈ s.g.audioWritten, w.1 = w.2.checkedAt

end steps

/-- **No media crosses the peers**, in every run in which the peer is replaced only where nothing is caught in
between. -/
theorem written_scoped (goType : Payload → String) (ms : List Move)
    (h : Along (Layer.step goType) Layer.Quiet {} ms) : Throughout (Layer.step goType) Layer.WrittenScoped {} ms := by
  have hscoped : Throughout (Layer.step goType) (fun s => ∃ G V A, Scoped G V A s) {} ms :=
    .of_along (fun _ _ _ ⟨_, _, _, hi⟩ hq hs => scoped_step hi hq hs) ⟨0, 0, 0, scoped_initial⟩ h
  refine hscoped.mono fun s ⟨G, V, A, hi⟩ => ⟨fun w hw => ?_, fun w hw => ?_⟩
  · exact hi.video w (List.mem_append_left _ hw)
  · exact hi.audio w (List.mem_append_left _ hw)

/-! ### Runs -/

/-- `createPeerConnectionGo` from its call to its return. -/
def creation : List Move := .createPeerConnection :: List.replicate 7 (.lifecycle (.created true))

/-- The peer tells that it is connected, in the callback of that number. -/
def connection (peer : PeerId) (callback : Nat) : List Move :=
  [.callback (.setState peer .connected), .resume callback, .resume callback]

/-- A sample is sent, is handed over, and the peer is replaced. -/
def sentThenReplaced : List Move :=
  creation ++ connection 0 0 ++ [.sendVideoSample ⟨true, 1200, 16667, true⟩] ++ List.replicate 4 (.video 0) ++
    List.replicate 5 .videoSender ++ creation

theorem written_scoped_sent : Throughout (Layer.step fun _ => "") Layer.WrittenScoped {} sentThenReplaced :=
  written_scoped _ sentThenReplaced (by decide)

/-- The peer is replaced between the check of a sample and its stamp. -/
def replacedBeforeStamp : List Move :=
  creation ++ connection 0 0 ++ [.sendVideoSample ⟨true, 1200, 16667, true⟩, .video 0] ++ creation ++
    List.replicate 3 (.video 0) ++ List.replicate 5 .videoSender

theorem not_written_scoped : ¬∀ goType ms, Throughout (Layer.step goType) Layer.WrittenScoped {} ms := by
  intro h
  obtain ⟨t, ht, w, hw, hn⟩ : ∃ t ∈ after (Layer.step fun _ => "") {} replacedBeforeStamp,
      ∃ w, t.g.videoWritten = [w] ∧ w.1 ≠ w.2.checkedAt := ⟨_, rfl, _, rfl, by decide⟩
  exact hn (((h _ replacedBeforeStamp).after ht).1 w (by simp [hw]))

end GoMedia
end Host
end CloudGaming
