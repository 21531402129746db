import CloudGaming.Host.Sessions
/-!
# PeerStates — the state of the host and the state of its peer connection

The peer connection of the Go layer beside the host: it is created, closed and called back between two ticks, and a
tick that has a capture on a valid window asks for its state.  `Tick` compares the answer with the one before and moves
the host where they differ; the attachment of a target moves the host as well, and leaves the memory as it is.
-/
namespace CloudGaming
namespace Host

open Async
open CloudGaming.Host.Runtime (HostState Report)

/-! ## The Go layer -/

/-- `webrtc.PeerConnectionState`. -/
inductive PeerConnectionState where
  | unknown | new | connecting | connected | disconnected | failed | closed
  deriving DecidableEq, Repr

/-- `peerConnection` (whether there is one) and `connectionState`. -/
structure GoPeer where
  peerConnection : Bool := false
  connectionState : PeerConnectionState := .unknown

namespace GoPeer

variable (g : GoPeer)

def getPeerConnectionState : Int :=
  if !g.peerConnection then 0
  else
    match g.connectionState with
    | .new => 0
    | .connecting => 1
    | .connected => 3
    | .disconnected => 4
    | .failed => 5
    | .closed => 6
    | .unknown => -1

def closePeerConnection : GoPeer := ⟨false, .closed⟩

/-- `createPeerConnectionGo`; whether it comes to a new one. -/
def createPeerConnectionGo (created : Bool) : GoPeer := ⟨created, .new⟩

/-- The callback of a peer connection, be it the current one or not. -/
def onConnectionStateChange (state : PeerConnectionState) : GoPeer := { g with connectionState := state }

/-- The codes. -/
theorem getPeerConnectionState_cases :
    let p := g.getPeerConnectionState
    p = 3 ∨ p = 1 ∨ (p = 4 ∨ p = 5 ∨ p = 6) ∨ p = 0 ∨ p = -1 := by
  obtain ⟨peerConnection, connectionState⟩ := g
  cases peerConnection <;> cases connectionState <;> decide

end GoPeer

/-! ## The host and its peer -/

namespace HostRuntime

/-- The tick comes to ask for the state of the peer. -/
def Checks (found : HostRuntime) (o : Outside) : Prop :=
  ¬(found.activeSessionId ≠ "" ∧ found.sessionDeadline ≤ o.now) ∧ found.captureStarted ∧ ¬found.windowGone o

instance (found : HostRuntime) (o : Outside) : Decidable (found.Checks o) := inferInstanceAs (Decidable (_ ∧ _))

end HostRuntime

/-- The host beside the Go layer.  History: `fresh` tells that no tick has asked for the state of the peer since the
target was attached, and `checked` is what the last tick was answered. -/
structure Peered where
  host : HostRuntime
  go : GoPeer
  fresh : Bool := true
  checked : Option Int := none

inductive PeerMove where
  | runtime (m : RuntimeMove)
  | createPeerConnectionGo (created : Bool)
  | closePeerConnection
  | onConnectionStateChange (state : PeerConnectionState)

namespace Peered

variable (s : Peered)

/-- The host, with what `getPeerConnectionState` answers it. -/
def asked : HostRuntime := { s.host with peer := s.go.getPeerConnectionState }

/-- A tick that stops the client closes the peer connection. -/
def goAfter (left : HostRuntime) : GoPeer :=
  if s.host.websocketStarted ∧ (left.websocketStarted = false ∨ left.launches ≠ s.host.launches) then
    GoPeer.closePeerConnection
  else s.go

def tick (o : Outside) : Option Peered :=
  (s.asked.applyMarketplaceCommand o).map fun told =>
    let found := told.settle o
    let left := found.advance o
    { host := left
      go := s.goAfter left
      fresh := if found.Checks o then false else !found.captureStarted || s.fresh
      checked := if found.Checks o then some s.go.getPeerConnectionState else none }

def step : PeerMove → Option Peered
  | .runtime (.tick o) => s.tick o
  | .runtime m => (s.asked.step m).map fun host => { s with host }
  | .createPeerConnectionGo created => some { s with go := GoPeer.createPeerConnectionGo created }
  | .closePeerConnection => some { s with go := GoPeer.closePeerConnection }
  | .onConnectionStateChange state => some { s with go := s.go.onConnectionStateChange state }

/-- The state that goes with an answer. -/
def Right (state : HostState) (peer : Int) : Prop :=
  (state = .streaming ↔ peer = 3) ∧ (state = .reconnecting ↔ peer = 1)

instance (state : HostState) (peer : Int) : Decidable (Right state peer) := inferInstanceAs (Decidable (_ ∧ _))

/-- **What is to hold**: after a tick that asked for the state of the peer, the state of the host goes with the
answer. -/
def FollowsPeer : Prop := ∀ peer ∈ s.checked, Right s.host.state peer

/-- A tick that asks for the state of the peer for the first time since the target was attached does not find it
connecting or connected as it was remembered; a later one does not find it gone or new where it was connecting or
connected. -/
def Noticed (s : Peered) : PeerMove → Prop
  | .runtime (.tick o) => ∀ told ∈ s.asked.applyMarketplaceCommand o, (told.settle o).Checks o →
      let peer := s.go.getPeerConnectionState
      if s.fresh then ¬(peer = s.host.lastPeerState ∧ (peer = 1 ∨ peer = 3))
      else ¬((peer = 0 ∨ peer = -1) ∧ (s.host.lastPeerState = 1 ∨ s.host.lastPeerState = 3))
  | _ => True

end Peered

/-- **The moves of the runtime are those of the host**, which is answered by the Go layer. -/
theorem Peered.step_host {s s' : Peered} {m : RuntimeMove} (h : s.step (.runtime m) = some s') :
    s.asked.step m = some s'.host := by
  cases m with
  | tick o =>
    obtain ⟨told, htold, rfl⟩ := Option.map_eq_some_iff.1 h
    change s.asked.tick o = _
    rw [HostRuntime.tick_eq, htold]
    rfl
  | _ =>
    simp only [Peered.step] at h
    obtain ⟨host, hhost, rfl⟩ := Option.map_eq_some_iff.1 h
    exact hhost

/-! ## What the pieces of a tick do to all this -/

/-- The capture, the state, and the state of the peer that is remembered. -/
structure Look where
  captureStarted : Bool
  state : HostState
  lastPeerState : Int

/-- What the look at the peer makes of it. -/
def Look.follow (k : Look) (peer : Int) : Look :=
  { k with
    lastPeerState := peer
    state :=
      if peer = k.lastPeerState then k.state
      else if peer = 2 || peer = 3 then .streaming
      else if peer = 1 then .reconnecting
      else if peer = 4 ∨ peer = 5 ∨ peer = 6 then .ready
      else k.state }

namespace HostRuntime

variable (s : HostRuntime) (o : Outside)

def look : Look := ⟨s.captureStarted, s.state, s.lastPeerState⟩

theorem captureStarted_stopIfStarted : s.stopIfStarted.captureStarted = s.captureStarted := by
  unfold stopIfStarted
  split <;> rfl

theorem captureStarted_cleanupSession (h : s.activeSessionId ≠ "") (e r roomId : String) :
    (s.cleanupSession e r roomId).captureStarted = false := by
  unfold cleanupSession
  rw [if_neg h]
  exact captureStarted_stopIfStarted (s.setState .cleaning).detachTarget

theorem captureStarted_launch (sessionId commandId gameId roomId : String) (duration : Nat) :
    (s.launch o sessionId commandId gameId roomId duration).captureStarted = false := by
  unfold launch
  cases o.start <;> rfl

/-- **The command of a tick stops the capture, or leaves all this as it is.** -/
theorem command_look {t : HostRuntime} (h : s.applyMarketplaceCommand o = some t) :
    t.captureStarted = false ∨ t.look = s.look ∧ t.peer = s.peer := by
  unfold applyMarketplaceCommand at h
  split at h
  · cases h
    exact .inr ⟨rfl, rfl⟩
  · rename_i j rest _
    obtain ⟨c, -, h⟩ := Option.bind_eq_some_iff.1 h
    unfold applyCommand at h
    split at h
    · cases h
      exact .inr ⟨rfl, rfl⟩
    · split at h
      · split at h
        · obtain ⟨reason, -, rfl⟩ := Option.map_eq_some_iff.1 h
          by_cases ha : s.activeSessionId = ""
          · rw [cleanupSession_of_free { s with pendingMarketplaceCommands := rest } ha]
            exact .inr ⟨rfl, rfl⟩
          · exact .inl (captureStarted_cleanupSession { s with pendingMarketplaceCommands := rest } ha ..)
        · cases h
          exact .inr ⟨rfl, rfl⟩
      · unfold applyPrepare at h
        split at h
        · cases h
          exact .inr ⟨rfl, rfl⟩
        · split at h
          · cases h
            exact .inr ⟨rfl, rfl⟩
          · obtain ⟨prepare, -, rfl⟩ := Option.map_eq_some_iff.1 h
            split
            · exact .inr ⟨rfl, rfl⟩
            · split
              · exact .inr ⟨rfl, rfl⟩
              · exact .inl (captureStarted_launch { s with pendingMarketplaceCommands := rest } ..)

theorem settle_look :
    (s.settle o).captureStarted = false ∨ (s.settle o).look = s.look ∧ (s.settle o).peer = s.peer := by
  have hselect : (s.applyPendingTargetSelection o).captureStarted = false ∨
      (s.applyPendingTargetSelection o).look = s.look ∧ (s.applyPendingTargetSelection o).peer = s.peer := by
    unfold applyPendingTargetSelection
    split
    · exact .inr ⟨rfl, rfl⟩
    · exact .inl rfl
  unfold settle refreshPresence
  split <;> exact hselect

theorem found_look {t : HostRuntime} (h : s.applyMarketplaceCommand o = some t) (hc : (t.settle o).captureStarted) :
    (t.settle o).look = s.look ∧ (t.settle o).peer = s.peer := by
  rcases settle_look t o with hs | ⟨hl, hp⟩
  · rw [hs] at hc
    cases hc
  · have htc : t.captureStarted = true := (congrArg Look.captureStarted hl).symm.trans hc
    rcases command_look s o h with ht | ⟨hl', hp'⟩
    · rw [ht] at htc
      cases htc
    · exact ⟨hl.trans hl', hp.trans hp'⟩

/-! ### The rest of a tick -/

theorem look_followPeer : s.followPeer.look = s.look.follow s.peer := by
  by_cases h : s.peer = s.lastPeerState
  · simp [followPeer, Look.follow, look, h]
  · by_cases hc : s.peer = 2 ∨ s.peer = 3
    · simp [followPeer, Look.follow, look, peerConnected, setState, h, hc]
    · by_cases h1 : s.peer = 1
      · rw [h1] at h
        simp [followPeer, Look.follow, look, peerConnected, setState, h, h1]
      · by_cases h4 : s.peer = 4 ∨ s.peer = 5 ∨ s.peer = 6
        · simp [followPeer, Look.follow, look, peerConnected, setState, h, hc, h1, h4]
        · simp [followPeer, Look.follow, look, peerConnected, h, hc, h1, h4]

theorem look_reportSession : (s.reportSession o).look = s.look ∧ (s.reportSession o).peer = s.peer := by
  unfold reportSession
  dsimp only
  split
  · split <;> exact ⟨rfl, rfl⟩
  · exact ⟨rfl, rfl⟩

theorem advance_of_checks (h : s.Checks o) : (s.advance o).look = s.look.follow s.peer := by
  obtain ⟨hdeadline, hc, hgone⟩ := h
  unfold advance
  rw [if_neg hdeadline, if_pos hc]
  unfold watch
  rw [if_neg hgone, look_followPeer]
  obtain ⟨hl, hp⟩ := look_reportSession { s with invalidWindowSince := 0 } o
  rw [hl, hp]
  rfl

theorem attachTarget_look (w : Window) (h : s.captureStarted = false) :
    (s.attachTarget o w).1.captureStarted = false ∨ (s.attachTarget o w).1.state = .ready := by
  unfold attachTarget
  dsimp only
  split
  · exact .inl h
  · split
    · exact .inr rfl
    · exact .inl h

theorem pollLaunched_look (h : s.captureStarted = false) :
    (s.pollLaunched o).captureStarted = false ∨ (s.pollLaunched o).state = .ready := by
  unfold pollLaunched
  split
  · exact .inl h
  · rename_i target _
    have hattach := attachTarget_look
      { s with targetProcessName := target.processName, wideTargetProcessName := target.processName } o target.window h
    dsimp only
    split <;> exact hattach

theorem tryAttachTarget_look (h : s.captureStarted = false) :
    (s.tryAttachTarget o).1.captureStarted = false ∨ (s.tryAttachTarget o).1.state = .ready := by
  unfold tryAttachTarget
  split
  · exact .inl h
  · exact attachTarget_look _ _ _ h

theorem seek_look (h : s.captureStarted = false) :
    (s.seek o).captureStarted = false ∨ (s.seek o).state = .ready := by
  unfold seek
  split
  · rename_i ha
    split
    · exact .inl (captureStarted_cleanupSession s ha ..)
    · split
      · exact pollLaunched_look s o h
      · exact .inl h
  · split
    · exact tryAttachTarget_look s o h
    · exact .inl h

theorem lose_look : (s.lose o).captureStarted = false ∨ (s.lose o).look = s.look := by
  unfold lose
  dsimp only
  split
  · split
    · rename_i ha
      exact .inl (captureStarted_cleanupSession { s with invalidWindowSince := s.lostSince o } ha ..)
    · exact .inl rfl
  · exact .inr rfl

/-- **A tick that does not come to ask stops the capture, leaves all this as it is, or attaches a target.** -/
theorem advance_of_not_checks (h : ¬s.Checks o) : (s.advance o).captureStarted = false ∨ (s.advance o).look = s.look ∨
    s.captureStarted = false ∧ (s.advance o).state = .ready := by
  unfold advance
  split
  · rename_i hd
    exact .inl (captureStarted_cleanupSession s hd.1 ..)
  · rename_i hd
    split
    · rename_i hc
      have hgone : s.windowGone o := not_not.1 fun hn => h ⟨hd, hc, hn⟩
      unfold watch
      rw [if_pos hgone]
      rcases lose_look s o with hl | hl
      · exact .inl hl
      · exact .inr (.inl hl)
    · rename_i hc
      have hc' : s.captureStarted = false := by simpa using hc
      rcases seek_look s o hc' with hl | hl
      · exact .inl hl
      · exact .inr (.inr ⟨hc', hl⟩)

/-- The other threads do not touch all this. -/
theorem look_other {m : RuntimeMove} {t : HostRuntime} (hm : ∀ o, m ≠ .tick o) (h : s.step m = some t) :
    t.look = s.look := by
  cases m with
  | tick o => exact absurd rfl (hm o)
  | queueTargetSelection processName preferredTitle =>
    obtain rfl := Option.some.inj h
    unfold queueTargetSelection
    split <;> rfl
  | requestPresenceRefresh =>
    obtain rfl := Option.some.inj h
    rfl
  | handleMarketplaceCommand command =>
    obtain rfl := Option.some.inj h
    unfold handleMarketplaceCommand
    split
    · split
      · rfl
      · split <;> rfl
    · rfl
  | beat b =>
    obtain ⟨loop, -, rfl⟩ := Option.map_eq_some_iff.1 h
    unfold beat
    dsimp only
    split <;> rfl
  | peer state =>
    obtain rfl := Option.some.inj h
    rfl

end HostRuntime

/-! ## The state and the answer -/

section
variable {k : Look} {peer : Int}

/-- The first answer since a target was attached. -/
theorem right_follow_of_ready (h : k.state = .ready) (hp : peer = 3 ∨ peer = 1 ∨ (peer = 4 ∨ peer = 5 ∨ peer = 6) ∨
    peer = 0 ∨ peer = -1) :
    Peered.Right (k.follow peer).state peer ↔ ¬(peer = k.lastPeerState ∧ (peer = 1 ∨ peer = 3)) := by
  by_cases hl : peer = k.lastPeerState
  · have hsame : (k.follow peer).state = .ready := (if_pos hl).trans h
    rw [hsame]
    simp only [Peered.Right, reduceCtorEq, false_iff, hl, true_and]
    omega
  · refine iff_of_true ?_ fun hn => hl hn.1
    unfold Look.follow Peered.Right
    rw [if_neg hl]
    rcases hp with rfl | rfl | (rfl | rfl | rfl) | rfl | rfl <;> simp [h]

/-- A later answer. -/
theorem right_follow_of_right (h : Peered.Right k.state k.lastPeerState) (hp : peer = 3 ∨ peer = 1 ∨
    (peer = 4 ∨ peer = 5 ∨ peer = 6) ∨ peer = 0 ∨ peer = -1) :
    Peered.Right (k.follow peer).state peer ↔
      ¬((peer = 0 ∨ peer = -1) ∧ (k.lastPeerState = 1 ∨ k.lastPeerState = 3)) := by
  by_cases hl : peer = k.lastPeerState
  · have hsame : (k.follow peer).state = k.state := if_pos hl
    rw [hsame, hl]
    exact iff_of_true h (by omega)
  · obtain ⟨hstreaming, hreconnecting⟩ := h
    unfold Look.follow Peered.Right
    rw [if_neg hl]
    rcases hp with rfl | rfl | (rfl | rfl | rfl) | rfl | rfl <;> simp [hstreaming, hreconnecting] <;> omega

end

namespace Peered

/-- A target that no tick has asked for since it was attached is ready. -/
def Attached (s : Peered) : Prop := s.host.captureStarted → s.fresh → s.host.state = .ready

/-- Later the state goes with the answer that is remembered. -/
def Remembered (s : Peered) : Prop :=
  s.host.captureStarted → s.fresh = false → Right s.host.state s.host.lastPeerState

variable {s s' : Peered} {m : PeerMove}

theorem step_runtime {m : RuntimeMove} (hm : ∀ o, m ≠ .tick o) :
    s.step (.runtime m) = (s.asked.step m).map (fun host => { s with host }) ∧ s.Noticed (.runtime m) := by
  cases m with
  | tick o => exact absurd rfl (hm o)
  | queueTargetSelection processName preferredTitle => exact ⟨rfl, trivial⟩
  | requestPresenceRefresh => exact ⟨rfl, trivial⟩
  | handleMarketplaceCommand command => exact ⟨rfl, trivial⟩
  | beat b => exact ⟨rfl, trivial⟩
  | peer state => exact ⟨rfl, trivial⟩

/-- The other threads and the Go layer do not touch all this. -/
theorem step_other (hm : ∀ o, m ≠ .runtime (.tick o)) (h : s.step m = some s') :
    s'.host.look = s.host.look ∧ s'.fresh = s.fresh ∧ s'.checked = s.checked ∧ s.Noticed m := by
  cases m with
  | runtime m =>
    have hm : ∀ o, m ≠ .tick o := fun o hn => hm o (congrArg PeerMove.runtime hn)
    obtain ⟨hs, hn⟩ := step_runtime (s := s) hm
    obtain ⟨host, hhost, rfl⟩ := Option.map_eq_some_iff.1 (hs.symm.trans h)
    exact ⟨HostRuntime.look_other s.asked hm hhost, rfl, rfl, hn⟩
  | createPeerConnectionGo created =>
    obtain rfl := Option.some.inj h
    exact ⟨rfl, rfl, rfl, trivial⟩
  | closePeerConnection =>
    obtain rfl := Option.some.inj h
    exact ⟨rfl, rfl, rfl, trivial⟩
  | onConnectionStateChange state =>
    obtain rfl := Option.some.inj h
    exact ⟨rfl, rfl, rfl, trivial⟩

/-- **A step leaves a state that goes with the answer exactly where the answer is noticed**, and one that goes with the
answer goes with what is remembered. -/
theorem step_spec (ha : s.Attached) (hr : s.Remembered) (h : s.step m = some s') :
    s'.Attached ∧ (s'.FollowsPeer → s'.Remembered) ∧ (s.FollowsPeer → (s'.FollowsPeer ↔ s.Noticed m)) := by
  by_cases hm : ∀ o, m ≠ .runtime (.tick o)
  · obtain ⟨hl, hf, hc, hn⟩ := step_other hm h
    simp only [HostRuntime.look, Look.mk.injEq] at hl
    obtain ⟨hcapture, hstate, hlast⟩ := hl
    unfold Attached FollowsPeer Remembered
    rw [hcapture, hstate, hlast, hf, hc]
    exact ⟨ha, fun _ => hr, fun hp => iff_of_true hp hn⟩
  · obtain ⟨o, rfl⟩ : ∃ o, m = .runtime (.tick o) := by simpa using hm
    obtain ⟨told, htold, rfl⟩ := Option.map_eq_some_iff.1 h
    have hfound := HostRuntime.found_look s.asked o htold
    by_cases hchecks : (told.settle o).Checks o
    · obtain ⟨hlook, hpeer⟩ := hfound hchecks.2.1
      have hafter := (HostRuntime.advance_of_checks (told.settle o) o hchecks).trans (by rw [hlook, hpeer])
      have hstate : ((told.settle o).advance o).state = (s.asked.look.follow s.go.getPeerConnectionState).state :=
        congrArg Look.state hafter
      have hlast : ((told.settle o).advance o).lastPeerState = s.go.getPeerConnectionState :=
        congrArg Look.lastPeerState hafter
      have hcapture : s.host.captureStarted := (congrArg Look.captureStarted hlook).symm.trans hchecks.2.1
      have hnoticed : s.Noticed (.runtime (.tick o)) ↔
          if s.fresh then ¬(s.go.getPeerConnectionState = s.host.lastPeerState ∧
            (s.go.getPeerConnectionState = 1 ∨ s.go.getPeerConnectionState = 3))
          else ¬((s.go.getPeerConnectionState = 0 ∨ s.go.getPeerConnectionState = -1) ∧
            (s.host.lastPeerState = 1 ∨ s.host.lastPeerState = 3)) := by
        simp [Noticed, htold, hchecks]
      have hright : Right ((told.settle o).advance o).state s.go.getPeerConnectionState ↔
          s.Noticed (.runtime (.tick o)) := by
        rw [hstate, hnoticed]
        cases hf : s.fresh with
        | true => exact right_follow_of_ready (ha hcapture hf) s.go.getPeerConnectionState_cases
        | false => exact right_follow_of_right (hr hcapture hf) s.go.getPeerConnectionState_cases
      refine ⟨fun _ hf => by simp [hchecks] at hf, fun hp _ _ => ?_, fun _ => ?_⟩
      · simp only [hlast]
        exact hp _ (if_pos hchecks)
      · rw [← hright]
        simp only [FollowsPeer, hchecks, if_true, Option.mem_def, Option.some.injEq, forall_eq']
    · have hcases := HostRuntime.advance_of_not_checks (told.settle o) o hchecks
      have hkept : ((told.settle o).advance o).captureStarted → (told.settle o).captureStarted →
          ((told.settle o).advance o).look = s.host.look := by
        intro hl hf
        rcases hcases with hc | hc | ⟨hc, -⟩
        · rw [hc] at hl
          cases hl
        · exact hc.trans (hfound hf).1
        · rw [hc] at hf
          cases hf
      have hnoticed : s.Noticed (.runtime (.tick o)) := by
        intro t ht hc
        obtain rfl := Option.some.inj (htold.symm.trans ht)
        exact absurd hc hchecks
      refine ⟨fun hl hf => ?_, fun _ hl hf => ?_, fun _ => iff_of_true (fun p hp => ?_) hnoticed⟩
      · rcases hcases with hc | hc | ⟨-, hc⟩
        · exact absurd (hc.symm.trans hl) (by decide)
        · have hfc : (told.settle o).captureStarted := (congrArg Look.captureStarted hc).symm.trans hl
          have hk := hkept hl hfc
          have hfresh : s.fresh = true := by simpa [hchecks, hfc] using hf
          exact (congrArg Look.state hk).trans (ha ((congrArg Look.captureStarted hk).symm.trans hl) hfresh)
        · exact hc
      · obtain ⟨hfc, hfresh⟩ : (told.settle o).captureStarted = true ∧ s.fresh = false := by
          simpa [hchecks] using hf
        have hk := hkept hl hfc
        have hright := hr ((congrArg Look.captureStarted hk).symm.trans hl) hfresh
        have hstate : ((told.settle o).advance o).state = s.host.state := congrArg Look.state hk
        have hlast : ((told.settle o).advance o).lastPeerState = s.host.lastPeerState := congrArg Look.lastPeerState hk
        simp only [hstate, hlast]
        exact hright
      · simp [hchecks] at hp

end Peered

/-! ## Runs -/

namespace HostRuntime

variable (s : HostRuntime)

theorem captureStarted_register {b : Boot} {t : HostRuntime} (h : s.register b = some t) :
    t.captureStarted = s.captureStarted := by
  unfold register at h
  split at h
  · cases h
  · dsimp only at h
    by_cases hr : b.first = .rotatePairingCode
    · rw [if_pos hr] at h
      dsimp only at h
      split at h
      · cases h
      · obtain rfl := Option.some.inj h
        rfl
    · rw [if_neg hr] at h
      dsimp only at h
      split at h
      · cases h
      · obtain rfl := Option.some.inj h
        rfl

theorem captureStarted_startCoreServices {b : Boot} {enabled : Bool} {t : HostRuntime}
    (h : s.startCoreServices b enabled = some t) : t.captureStarted = s.captureStarted := by
  unfold startCoreServices at h
  split at h
  · cases h
  · obtain ⟨u, hu, rfl⟩ := Option.map_eq_some_iff.1 h
    have hcapture : u.captureStarted = s.captureStarted := by
      cases enabled with
      | true => exact captureStarted_register { s with rtcStarted := true } hu
      | false => exact Option.some.inj hu ▸ rfl
    dsimp only
    split <;> exact hcapture

/-- A start leaves the capture as it was: there is none. -/
theorem captureStarted_start {b : Boot} {t : HostRuntime} (hs : s.Stopped) (hc : s.captureStarted = false)
    (h : s.start b = some t) : t.captureStarted = false := by
  unfold start at h
  rw [if_neg (by rcases hs.state with h | h <;> simp [h])] at h
  split at h
  · cases h
  · obtain ⟨c, -, h⟩ := Option.bind_eq_some_iff.1 h
    obtain ⟨u, hu, rfl⟩ := Option.map_eq_some_iff.1 h
    exact (captureStarted_startCoreServices _ hu).trans hc

/-- So does a stop leave it. -/
theorem captureStarted_stop (h : s.state ≠ .stopped) (h' : s.state ≠ .stopping) (roomId : String) :
    (s.stop roomId).captureStarted = false := by
  unfold stop
  rw [if_neg (not_or.2 ⟨h, h'⟩)]
  exact captureStarted_stopIfStarted
    ((s.setState .stopping).cleanupSession "session.failed" "host_stopped" roomId).detachTarget

end HostRuntime

/-- **The state of the host follows its peer exactly where every tick that asks for the state of the peer notices it**:
where the first since a target was attached does not find it connecting or connected as it was remembered, and a later
one does not find it gone or new where it was connecting or connected. -/
theorem state_follows_peer_iff {s t : HostRuntime} (b : HostRuntime.Boot) (hs : s.Stopped)
    (hcapture : s.captureStarted = false) (h : s.start b = some t) (go : GoPeer) (moves : List PeerMove) :
    Throughout Peered.step Peered.FollowsPeer ⟨t, go, true, none⟩ moves ↔
      Along Peered.step Peered.Noticed ⟨t, go, true, none⟩ moves := by
  have hfree : t.captureStarted = false := s.captureStarted_start hs hcapture h
  have hstart : Peered.Attached ⟨t, go, true, none⟩ ∧ Peered.Remembered ⟨t, go, true, none⟩ :=
    ⟨fun hc => absurd (hfree.symm.trans hc) (by decide), fun hc => absurd (hfree.symm.trans hc) (by decide)⟩
  have hfollows : Peered.FollowsPeer ⟨t, go, true, none⟩ := fun p hp => by cases hp
  have hiff : Throughout Peered.step (fun p => p.FollowsPeer ∧ p.Attached ∧ p.Remembered) ⟨t, go, true, none⟩ moves ↔
      Along Peered.step Peered.Noticed ⟨t, go, true, none⟩ moves := by
    refine throughout_iff_along (I := fun _ => True) (d := fun _ _ => True) (fun _ _ _ _ _ _ => trivial)
      (fun p m p' _ _ hp hstep => ?_) trivial ⟨hfollows, hstart⟩ along_true
    obtain ⟨ha, hr, hn⟩ := Peered.step_spec hp.2.1 hp.2.2 hstep
    exact ⟨fun hp' => (hn hp.1).1 hp'.1, fun hc => ⟨(hn hp.1).2 hc, ha, hr ((hn hp.1).2 hc)⟩⟩
  constructor
  · intro hf
    refine hiff.1 (hf.carry (fun p m p' hp _ hstep hp' => ?_) hstart)
    obtain ⟨ha, hr, -⟩ := Peered.step_spec hp.1 hp.2 hstep
    exact ⟨ha, hr hp'⟩
  · intro hn
    exact (hiff.2 hn).mono fun p hp => hp.1

/-! ### Another target -/

/-- A tick that finds the window of the target. -/
def picking : Outside := { pickWindowByProcessName := fun _ _ => some ⟨1, 1⟩ }

/-- A target is selected and attached, the peer connects, and another target is selected and attached. -/
def reselecting : List PeerMove :=
  [.runtime (.queueTargetSelection "game.exe" ""), .runtime (.tick picking), .createPeerConnectionGo true,
    .onConnectionStateChange .connected, .runtime (.tick {}), .runtime (.queueTargetSelection "other.exe" ""),
    .runtime (.tick picking), .runtime (.tick {})]

theorem state_follows_peer_iff_reselecting : ∃ t, ({} : HostRuntime).start HostRuntime.aBoot = some t ∧
    (Throughout Peered.step Peered.FollowsPeer ⟨t, {}, true, none⟩ reselecting ↔
      Along Peered.step Peered.Noticed ⟨t, {}, true, none⟩ reselecting) :=
  ⟨_, rfl, state_follows_peer_iff HostRuntime.aBoot HostRuntime.stopped_new rfl rfl {} reselecting⟩

/-- **The host is ready while its peer is connected.** -/
theorem state_not_follows_peer : ¬∀ (s t : HostRuntime) (b : HostRuntime.Boot) (go : GoPeer) (moves : List PeerMove),
    s.Stopped → s.captureStarted = false → s.start b = some t →
    Throughout Peered.step Peered.FollowsPeer ⟨t, go, true, none⟩ moves := by
  intro h
  obtain ⟨t, ht⟩ : ∃ t, ({} : HostRuntime).start HostRuntime.aBoot = some t := ⟨_, rfl⟩
  have hfollows := h {} t HostRuntime.aBoot {} reselecting HostRuntime.stopped_new rfl ht
  obtain ⟨p, hp, hchecked, hstate⟩ : ∃ p, after Peered.step ⟨t, {}, true, none⟩ reselecting = some p ∧
      p.checked = some 3 ∧ p.host.state = .ready := by
    obtain rfl := Option.some.inj ht
    exact ⟨_, rfl, rfl, rfl⟩
  have hright := (hfollows.after hp 3 hchecked).1.2 rfl
  rw [hstate] at hright
  cases hright

end Host
end CloudGaming
