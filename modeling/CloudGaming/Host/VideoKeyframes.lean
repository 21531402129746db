import CloudGaming.Host.VideoDelivery
/-!
# VideoKeyframes — the recovery points within one peer generation

A keyframe that waits in the queue is to leave it for the sender, or for a keyframe submitted later.  The producer keeps
to that when it makes room, but gives up a keyframe of its own where the sender empties the full queue before it looks
for the oldest sample.
-/
namespace CloudGaming
namespace Host
namespace GoMedia

open Async

/-- A peer is connected, with its track. -/
structure Globals.Ready (g : Globals) : Prop where
  connected : g.connectionState = .connected
  peer : g.peerConnection ≠ none
  track : g.videoTrack ≠ none

/-- The call has data, and a duration that is valid. -/
def VideoArgs.Valid (a : VideoArgs) : Prop := a.data = true ∧ 0 < a.size ∧ validateVideoDuration a.durationUs = true

/-- The calls are valid, and the peer stays connected. -/
def LineMove.Valid : LineMove → Prop
  | .send a => a.Valid
  | .state _ => False
  | _ => True

instance decidableValid : ∀ m : LineMove, Decidable m.Valid
  | .send a => inferInstanceAs (Decidable (a.data = true ∧ 0 < a.size ∧ validateVideoDuration a.durationUs = true))
  | .state _ => inferInstanceAs (Decidable False)
  | .produce | .consume => inferInstanceAs (Decidable True)

namespace VideoCall

/-- The call submits a keyframe, which is not queued yet. -/
def bears : VideoCall → Bool
  | .check a | .swapPending a _ | .loadGeneration a _ _ _ => a.isKeyframe
  | .push queued | .receiveOldest queued | .pushReplacement queued => queued.isKeyframe
  | _ => false

/-- How many steps a call that submits a keyframe is from its end. -/
def rank : VideoCall → Nat
  | .check _ => 6
  | .swapPending .. => 5
  | .loadGeneration .. => 4
  | .push _ => 3
  | .receiveOldest _ => 2
  | .pushReplacement _ => 1
  | _ => 0

end VideoCall

namespace Line

/-- The samples in the queue, and in the hands of the producer. -/
def waiting (s : Line) : List QueuedVideoSample := s.g.videoSendQueue ++ s.call.samples

/-- What may become of a waiting keyframe in a move: it waits on, the sender receives it from the queue, or it is
evicted from the queue and a keyframe submitted later takes its place. -/
def Spared (s s' : Line) (q : QueuedVideoSample) : Prop :=
  (∃ q' ∈ s'.waiting, q'.id = q.id ∧ q'.isKeyframe = true) ∨
    (q ∈ s.g.videoSendQueue ∧ q ∈ s'.sender.held) ∨
    (q ∈ s.g.videoSendQueue ∧ ∃ later, later.isKeyframe = true ∧ q.id < later.id ∧ s'.call = .pushReplacement later)

def Preserves (s : Line) (m : LineMove) : Prop :=
  ∀ s', s.step m = some s' → ∀ q ∈ s.waiting, q.isKeyframe = true → s.Spared s' q

/-- A call that submits a keyframe goes on to its end, where the keyframe is queued. -/
def Accepts (s : Line) (m : LineMove) : Prop :=
  ∀ s', s.step m = some s' → s.call.bears = true →
    (s'.call.bears = true ∧ (m = .produce → s'.call.rank < s.call.rank)) ∨
      (s'.call = .ret 0 ∧ ∃ q, q.isKeyframe = true ∧ s'.g.videoSendQueue = s.g.videoSendQueue ++ [q])

/-- **Recovery points survive the move.** -/
def Recovers (s : Line) (m : LineMove) : Prop := s.Preserves m ∧ s.Accepts m

/-- The sample for which the producer takes the oldest out of the queue in a move. -/
def makingRoomFor (s : Line) : LineMove → Option QueuedVideoSample
  | .produce =>
    match s.producer with
    | some (.receiveOldest queued) => some queued
    | _ => none
  | _ => none

/-- Where the producer, a keyframe in hand, looks for the oldest sample, there is one. -/
def Steady (s : Line) (m : LineMove) : Prop :=
  ∀ queued ∈ s.makingRoomFor m, queued.isKeyframe = true → s.g.videoSendQueue ≠ []

instance decidableSteady (s : Line) (m : LineMove) : Decidable (s.Steady m) :=
  inferInstanceAs (Decidable (∀ queued ∈ s.makingRoomFor m, _ → _))

/-- What holds in every state of a run with the peer connected. -/
structure Recovering (s : Line) : Prop where
  kept : s.Kept
  ready : s.g.Ready
  valid : ∀ a, s.call = .check a → a.Valid
  putsBack : ∀ q o, s.call = .pushBack q o → o.isKeyframe = true ∧ q.isKeyframe = false

variable {s s' : Line} {m : LineMove}

theorem makingRoomFor_eq_some {queued : QueuedVideoSample} :
    s.makingRoomFor m = some queued ↔ m = .produce ∧ s.producer = some (.receiveOldest queued) := by
  constructor
  · intro h
    cases m <;> simp only [makingRoomFor] at h <;> try cases h
    split at h
    · rename_i queued' hp
      obtain rfl := Option.some.inj h
      exact ⟨rfl, hp⟩
    · cases h
  · rintro ⟨rfl, hp⟩
    simp [makingRoomFor, hp]

/-- A valid call passes the check while the peer is connected. -/
theorem check_of_ready {a : VideoArgs} {g : Globals} (hr : g.Ready) (ha : a.Valid) :
    ∃ peer, a.check g = .swapPending a peer := by
  obtain ⟨hdata, hsize, hduration⟩ := ha
  obtain ⟨peer, hp⟩ := Option.ne_none_iff_exists'.1 hr.peer
  obtain ⟨track, ht⟩ := Option.ne_none_iff_exists'.1 hr.track
  refine ⟨peer, ?_⟩
  unfold VideoArgs.check
  rw [if_neg (by simp [hdata, hsize]), hp, ht]
  simp only [hr.connected, hduration, ne_eq, not_true_eq_false, if_false, if_true]

/-- The steps of a call leave the peer as it is. -/
theorem ready_call (c : VideoCall) {g : Globals} (hr : g.Ready) : (c.step g).2.Ready := by
  have hsame : (c.step g).2.connectionState = g.connectionState ∧ (c.step g).2.peerConnection = g.peerConnection ∧
      (c.step g).2.videoTrack = g.videoTrack := by
    cases c with
    | push q => simp only [VideoCall.step]; split <;> exact ⟨rfl, rfl, rfl⟩
    | receiveOldest q =>
      simp only [VideoCall.step]
      split
      · exact ⟨rfl, rfl, rfl⟩
      · split <;> exact ⟨rfl, rfl, rfl⟩
    | pushBack q o => simp only [VideoCall.step]; split <;> exact ⟨rfl, rfl, rfl⟩
    | pushReplacement q => simp only [VideoCall.step]; split <;> exact ⟨rfl, rfl, rfl⟩
    | casPending count current => simp only [VideoCall.step]; split <;> exact ⟨rfl, rfl, rfl⟩
    | _ => exact ⟨rfl, rfl, rfl⟩
  exact ⟨hsame.1 ▸ hr.connected, by rw [hsame.2.1]; exact hr.peer, by rw [hsame.2.2]; exact hr.track⟩

/-- What the sender does to the queue: it takes the oldest sample, or leaves the queue as it is. -/
theorem consume_queue (hs : s.step .consume = some s') :
    s'.producer = s.producer ∧ (s.g.Ready → s'.g.Ready) ∧
      (s'.g.videoSendQueue = s.g.videoSendQueue ∨
        ∃ q, s.g.videoSendQueue = q :: s'.g.videoSendQueue ∧ s'.sender.held = [q]) := by
  obtain ⟨v, g, hr, rfl⟩ := step_consume hs
  obtain ⟨g₀, p, sender⟩ := s
  cases sender with
  | idle =>
    simp only [VideoSender.step] at hr
    split at hr
    · cases hr
    · rename_i q rest hq
      obtain ⟨rfl, rfl⟩ := Prod.mk.inj (Option.some.inj hr)
      exact ⟨rfl, fun h => ⟨h.connected, h.peer, h.track⟩, .inr ⟨q, hq, rfl⟩⟩
  | _ =>
    obtain ⟨rfl, rfl⟩ := Prod.mk.inj (Option.some.inj hr)
    exact ⟨rfl, fun h => ⟨h.connected, h.peer, h.track⟩, .inl rfl⟩

/-- A step never arrives at the check, and puts back keyframes for delta frames only. -/
theorem call_arrives (c : VideoCall) (g : Globals) : (∀ a, (c.step g).1 ≠ .check a) ∧
    ∀ q o, (c.step g).1 = .pushBack q o → o.isKeyframe = true ∧ q.isKeyframe = false := by
  cases c with
  | check b =>
    rcases b.check_cases g with ⟨code, hc⟩ | ⟨peer, hc, -⟩
    · simp [VideoCall.step, hc]
    · simp [VideoCall.step, hc]
  | push q => simp only [VideoCall.step]; split <;> simp
  | receiveOldest q =>
    simp only [VideoCall.step]
    split
    · simp
    · split
      · rename_i hkey
        refine ⟨by simp, fun q' o' he => ?_⟩
        obtain ⟨rfl, rfl⟩ := VideoCall.pushBack.inj he
        simpa using hkey
      · simp
  | pushBack q o => simp only [VideoCall.step]; split <;> simp
  | pushReplacement q => simp only [VideoCall.step]; split <;> simp
  | casPending count current => simp only [VideoCall.step]; split <;> simp
  | _ => simp [VideoCall.step]

theorem recovering_step (hv : m.Valid) (h : s.Recovering) (hs : s.step m = some s') : s'.Recovering := by
  have hkept := kept_step h.kept hs
  cases m with
  | send a =>
    obtain ⟨-, rfl⟩ := step_send hs
    exact ⟨hkept, h.ready, fun b hb => (by cases hb; exact hv), fun q o hq => (by cases hq)⟩
  | state state => exact absurd hv id
  | consume =>
    obtain ⟨hp, hready, -⟩ := consume_queue hs
    have hcall : s'.call = s.call := by unfold call; rw [hp]
    exact ⟨hkept, hready h.ready, hcall ▸ h.valid, hcall ▸ h.putsBack⟩
  | produce =>
    rcases step_produce hs with ⟨code, -, rfl⟩ | ⟨c, -, -, rfl⟩
    · exact ⟨hkept, h.ready, fun a ha => (by cases ha), fun q o hq => (by cases hq)⟩
    · obtain ⟨hcheck, hback⟩ := call_arrives c s.g
      exact ⟨hkept, ready_call c h.ready, fun a ha => absurd ha (hcheck a), hback⟩

/-! ## What becomes of a keyframe in a move -/

/-- A keyframe that stays where it was, in the queue or in hand, waits on. -/
theorem Spared.stay {q : QueuedVideoSample} (hk : q.isKeyframe = true) (h : q ∈ s'.waiting) : s.Spared s' q :=
  .inl ⟨q, h, rfl, hk⟩

theorem room_of_pushing (h : s.Recovering) (hr : s.call.room = 1) :
    s.g.videoSendQueue.length < videoQueueCapacity := by
  have := h.kept.inv.capacity
  omega

/-- The oldest sample was submitted before the one in hand. -/
theorem oldest_lt {queued oldest : QueuedVideoSample} {rest : List QueuedVideoSample} (h : s.Recovering)
    (hc : s.call = .receiveOldest queued) (hq : s.g.videoSendQueue = oldest :: rest) : oldest.id < queued.id := by
  have hfresh : s.ledger.fresh = some queued.id := by simp [ledger, hc, VideoCall.fresh]
  have hline : oldest.ticket ∈ s.ledger.line := by simp [ledger, samples, hq]
  exact h.kept.sound.line_lt_fresh hfresh hline

theorem preserves_produce (h : s.Recovering) (hst : s.Steady .produce) : s.Preserves .produce := by
  intro s' hs q hw hk
  rcases step_produce hs with ⟨code, hp, rfl⟩ | ⟨c, hp, -, rfl⟩
  · have hcall : s.call = .ret code := by simp [call, hp]
    refine .stay hk ?_
    simpa [waiting, hcall, VideoCall.samples] using hw
  have hcall : s.call = c := by simp [call, hp]
  unfold waiting at hw
  rw [hcall] at hw
  cases c with
  | push queued =>
    refine .stay hk ?_
    simp only [VideoCall.step]
    split
    · simpa [waiting, VideoCall.samples, Globals.push] using hw
    · exact hw
  | receiveOldest queued =>
    simp only [VideoCall.samples, List.mem_append, List.mem_singleton] at hw
    simp only [VideoCall.step]
    cases hq : s.g.videoSendQueue with
    | nil =>
      rw [hq] at hw
      obtain rfl := hw.resolve_left (by simp)
      exact absurd hq (hst q (makingRoomFor_eq_some.2 ⟨rfl, hp⟩) hk)
    | cons oldest rest =>
      rw [hq] at hw
      dsimp only
      split
      · refine .stay hk ?_
        simp only [waiting, call_mk, VideoCall.samples, List.mem_append, List.mem_cons, List.not_mem_nil, or_false] at hw ⊢
        tauto
      · rename_i hback
        rcases hw with hw | rfl
        · rcases List.mem_cons.1 hw with rfl | hw
          · -- the keyframe gives its place to a keyframe
            have hlater : queued.isKeyframe = true := by simpa [hk] using hback
            have hlt : q.id < queued.id := oldest_lt h hcall hq
            exact .inr (.inr ⟨by rw [hq]; exact List.mem_cons_self, queued.replacing q, hlater, hlt, rfl⟩)
          · exact .stay hk (List.mem_append_left _ hw)
        · exact .inl ⟨q.replacing oldest, List.mem_append_right _ (by simp [VideoCall.samples]), rfl, hk⟩
  | pushBack queued oldest =>
    obtain ⟨-, hdelta⟩ := h.putsBack queued oldest hcall
    simp only [VideoCall.step, if_pos (room_of_pushing h (by rw [hcall]; rfl))]
    refine .stay hk ?_
    simp only [VideoCall.samples, List.mem_append, List.mem_cons, List.not_mem_nil, or_false] at hw
    simp only [waiting, call_mk, VideoCall.samples, Globals.drop, Globals.push, List.mem_append, List.mem_singleton,
      List.not_mem_nil, or_false]
    rcases hw with hw | rfl | rfl
    · exact .inl hw
    · rw [hdelta] at hk
      cases hk
    · exact .inr rfl
  | pushReplacement queued =>
    simp only [VideoCall.step, if_pos (room_of_pushing h (by rw [hcall]; rfl))]
    refine .stay hk ?_
    simpa [waiting, VideoCall.samples, Globals.push] using hw
  | casPending count current =>
    have hin : q ∈ s.g.videoSendQueue := by simpa [VideoCall.samples] using hw
    refine .stay hk (List.mem_append_left _ ?_)
    simp only [VideoCall.step]
    split <;> exact hin
  | _ =>
    have hin : q ∈ s.g.videoSendQueue := by simpa [VideoCall.samples] using hw
    exact .stay hk (List.mem_append_left _ hin)

theorem preserves_of_steady (hv : m.Valid) (h : s.Recovering) (hst : s.Steady m) : s.Preserves m := by
  cases m with
  | produce => exact preserves_produce h hst
  | state state => exact absurd hv id
  | send a =>
    intro s' hs q hw hk
    obtain ⟨hp, rfl⟩ := step_send hs
    have hcall : s.call = .ret 0 := by simp [call, hp]
    refine .stay hk ?_
    unfold waiting at hw
    rwa [hcall] at hw
  | consume =>
    intro s' hs q hw hk
    obtain ⟨hp, -, hqueue⟩ := consume_queue hs
    have hcall : s'.call = s.call := by unfold call; rw [hp]
    rcases hqueue with hqueue | ⟨q', hqueue, hheld⟩
    · refine .stay hk ?_
      unfold waiting at hw ⊢
      rwa [hqueue, hcall]
    · rcases List.mem_append.1 hw with hin | hin
      · rw [hqueue] at hin
        rcases List.mem_cons.1 hin with rfl | hin
        · exact .inr (.inl ⟨by rw [hqueue]; exact List.mem_cons_self, by rw [hheld]; exact List.mem_cons_self⟩)
        · exact .stay hk (List.mem_append_left _ hin)
      · exact .stay hk (List.mem_append_right _ (by rwa [hcall]))

/-- **A keyframe given up is not spared.** -/
theorem steady_of_preserves (h : s.Preserves m) : s.Steady m := by
  intro queued hsought hk hq
  obtain ⟨rfl, hp⟩ := makingRoomFor_eq_some.1 hsought
  have hcall : s.call = .receiveOldest queued := by simp [call, hp]
  have hw : queued ∈ s.waiting := by simp [waiting, hcall, VideoCall.samples]
  have hs : s.step .produce = some { s with
      producer := some (.loadPending (queued.prevDroppedPackets + 1)), g := s.g.drop queued.id } := by
    simp [step, hp, VideoCall.step, hq]
  rcases h _ hs queued hw hk with ⟨q', hq', -⟩ | ⟨hin, -⟩ | ⟨hin, -⟩
  · simp [waiting, hq, VideoCall.samples, Globals.drop] at hq'
  · rw [hq] at hin
    cases hin
  · rw [hq] at hin
    cases hin

/-- **A keyframe submitted is queued in the end**, where the producer finds an oldest sample whenever it looks for one. -/
theorem accepts_of_steady (hv : m.Valid) (h : s.Recovering) (hst : s.Steady m) : s.Accepts m := by
  intro s' hs hb
  cases m with
  | state state => exact absurd hv id
  | send a =>
    obtain ⟨hp, -⟩ := step_send hs
    simp [call, hp, VideoCall.bears] at hb
  | consume =>
    obtain ⟨hp, -, -⟩ := consume_queue hs
    have hcall : s'.call = s.call := by unfold call; rw [hp]
    exact .inl ⟨hcall ▸ hb, fun hm => by cases hm⟩
  | produce =>
    rcases step_produce hs with ⟨code, hp, -⟩ | ⟨c, hp, -, rfl⟩
    · simp [call, hp, VideoCall.bears] at hb
    have hcall : s.call = c := by simp [call, hp]
    rw [hcall] at hb ⊢
    cases c with
    | check a =>
      obtain ⟨peer, hc⟩ := check_of_ready h.ready (h.valid a hcall)
      rw [call_mk, VideoCall.step, hc]
      exact .inl ⟨hb, fun _ => Nat.lt_succ_self _⟩
    | swapPending a peer => exact .inl ⟨hb, fun _ => Nat.lt_succ_self _⟩
    | loadGeneration a peer id d => exact .inl ⟨hb, fun _ => Nat.lt_succ_self _⟩
    | push queued =>
      simp only [VideoCall.step]
      split
      · exact .inr ⟨rfl, queued, hb, rfl⟩
      · exact .inl ⟨hb, fun _ => Nat.lt_succ_self _⟩
    | receiveOldest queued =>
      simp only [VideoCall.step]
      cases hq : s.g.videoSendQueue with
      | nil => exact absurd hq (hst queued (makingRoomFor_eq_some.2 ⟨rfl, hp⟩) hb)
      | cons oldest rest =>
        have hkey : queued.isKeyframe = true := hb
        simp only [hkey, Bool.not_true, Bool.and_false, Bool.false_eq_true, if_false]
        exact .inl ⟨hkey, fun _ => Nat.lt_succ_self _⟩
    | pushReplacement queued =>
      simp only [VideoCall.step, if_pos (room_of_pushing h (by rw [hcall]; rfl))]
      exact .inr ⟨rfl, queued, hb, rfl⟩
    | _ => cases hb

theorem recovers_iff_steady (hv : m.Valid) (h : s.Recovering) : s.Recovers m ↔ s.Steady m :=
  ⟨fun hr => steady_of_preserves hr.1, fun hst => ⟨preserves_of_steady hv h hst, accepts_of_steady hv h hst⟩⟩

theorem recovering_start {g : Globals} (hr : g.Ready) : (start g).Recovering :=
  ⟨kept_start g, ⟨hr.connected, hr.peer, hr.track⟩, fun a ha => (by cases ha), fun q o hq => (by cases hq)⟩

/-! ## Runs -/

/-- **Recovery points survive a run exactly where the producer, a keyframe in hand, never finds the queue emptied.** -/
theorem keyframes_iff {g : Globals} (hr : g.Ready) {moves : List LineMove} (hv : ∀ m ∈ moves, m.Valid) :
    Along step Recovers (start g) moves ↔ Along step Steady (start g) moves :=
  along_iff_along_of (fun _ _ _ hv h hs => recovering_step hv h hs) (fun _ _ hv h => recovers_iff_steady hv h)
    (recovering_start hr) hv

theorem ready_connectedPeer : connectedPeer.Ready := ⟨rfl, by decide, by decide⟩

/-- A keyframe takes the place of the delta frame that heads the full queue. -/
theorem keyframes_replacing :
    Along step Recovers (start connectedPeer) (sending false 5 ++ sending false 5 ++ sending true 7) :=
  (keyframes_iff ready_connectedPeer (by decide)).2 (by decide)

/-- The sender takes both samples of the full queue before the producer, a keyframe in hand, looks for the oldest. -/
def emptied : List LineMove :=
  sending false 5 ++ sending false 5 ++ sending true 4 ++ sent ++ sent ++ [.produce]

theorem not_keyframes_recover : ¬ ∀ g, g.Ready → ∀ moves, (∀ m ∈ moves, m.Valid) →
    Along step Recovers (start g) moves := by
  intro h
  have hrun := h connectedPeer ready_connectedPeer emptied (by decide)
  have hlast := @Along.last _ _ _ _ _ _ _ (sending false 5 ++ sending false 5 ++ sending true 4 ++ sent ++ sent) _ hrun
    rfl rfl
  exact steady_of_preserves hlast.1 _ rfl (by decide) (by decide)

end Line

end GoMedia
end Host
end CloudGaming
