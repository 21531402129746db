import CloudGaming.Host.VideoLine
import Mathlib.Data.List.Sort
/-!
# VideoDelivery — what becomes of the samples within one peer generation

Every sample is accounted for (`conserved`).  The order of submission and the RTP timeline hold exactly where what the
producer takes out of its own full queue costs no sample its place (`inOrder_iff`, `onTime_iff`): a keyframe is put back
behind the samples that followed it, and the gap of a dropped sample goes to the newest sample, past those queued.
-/
namespace CloudGaming
namespace Host
namespace GoMedia

open Async

namespace Line

variable {s s' : Line} {m : LineMove}

/-! ## The books -/

/-- No count is cut off by the move. -/
def Unsaturated (s : Line) (m : LineMove) : Prop :=
  (∀ c ∈ s.settlement m, c.2 + c.1 ≤ 65535) ∧
    ∀ r ∈ s.receipt m, !r.putsBack → r.queued.prevDroppedPackets + r.oldest.prevDroppedPackets + 1 ≤ 65535

instance decidableUnsaturated (s : Line) (m : LineMove) : Decidable (Unsaturated s m) :=
  inferInstanceAs (Decidable (_ ∧ _))

theorem sound_start (g : Globals) : (start g).ledger.Sound where
  placed := .refl []
  newest := by simp [ledger, start]
  quiet := fun _ => rfl

/-- The samples are never lost sight of. -/
theorem sound_step (hi : s.Inv) (h : s.ledger.Sound) (hs : s.step m = some s') : s'.ledger.Sound := by
  rcases entry_of_step hi hs with ⟨r, hr⟩ | ⟨-, ⟨count, current, hc⟩ | he⟩
  · obtain ⟨hl, ht, -, he⟩ := ledger_receive hr hs
    rw [he]
    split
    · exact h.takeOut hl ht
    · exact h.evict hl
  · obtain ⟨hf, -, -, he⟩ := ledger_settle hc hs
    rw [he]
    exact h.settle hf
  · exact he.sound h

/-- Where no count is cut off, the drops stay counted. -/
theorem balanced_step (hi : s.Inv) (h : s.ledger.Balanced) (hu : Unsaturated s m) (hs : s.step m = some s') :
    s'.ledger.Balanced := by
  rcases entry_of_step hi hs with ⟨r, hr⟩ | ⟨-, ⟨count, current, hc⟩ | he⟩
  · obtain ⟨hl, ht, hq, he⟩ := ledger_receive hr hs
    rw [he]
    split
    · exact h.takeOut hl ht
    · rename_i hk
      refine h.evict hl ?_
      rw [saturate_of_le (hu.2 r hr (by simpa using hk)), hq]
      rfl
  · obtain ⟨-, hcarried, hpending, he⟩ := ledger_settle hc hs
    rw [he]
    refine h.settle ?_
    rw [saturate_of_le (hu.1 (count, current) hc), hcarried, hpending]
  · exact he.balanced h

/-- What holds in every state of a run. -/
structure Kept (s : Line) : Prop where
  inv : s.Inv
  sound : s.ledger.Sound

theorem kept_start (g : Globals) : (start g).Kept := ⟨inv_start g, sound_start g⟩

theorem kept_step (h : s.Kept) (hs : s.step m = some s') : s'.Kept := ⟨inv_step h.inv hs, sound_step h.inv h.sound hs⟩

/-! ## Runs -/

/-- The globals once peer 0 is connected. -/
def connectedPeer : Globals where
  peerConnection := some 0
  videoTrack := some 0
  connectionState := .connected
  peerGeneration := 1
  created := 1

def frame (isKeyframe : Bool) : VideoArgs := ⟨true, 1200, 16667, isKeyframe⟩

/-- A call, with as many steps of the producer. -/
def sending (isKeyframe : Bool) (steps : Nat) : List LineMove := .send (frame isKeyframe) :: List.replicate steps .produce

/-- A sample passes through the sender. -/
def sent : List LineMove := List.replicate 5 .consume

/-! ## Order -/

/-- The producer puts a keyframe back only where no other sample is queued. -/
def Orderly (s : Line) (m : LineMove) : Prop := ∀ r ∈ s.receipt m, r.putsBack → r.rest = []

instance decidableOrderly (s : Line) (m : LineMove) : Decidable (Orderly s m) :=
  inferInstanceAs (Decidable (∀ r ∈ s.receipt m, _ → _))

theorem inOrder_step (hk : s.Kept) (h : s.ledger.InOrder) (hs : s.step m = some s') :
    s'.ledger.InOrder ↔ Orderly s m := by
  rcases entry_of_step hk.inv hs with ⟨r, hr⟩ | ⟨hn, he⟩
  · obtain ⟨hl, ht, -, he⟩ := ledger_receive hr hs
    have hone : Orderly s m ↔ (r.putsBack → r.rest = []) := by simp [Orderly, hr]
    rw [he, hone]
    split
    · rename_i hkey
      rw [Ledger.inOrder_takeOut h hl]
      simp [hkey]
    · rename_i hkey
      exact ⟨fun _ hkey' => absurd hkey' hkey, fun _ => h.evict hl ht⟩
  · refine ⟨fun _ => by simp [Orderly, hn], fun _ => ?_⟩
    rcases he with ⟨count, current, hc⟩ | he
    · obtain ⟨-, -, -, he⟩ := ledger_settle hc hs
      rw [he]
      exact ⟨h.line, h.taken⟩
    · exact he.inOrder hk.sound h

/-- **The samples handed over and queued stay in the order of their submission** exactly where the producer puts no
keyframe back behind another sample. -/
theorem inOrder_iff (g : Globals) (ms : List LineMove) :
    Throughout step (fun s => s.ledger.InOrder) (start g) ms ↔ Along step Orderly (start g) ms :=
  throughout_iff_along (I := Kept) (d := fun _ _ => True) (fun _ _ _ hk _ hs => kept_step hk hs)
    (fun _ _ _ hk _ h hs => inOrder_step hk h hs) (kept_start g) ⟨List.Pairwise.nil, by simp [ledger, start]⟩ along_true

/-- The samples handed to the track are a subsequence of the accepted ones, in the order of their submission. -/
def HandedInOrder (s : Line) : Prop := (s.handed.map (·.id)).Sublist (List.range s.g.accepted)

instance decidableHandedInOrder (s : Line) : Decidable s.HandedInOrder := inferInstanceAs (Decidable (List.Sublist _ _))

/-- The samples handed over stand at the head of the line. -/
theorem handed_ids (s : Line) : s.ledger.line.map (·.id) =
    s.handed.map (·.id) ++ (s.sender.held ++ s.g.videoSendQueue).map (·.id) := by
  simp [ledger, samples, received, Function.comp_def, QueuedVideoSample.ticket]

theorem handedInOrder_of_ledger (hk : s.Kept) (h : s.ledger.InOrder) : s.HandedInOrder := by
  have hsub : (s.handed.map (·.id)).Sublist (s.ledger.line.map (·.id)) :=
    handed_ids s ▸ List.sublist_append_left _ _
  have hmem : s.handed.map (·.id) ⊆ List.range s.g.accepted := fun i hi =>
    hk.sound.placed.mem_iff.1 (by simp only [Ledger.ids, List.mem_append]; exact .inl (.inl (.inl (hsub.subset hi))))
  have hp : (s.handed.map (·.id)).Pairwise (· < ·) := h.line.sublist hsub
  exact List.sublist_of_subperm_of_pairwise (List.subperm_of_subset (hp.imp Nat.ne_of_lt) hmem) hp List.pairwise_lt_range

theorem throughout_kept (g : Globals) (ms : List LineMove) : Throughout step Kept (start g) ms :=
  .of_along (c := fun _ _ => True) (fun _ _ _ hk _ hs => kept_step hk hs) (kept_start g) along_true

/-- **The samples leave in order** in every run in which the producer puts no keyframe back behind another sample. -/
theorem handed_inOrder (g : Globals) (ms : List LineMove) (h : Along step Orderly (start g) ms) :
    Throughout step HandedInOrder (start g) ms :=
  ((throughout_kept g ms).and ((inOrder_iff g ms).2 h)).mono fun _ hs => handedInOrder_of_ledger hs.1 hs.2

theorem handed_inOrder_sent : Throughout step HandedInOrder (start connectedPeer)
    (sending true 5 ++ sending false 5 ++ sent ++ sending false 5) :=
  handed_inOrder connectedPeer _ (by decide)

/-- A keyframe and a delta frame are queued; the next delta frame puts the keyframe back behind the queued one. -/
def overtaking : List LineMove := sending true 5 ++ sending false 5 ++ sending false 9 ++ sent ++ sent

theorem not_handed_inOrder : ¬∀ g ms, Throughout step HandedInOrder (start g) ms := by
  intro h
  obtain ⟨t, ht, hn⟩ : ∃ t ∈ after step (start connectedPeer) overtaking, ¬HandedInOrder t := by decide
  exact hn ((h connectedPeer overtaking).after ht)

/-! ## Time -/

/-- What is taken out costs no sample its place in time, `received` being the samples handed over: a sample that is
dropped was the last one submitted of those handed over and queued, and where others are queued behind it, it tells no
gap; a keyframe that is put back stood last, or neither it nor those behind it tell a gap. -/
def Receipt.Costless (r : Receipt) (received : List QueuedVideoSample) : Prop :=
  if r.putsBack then r.rest = [] ∨ r.oldest.prevDroppedPackets = 0 ∧ ∀ x ∈ r.rest, x.prevDroppedPackets = 0
  else (∀ x ∈ received ++ r.rest, x.id ≤ r.oldest.id) ∧ (r.rest = [] ∨ r.oldest.prevDroppedPackets = 0)

instance decidableCostless (r : Receipt) (received : List QueuedVideoSample) : Decidable (r.Costless received) :=
  inferInstanceAs (Decidable (ite ..))

def Attributed (s : Line) (m : LineMove) : Prop := ∀ r ∈ s.receipt m, r.Costless s.received

instance decidableAttributed (s : Line) (m : LineMove) : Decidable (Attributed s m) :=
  inferInstanceAs (Decidable (∀ r ∈ s.receipt m, r.Costless s.received))

theorem onTime_step (hk : s.Kept) (hb : s.ledger.Balanced) (h : s.ledger.OnTime) (hs : s.step m = some s') :
    s'.ledger.OnTime ↔ Attributed s m := by
  rcases entry_of_step hk.inv hs with ⟨r, hr⟩ | ⟨hn, he⟩
  · obtain ⟨hl, ht, -, he⟩ := ledger_receive hr hs
    rw [he]
    simp only [Attributed, hr, Option.mem_some_iff, forall_eq', Receipt.Costless]
    split
    · rw [Ledger.onTime_takeOut h hl]
      simp [QueuedVideoSample.ticket]
    · rw [Ledger.onTime_evict h hl ht, ← List.map_append, List.forall_mem_map]
      simp [QueuedVideoSample.ticket]
  · refine ⟨fun _ => by simp [Attributed, hn], fun _ => ?_⟩
    rcases he with ⟨count, current, hc⟩ | he
    · obtain ⟨-, -, -, he⟩ := ledger_settle hc hs
      rw [he]
      exact ⟨h.line, h.taken⟩
    · exact he.onTime hk.sound hb h

/-- What holds in every state of a run in which no count is cut off. -/
structure Counted (s : Line) : Prop where
  kept : s.Kept
  balanced : s.ledger.Balanced

theorem counted_start (g : Globals) : (start g).Counted := ⟨kept_start g, rfl⟩

theorem counted_step (h : s.Counted) (hu : Unsaturated s m) (hs : s.step m = some s') : s'.Counted :=
  ⟨kept_step h.kept hs, balanced_step h.kept.inv h.balanced hu hs⟩

/-- **Every sample handed over or queued is on time** exactly where what the producer takes out of the queue costs none
its place. -/
theorem onTime_iff (g : Globals) (ms : List LineMove) (hu : Along step Unsaturated (start g) ms) :
    Throughout step (fun s => s.ledger.OnTime) (start g) ms ↔ Along step Attributed (start g) ms :=
  throughout_iff_along (I := Counted) (fun _ _ _ hc hu hs => counted_step hc hu hs)
    (fun _ _ _ hc _ h hs => onTime_step hc.kept hc.balanced h hs) (counted_start g)
    ⟨trivial, by simp [ledger, start]⟩ hu

/-- At every sample handed to the track, the gaps told so far count the samples submitted before it and dropped. -/
def Timeline (s : Line) : Prop :=
  ∀ pre x post, s.handed = pre ++ x :: post →
    ((pre ++ [x]).map (·.prevDroppedPackets)).sum = (s.g.dropped.filter (· < x.id)).length

theorem timeline_of_ledger (h : s.ledger.OnTime) : s.Timeline := by
  intro pre x post hx
  have hl := Ledger.timed_iff_split.1 h.line (pre.map (·.ticket)) x.ticket
    ((post ++ s.sender.held ++ s.g.videoSendQueue).map (·.ticket)) (by simp [ledger, samples, received, hx])
  rw [Nat.zero_add, ← List.map_singleton, ← List.map_append, List.map_map] at hl
  exact hl

/-- **The timeline is right at every sample handed to the track**, in every run in which no count is cut off and what the
producer takes out of the queue costs no sample its place. -/
theorem handed_timeline (g : Globals) (ms : List LineMove) (hu : Along step Unsaturated (start g) ms)
    (h : Along step Attributed (start g) ms) : Throughout step Timeline (start g) ms :=
  ((onTime_iff g ms hu).2 h).mono fun _ hs => timeline_of_ledger hs

theorem handed_timeline_sent : Throughout step Timeline (start connectedPeer)
    (sending true 5 ++ sending false 5 ++ sent ++ sending false 5 ++ sent ++ sent) :=
  handed_timeline connectedPeer _ (by decide) (by decide)

/-- Two delta frames are queued; a third takes the place of the first, and the second is handed over. -/
def replacing : List LineMove := sending false 5 ++ sending false 5 ++ sending false 7 ++ sent

theorem not_handed_timeline :
    ¬∀ g ms, Along step Unsaturated (start g) ms → Throughout step Timeline (start g) ms := by
  intro h
  obtain ⟨t, ht, hn⟩ : ∃ t ∈ after step (start connectedPeer) replacing,
      ∃ x, t.handed = [x] ∧ x.prevDroppedPackets ≠ (t.g.dropped.filter (· < x.id)).length := by
    refine ⟨_, rfl, _, rfl, by decide⟩
  obtain ⟨x, hx, hne⟩ := hn
  have := (h connectedPeer replacing (by decide)).after ht [] x [] hx
  exact hne (by simpa using this)

/-! ## Conservation -/

/-- The books of the samples, where the running call has the samples `inCall` in hand and `carried` drops to pass on:
every accepted sample is queued, handed to the sender, dropped or in hand; the buffers returned, with the one the
sender is about to return, are those of the samples dropped and handed to the track; the drops are counted. -/
structure Conserved (inCall : List Nat) (carried : Nat) (s : Line) : Prop where
  placed : (s.g.videoSendQueue.map (·.id) ++ s.received.map (·.id) ++ s.g.dropped ++ inCall).Perm
    (List.range s.g.accepted)
  returned : (s.g.returned ++ s.sender.unreturned).Perm (s.g.dropped ++ s.handed.map (·.id))
  once : s.g.returned.Nodup
  queued : ∀ q ∈ s.g.videoSendQueue, q.id ∉ s.g.returned
  counted : s.g.dropped.length =
    ((s.received ++ s.g.videoSendQueue).map (·.prevDroppedPackets)).sum + s.g.videoPendingDrops + carried

/-- The samples the running call has in hand: the one it submits, and the one it has taken out of the queue. -/
def inCall (s : Line) : List Nat := (s.call.taken.map (·.id)).toList ++ s.call.fresh.toList

/-- The drops it has to pass on, and those the sample it has taken out tells. -/
def carriedByCall (s : Line) : Nat := s.call.carried + (s.call.taken.map (·.gap)).getD 0

/-- A step of a call gives up samples and returns their buffers, and hands nothing to the track. -/
theorem step_buffers (c : VideoCall) (g : Globals) : ∃ ids, (c.step g).2.dropped = ids ++ g.dropped ∧
    (c.step g).2.returned = ids ++ g.returned ∧ (c.step g).2.videoWritten = g.videoWritten := by
  cases c with
  | push q => simp only [VideoCall.step]; split <;> exact ⟨[], rfl, rfl, rfl⟩
  | receiveOldest q =>
    simp only [VideoCall.step]
    split
    · exact ⟨[q.id], rfl, rfl, rfl⟩
    · rename_i o rest _
      split
      · exact ⟨[], rfl, rfl, rfl⟩
      · exact ⟨[o.id], rfl, rfl, rfl⟩
  | pushBack q o =>
    simp only [VideoCall.step]
    split
    · exact ⟨[q.id], rfl, rfl, rfl⟩
    · exact ⟨[o.id], rfl, rfl, rfl⟩
  | pushReplacement q =>
    simp only [VideoCall.step]
    split
    · exact ⟨[], rfl, rfl, rfl⟩
    · exact ⟨[q.id], rfl, rfl, rfl⟩
  | casPending count current => simp only [VideoCall.step]; split <;> exact ⟨[], rfl, rfl, rfl⟩
  | _ => exact ⟨[], rfl, rfl, rfl⟩

/-- The buffers returned, with the one the sender is about to return, are those of the samples dropped and handed to
the track. -/
def Returned (s : Line) : Prop := (s.g.returned ++ s.sender.unreturned).Perm (s.g.dropped ++ s.handed.map (·.id))

theorem returned_consume (hi : s.Inv) (h : s.Returned) (hs : s.step .consume = some s') : s'.Returned := by
  unfold Returned at h
  cases consumed_of_step hi hs with
  | receive hsender hqueue =>
    rw [hsender] at h
    exact h
  | testGeneration hsender | loadTrack hsender =>
    rw [hsender] at h
    exact h
  | @write q track hsender =>
    rw [hsender] at h
    have hp := h.append_right [q.id]
    simpa [Returned, handed, VideoSender.unreturned] using hp
  | @putBuf q hsender =>
    rw [hsender] at h
    have hp : (q.id :: s.g.returned).Perm (s.g.returned ++ [q.id]) := @List.perm_append_comm _ [q.id] s.g.returned
    simpa [Returned, handed, VideoSender.unreturned, Globals.putSampleBuf] using hp.trans h

theorem returned_step (hi : s.Inv) (h : s.Returned) (hs : s.step m = some s') : s'.Returned := by
  cases m with
  | send a => obtain ⟨-, rfl⟩ := step_send hs; exact h
  | consume => exact returned_consume hi h hs
  | state state => obtain rfl := Option.some.inj hs; exact h
  | produce =>
    rcases step_produce hs with ⟨code, hp, rfl⟩ | ⟨c, hp, -, rfl⟩
    · exact h
    · obtain ⟨ids, hd, hr, hw⟩ := step_buffers c s.g
      have hp := List.Perm.append_left ids h
      simpa [Returned, handed, hd, hr, hw] using hp

theorem conserved_of_counted (h : s.Counted) (hr : s.Returned) : Conserved s.inCall s.carriedByCall s := by
  have hplaced : (s.g.videoSendQueue.map (·.id) ++ s.received.map (·.id) ++ s.g.dropped ++ s.inCall).Perm
      (List.range s.g.accepted) := by
    refine List.Perm.trans (List.perm_iff_count.2 fun i => ?_) h.kept.sound.placed
    simp only [Ledger.ids, inCall, ledger, samples, List.map_append, List.map_map, List.count_append, Function.comp_def,
      QueuedVideoSample.ticket]
    omega
  have hone : ∀ i, (s.g.videoSendQueue.map (·.id)).count i + (s.g.dropped ++ s.handed.map (·.id)).count i ≤ 1 := by
    intro i
    have hn := List.nodup_iff_count_le_one.1 (hplaced.nodup_iff.2 List.nodup_range) i
    simp only [received, List.map_append, List.count_append] at hn ⊢
    omega
  have hsent : (s.g.returned ++ s.sender.unreturned).Nodup :=
    hr.nodup_iff.2 (List.nodup_iff_count_le_one.2 fun i => Nat.le_trans (Nat.le_add_left _ _) (hone i))
  refine ⟨hplaced, hr, (List.nodup_append.1 hsent).1, fun q hq hret => ?_, ?_⟩
  · have h1 : 0 < (s.g.videoSendQueue.map (·.id)).count q.id := List.count_pos_iff.2 (List.mem_map_of_mem hq)
    have h2 : 0 < (s.g.dropped ++ s.handed.map (·.id)).count q.id :=
      List.count_pos_iff.2 (hr.mem_iff.1 (List.mem_append_left _ hret))
    have := hone q.id
    omega
  · have hb := h.balanced
    simp only [Ledger.Balanced, Ledger.gaps, ledger, List.map_map, Function.comp_def, QueuedVideoSample.ticket] at hb
    simp only [carriedByCall, samples] at hb ⊢
    omega

/-- **The samples are conserved**, in every run in which no count is cut off: every accepted sample is queued, handed to
the sender, dropped, or in the hands of the running call, and between two calls none is. -/
theorem conserved (g : Globals) (ms : List LineMove) (hu : Along step Unsaturated (start g) ms) :
    Throughout step (fun s => Conserved s.inCall s.carriedByCall s ∧ (s.producer = none → Conserved [] 0 s)) (start g)
      ms := by
  have h : Throughout step (fun s => s.Counted ∧ s.Returned) (start g) ms :=
    .of_along (fun _ _ _ h hu hs => ⟨counted_step h.1 hu hs, returned_step h.1.kept.inv h.2 hs⟩)
      ⟨counted_start g, .refl []⟩ hu
  refine h.mono fun s h => ⟨conserved_of_counted h.1 h.2, fun hp => ?_⟩
  have hc := conserved_of_counted h.1 h.2
  rwa [show s.inCall = [] by simp [inCall, call, hp], show s.carriedByCall = 0 by simp [carriedByCall, call, hp]] at hc

theorem conserved_evicted : Throughout step (fun s => Conserved s.inCall s.carriedByCall s ∧
    (s.producer = none → Conserved [] 0 s)) (start connectedPeer) replacing :=
  conserved connectedPeer replacing (by decide)

/-- Two samples are queued, the first one a keyframe, and a third is being sent. -/
def evicting : List LineMove := sending true 5 ++ sending false 5 ++ sending false 5

/-- The keyframe that is being put back is in the call's hands only, and so is the sample the call is made for. -/
theorem not_conserved :
    ¬∀ g ms, Along step Unsaturated (start g) ms → Throughout step (Conserved [] 0) (start g) ms := by
  intro h
  obtain ⟨t, ht, ha, hp⟩ : ∃ t ∈ after step (start connectedPeer) evicting, t.g.accepted = 3 ∧
      t.g.videoSendQueue.map (·.id) ++ t.received.map (·.id) ++ t.g.dropped = [1] := ⟨_, rfl, rfl, rfl⟩
  have hl := ((h connectedPeer evicting (by decide)).after ht).placed.length_eq
  simp [ha, hp] at hl

end Line

end GoMedia
end Host
end CloudGaming
