import CloudGaming.Host.Generations
/-!
# Callbacks — what the callbacks of a replaced peer connection still reach

The connection state and the input queues are shared by all peers, and the callbacks of a peer bear no generation.  In
every run in which the library runs neither a state callback nor a message callback of an earlier peer, the state is the
current peer's and the messages polled are (`isolated_of_current`); the other callbacks do no harm.
-/
namespace CloudGaming
namespace Host
namespace GoMedia

open Async

/-- The peer whose messages may still be queued: the one of the last `createPeerConnectionGo` that returned, up to the
point where the next one clears the queues. -/
def Layer.accepting (s : Layer) : Option PeerId :=
  match s.lifecycle with
  | .clearBuffer | .install => none
  | _ => s.g.served

/-- `createPeerConnectionGo` has not returned. -/
def Lifecycle.creating : Lifecycle → Bool
  | .idle => false
  | .bumpGeneration create | .zeroPending create | .drainVideo create | .drainAudio create => create
  | .clearQueues | .clearBuffer | .install => true

/-- The callback, as it runs, is not one of an earlier peer that sets another connection state once
`createPeerConnectionGo` has returned, nor a message callback of one. -/
def Callback.Current (s : Layer) : Callback → Prop
  | .setState peer state =>
    s.lifecycle.creating = false → s.g.peerConnection = some peer ∨ state = s.g.connectionState
  | .message c _ _ => s.accepting = some c.peer
  | _ => True

/-- The library runs no callback of an earlier peer that matters. -/
def Layer.Current (s : Layer) : Move → Prop
  | .resume i => ∀ c ∈ s.callbacks[i]?, c.Current s
  | _ => True

instance Callback.decidableCurrent (s : Layer) : ∀ c : Callback, Decidable (c.Current s)
  | .setState _ _ => inferInstanceAs (Decidable (_ → _))
  | .message _ _ _ => inferInstanceAs (Decidable (_ = _))
  | .flush | .enqueue _ _ | .openChannel _ _ | .close _ _ | .error _ _ | .reset _ _ | .done => .isTrue trivial

instance Layer.decidableCurrent (s : Layer) : ∀ m : Move, Decidable (s.Current m)
  | .resume i => inferInstanceAs (Decidable (∀ c ∈ s.callbacks[i]?, c.Current s))
  | .createPeerConnection | .closePeerConnection | .lifecycle _ | .sendVideoSample _ | .video _ | .sendAudioPacket _
  | .audio _ | .callback _ | .videoSender | .audioSender | .pollKey | .pollMouse => .isTrue trivial

/-- A move changes the connection state, while no peer is made, only in a callback of the current peer, or to close it. -/
def Layer.StateIsolated (goType : Payload → String) (s : Layer) (m : Move) : Prop :=
  ∀ s', s.step goType m = some s' → s.lifecycle.creating = false → s'.g.connectionState ≠ s.g.connectionState →
    m = .createPeerConnection ∨ m = .closePeerConnection ∨
      ∃ i peer state, m = .resume i ∧ s.callbacks[i]? = some (.setState peer state) ∧ s.g.peerConnection = some peer

/-- A message that a move returns to the host was not received from an earlier peer. -/
def Layer.MessageIsolated (goType : Payload → String) (s : Layer) (m : Move) : Prop :=
  ∀ s' msg, s.step goType m = some s' → s'.g.polled = msg :: s.g.polled →
    ∀ p ∈ msg.receivedFrom, s.g.served = some p

/-- Every queued message was received from the peer that is being served, or is the Go layer's own. -/
def Layer.Received (s : Layer) : Prop :=
  ∀ m ∈ s.g.messageQueue ++ s.g.mouseQueue, ∀ p ∈ m.receivedFrom, s.accepting = some p

/-- The input, and what was polled of it, is as it was. -/
structure Globals.SameInput (g g' : Globals) : Prop where
  messageQueue : g'.messageQueue = g.messageQueue
  mouseQueue : g'.mouseQueue = g.mouseQueue
  served : g'.served = g.served
  polled : g'.polled = g.polled

section steps
variable {goType : Payload → String} {s s' : Layer}

/-! ## The queues -/

/-- A queue that is full is replaced by a reset, which carries the message on if it ends something. -/
theorem mem_bounded {full ends : Prop} [Decidable full] [Decidable ends] {reason : String} {queue : List Message}
    {m x : Message} (h : x ∈ if full then ownReset reason :: (if ends then [m] else []) else queue ++ [m]) :
    x ∈ queue ∨ x = m ∨ x.receivedFrom = none := by
  split at h
  · rcases List.mem_cons.1 h with rfl | h
    · exact .inr (.inr rfl)
    · split at h
      · exact .inr (.inl (List.mem_singleton.1 h))
      · cases h
  · rcases List.mem_append.1 h with h | h
    · exact .inl h
    · exact .inr (.inl (List.mem_singleton.1 h))

theorem mem_enqueueMessage {queue : List Message} {m x : Message} (h : x ∈ enqueueMessage goType queue m) :
    x ∈ queue ∨ x = m ∨ x.receivedFrom = none :=
  mem_bounded h

theorem mem_enqueueMouseEvent {queue : List Message} {m x : Message} (h : x ∈ enqueueMouseEvent goType queue m) :
    x ∈ queue ∨ x = m ∨ x.receivedFrom = none := by
  unfold enqueueMouseEvent at h
  split at h
  · rcases List.mem_append.1 h with h | h
    · exact .inl (List.mem_of_mem_dropLast h)
    · exact .inr (.inl (List.mem_singleton.1 h))
  · exact mem_bounded h

theorem Globals.mem_enqueue {g : Globals} {mouse : Bool} {m x : Message}
    (h : x ∈ (g.enqueue goType mouse m).messageQueue ++ (g.enqueue goType mouse m).mouseQueue) :
    x ∈ g.messageQueue ++ g.mouseQueue ∨ x = m ∨ x.receivedFrom = none := by
  cases mouse with
  | false =>
    rcases List.mem_append.1 h with h | h
    · exact (mem_enqueueMessage h).imp_left (List.mem_append_left _)
    · exact .inl (List.mem_append_right _ h)
  | true =>
    rcases List.mem_append.1 h with h | h
    · exact .inl (List.mem_append_left _ h)
    · exact (mem_enqueueMouseEvent h).imp_left (List.mem_append_right _)

variable (goType) in
/-- What a callback does to the connection state. -/
theorem Callback.step_connectionState (c : Callback) (g : Globals) :
    (c.step goType g).2.connectionState = g.connectionState ∨ ∃ peer state, c = .setState peer state ∧
      (c.step goType g).2.connectionState = state := by
  have hqueue : ∀ mouse m, (g.enqueue goType mouse m).connectionState = g.connectionState := by
    intro mouse m
    obtain ⟨keys, mice, he⟩ := g.enqueue_media goType mouse m
    rw [he]
  cases c with
  | setState peer state => exact .inr ⟨peer, state, rfl, rfl⟩
  | flush =>
    simp only [Callback.step]
    split <;> exact .inl rfl
  | enqueue e rest =>
    obtain ⟨⟨queue, hg⟩, -⟩ := e.step_held g
    have hsame : (e.step g).2.connectionState = g.connectionState := by rw [hg]
    cases e with
    | done queued => cases rest <;> exact .inl rfl
    | _ => exact .inl hsame
  | openChannel c mouse => cases mouse <;> exact .inl rfl
  | message c mouse p => exact .inl (hqueue _ _)
  | close c mouse => cases mouse <;> exact .inl rfl
  | error c mouse => exact .inl (hqueue _ _)
  | reset mouse reason => exact .inl (hqueue _ _)
  | done => exact .inl rfl

variable (goType) in
/-- A callback adds to the input what the library received, or a reset of the Go layer's own. -/
theorem Callback.step_input (c : Callback) (g : Globals) :
    (c.step goType g).2.served = g.served ∧ (c.step goType g).2.polled = g.polled ∧
    ∀ x ∈ (c.step goType g).2.messageQueue ++ (c.step goType g).2.mouseQueue, x ∈ g.messageQueue ++ g.mouseQueue ∨
      x.receivedFrom = none ∨ ∃ channel mouse p, c = .message channel mouse p ∧ x.receivedFrom = some channel.peer := by
  have hsame : ∀ {g'}, g.SameInput g' → g'.served = g.served ∧ g'.polled = g.polled ∧
      ∀ x ∈ g'.messageQueue ++ g'.mouseQueue, x ∈ g.messageQueue ++ g.mouseQueue ∨ x.receivedFrom = none ∨
        ∃ channel mouse p, c = .message channel mouse p ∧ x.receivedFrom = some channel.peer := by
    intro g' h
    exact ⟨h.served, h.polled, fun x hx => .inl (by rwa [h.messageQueue, h.mouseQueue] at hx)⟩
  have hqueue : ∀ mouse m, (g.enqueue goType mouse m).served = g.served ∧
      (g.enqueue goType mouse m).polled = g.polled := by
    intro mouse m
    obtain ⟨keys, mice, he⟩ := g.enqueue_media goType mouse m
    rw [he]
    exact ⟨rfl, rfl⟩
  have hown : ∀ mouse reason, ∀ x ∈ (g.enqueue goType mouse (ownReset reason)).messageQueue ++
      (g.enqueue goType mouse (ownReset reason)).mouseQueue,
      x ∈ g.messageQueue ++ g.mouseQueue ∨ x.receivedFrom = none := by
    intro mouse reason x hx
    rcases Globals.mem_enqueue hx with hx | rfl | hx
    · exact .inl hx
    · exact .inr rfl
    · exact .inr hx
  cases c with
  | setState peer state => exact hsame ⟨rfl, rfl, rfl, rfl⟩
  | flush =>
    simp only [Callback.step] at hsame ⊢
    split <;> exact hsame ⟨rfl, rfl, rfl, rfl⟩
  | enqueue e rest =>
    obtain ⟨⟨queue, hg⟩, -⟩ := e.step_held g
    have he : g.SameInput (e.step g).2 := hg ▸ ⟨rfl, rfl, rfl, rfl⟩
    cases e with
    | done queued => cases rest <;> exact hsame ⟨rfl, rfl, rfl, rfl⟩
    | _ => exact hsame he
  | openChannel c mouse => cases mouse <;> exact hsame ⟨rfl, rfl, rfl, rfl⟩
  | message c mouse p =>
    obtain ⟨h1, h2⟩ := hqueue mouse ⟨p, some c.peer⟩
    refine ⟨h1, h2, fun x hx => ?_⟩
    rcases Globals.mem_enqueue hx with hx | rfl | hx
    · exact .inl hx
    · exact .inr (.inr ⟨c, mouse, p, rfl, rfl⟩)
    · exact .inr (.inl hx)
  | close c mouse => cases mouse <;> exact hsame ⟨rfl, rfl, rfl, rfl⟩
  | error c mouse =>
    obtain ⟨h1, h2⟩ := hqueue mouse (ownReset (if mouse then "mouse_channel_error" else "keyboard_channel_error"))
    exact ⟨h1, h2, fun x hx => (hown mouse _ x hx).imp_right .inl⟩
  | reset mouse reason =>
    obtain ⟨h1, h2⟩ := hqueue mouse (ownReset reason)
    exact ⟨h1, h2, fun x hx => (hown mouse _ x hx).imp_right .inl⟩
  | done => exact hsame ⟨rfl, rfl, rfl, rfl⟩

/-! ## Moves -/

theorem accepting_le {p : PeerId} (h : s.accepting = some p) : s.g.served = some p := by
  unfold Layer.accepting at h
  split at h <;> first | cases h | exact h

/-- The moves but for a stage of a replacement, a callback and a poll leave the input as it is, and the connection state
but where a peer is made or closed. -/
theorem sameInput_step {m : Move} (hs : s.step goType m = some s') :
    (∃ o, m = .lifecycle o) ∨ (∃ i, m = .resume i) ∨ m = .pollKey ∨ m = .pollMouse ∨
      (m = .createPeerConnection ∨ m = .closePeerConnection ∨ s'.g.connectionState = s.g.connectionState) ∧
        s'.accepting = s.accepting ∧ s.g.SameInput s'.g := by
  cases m with
  | createPeerConnection =>
    simp only [Layer.step] at hs
    split at hs
    · rename_i hl
      obtain rfl := Option.some.inj hs
      have ha : s.accepting = s.g.served := by simp only [Layer.accepting, hl]
      exact .inr (.inr (.inr (.inr ⟨.inl rfl, ha.symm, rfl, rfl, rfl, rfl⟩)))
    · cases hs
  | closePeerConnection =>
    simp only [Layer.step] at hs
    split at hs
    · rename_i hl
      obtain rfl := Option.some.inj hs
      have ha : s.accepting = s.g.served := by simp only [Layer.accepting, hl]
      exact .inr (.inr (.inr (.inr ⟨.inr (.inl rfl), ha.symm, rfl, rfl, rfl, rfl⟩)))
    · cases hs
  | lifecycle o => exact .inl ⟨o, rfl⟩
  | sendVideoSample a =>
    obtain rfl := Option.some.inj hs
    exact .inr (.inr (.inr (.inr ⟨.inr (.inr rfl), rfl, rfl, rfl, rfl, rfl⟩)))
  | video i =>
    obtain ⟨c, -, rfl⟩ := Option.map_eq_some_iff.1 hs
    obtain ⟨queue, pending, accepted, dropped, returned, hg⟩ := c.step_frame s.g
    rw [hg]
    exact .inr (.inr (.inr (.inr ⟨.inr (.inr rfl), rfl, rfl, rfl, rfl, rfl⟩)))
  | sendAudioPacket a =>
    obtain rfl := Option.some.inj hs
    exact .inr (.inr (.inr (.inr ⟨.inr (.inr rfl), rfl, rfl, rfl, rfl, rfl⟩)))
  | audio i =>
    obtain ⟨c, -, rfl⟩ := Option.map_eq_some_iff.1 hs
    obtain ⟨queue, buffer, hg⟩ := c.step_frame s.g
    rw [hg]
    exact .inr (.inr (.inr (.inr ⟨.inr (.inr rfl), rfl, rfl, rfl, rfl, rfl⟩)))
  | callback c =>
    simp only [Layer.step] at hs
    split at hs
    · obtain rfl := Option.some.inj hs
      exact .inr (.inr (.inr (.inr ⟨.inr (.inr rfl), rfl, rfl, rfl, rfl, rfl⟩)))
    · cases hs
  | resume i => exact .inr (.inl ⟨i, rfl⟩)
  | videoSender =>
    obtain ⟨⟨v, g⟩, hr, rfl⟩ := Option.map_eq_some_iff.1 hs
    refine .inr (.inr (.inr (.inr ?_)))
    cases hv : s.videoSender with
    | idle =>
      rw [hv] at hr
      simp only [VideoSender.step] at hr
      split at hr
      · cases hr
      · cases hr; exact ⟨.inr (.inr rfl), rfl, rfl, rfl, rfl, rfl⟩
    | _ => rw [hv] at hr; cases hr; exact ⟨.inr (.inr rfl), rfl, rfl, rfl, rfl, rfl⟩
  | audioSender =>
    obtain ⟨⟨v, g⟩, hr, rfl⟩ := Option.map_eq_some_iff.1 hs
    refine .inr (.inr (.inr (.inr ?_)))
    cases hv : s.audioSender with
    | idle =>
      rw [hv] at hr
      simp only [AudioSender.step] at hr
      split at hr
      · cases hr
      · cases hr; exact ⟨.inr (.inr rfl), rfl, rfl, rfl, rfl, rfl⟩
    | _ => rw [hv] at hr; cases hr; exact ⟨.inr (.inr rfl), rfl, rfl, rfl, rfl, rfl⟩
  | pollKey => exact .inr (.inr (.inl rfl))
  | pollMouse => exact .inr (.inr (.inr (.inl rfl)))

/-- What is still queued may stay queued while the peers accepted stay accepted. -/
theorem Layer.Received.subset (h : s.Received) (ha : ∀ p, s.accepting = some p → s'.accepting = some p)
    (hsub : s'.g.messageQueue ++ s'.g.mouseQueue ⊆ s.g.messageQueue ++ s.g.mouseQueue) : s'.Received :=
  fun x hx p hp => ha p (h x (hsub hx) p hp)

theorem received_lifecycle {o : Outcome} (h : s.Received) (hs : s.step goType (.lifecycle o) = some s') :
    s'.Received := by
  obtain ⟨⟨l, g⟩, hr, rfl⟩ := Option.map_eq_some_iff.1 hs
  cases hl : s.lifecycle with
  | idle => rw [hl] at hr; cases hr
  | clearQueues =>
    rw [hl] at hr
    cases hr
    intro x hx
    cases hx
  | clearBuffer =>
    rw [hl] at hr
    cases hr
    exact h.subset (fun p hp => by simp only [Layer.accepting, hl] at hp; cases hp) (List.Subset.refl _)
  | install =>
    rw [hl] at hr
    cases hr
    refine h.subset (fun p hp => by simp only [Layer.accepting, hl] at hp; cases hp) ?_
    cases o <;> exact List.Subset.refl _
  | drainVideo create =>
    rw [hl] at hr
    simp only [Lifecycle.step] at hr
    split at hr <;> cases hr <;>
      exact h.subset (fun p hp => by simp only [Layer.accepting, hl] at hp; exact hp) (List.Subset.refl _)
  | drainAudio create =>
    rw [hl] at hr
    simp only [Lifecycle.step] at hr
    split at hr <;> cases hr
    · cases create <;> exact h.subset (fun p hp => by simp only [Layer.accepting, hl] at hp; exact hp) (List.Subset.refl _)
    · exact h.subset (fun p hp => by simp only [Layer.accepting, hl] at hp; exact hp) (List.Subset.refl _)
  | _ =>
    rw [hl] at hr
    cases hr
    exact h.subset (fun p hp => by simp only [Layer.accepting, hl] at hp; exact hp) (List.Subset.refl _)

theorem received_step {m : Move} (h : s.Received) (hc : s.Current m) (hs : s.step goType m = some s') :
    s'.Received := by
  rcases sameInput_step hs with ⟨o, rfl⟩ | ⟨i, rfl⟩ | rfl | rfl | ⟨-, ha, hsame⟩
  · exact received_lifecycle h hs
  · obtain ⟨c, hi, rfl⟩ := Option.map_eq_some_iff.1 hs
    obtain ⟨hserved, -, hqueue⟩ := c.step_input goType s.g
    have ha : ({ s with callbacks := s.callbacks.set i (c.step goType s.g).1, g := (c.step goType s.g).2 } :
        Layer).accepting = s.accepting := by simp only [Layer.accepting, hserved]
    intro x hx p hp
    rw [ha]
    rcases hqueue x hx with hold | hown | ⟨channel, mouse, payload, rfl, hfrom⟩
    · exact h x hold p hp
    · cases hown ▸ hp
    · rw [hfrom] at hp
      cases hp
      exact hc _ hi
  · obtain rfl := Option.some.inj hs
    refine h.subset (fun p hp => ?_) ?_
    · simp only [Layer.accepting, Globals.pollKey] at hp ⊢
      cases hq : s.g.messageQueue <;> exact hp
    · simp only [Globals.pollKey]
      cases hq : s.g.messageQueue <;> simp [hq]
  · obtain rfl := Option.some.inj hs
    refine h.subset (fun p hp => ?_) ?_
    · simp only [Layer.accepting, Globals.pollMouse] at hp ⊢
      cases hq : s.g.mouseQueue <;> exact hp
    · simp only [Globals.pollMouse]
      cases hq : s.g.mouseQueue <;> simp [hq]
  · refine h.subset (fun p hp => ha ▸ hp) ?_
    rw [hsame.messageQueue, hsame.mouseQueue]
    exact List.Subset.refl _

/-- A stage of a replacement polls nothing. -/
theorem polled_lifecycle {o : Outcome} (hs : s.step goType (.lifecycle o) = some s') :
    s'.g.polled = s.g.polled ∧ (s.lifecycle.creating = false → s'.g.connectionState = s.g.connectionState) := by
  obtain ⟨⟨l, g⟩, hr, rfl⟩ := Option.map_eq_some_iff.1 hs
  cases hl : s.lifecycle with
  | idle => rw [hl] at hr; cases hr
  | drainVideo create | drainAudio create =>
    rw [hl] at hr
    simp only [Lifecycle.step] at hr
    split at hr <;> cases hr <;> exact ⟨rfl, fun _ => rfl⟩
  | install =>
    rw [hl] at hr
    cases hr
    cases o <;> exact ⟨rfl, fun h => by cases h⟩
  | _ =>
    rw [hl] at hr
    cases hr
    exact ⟨rfl, fun _ => rfl⟩

theorem stateIsolated_of_current {m : Move} (hc : s.Current m) : s.StateIsolated goType m := by
  intro s' hs hl hne
  rcases sameInput_step hs with ⟨o, rfl⟩ | ⟨i, rfl⟩ | rfl | rfl | ⟨hm | hm | hm, -, -⟩
  · exact absurd ((polled_lifecycle hs).2 hl) hne
  · obtain ⟨c, hi, rfl⟩ := Option.map_eq_some_iff.1 hs
    rcases c.step_connectionState goType s.g with h | ⟨peer, state, rfl, h⟩
    · exact absurd h hne
    · rcases hc _ hi hl with hp | hsame
      · exact .inr (.inr ⟨i, peer, state, rfl, hi, hp⟩)
      · exact absurd (h.trans hsame) hne
  · obtain rfl := Option.some.inj hs
    refine absurd ?_ hne
    simp only [Globals.pollKey]
    cases s.g.messageQueue <;> rfl
  · obtain rfl := Option.some.inj hs
    refine absurd ?_ hne
    simp only [Globals.pollMouse]
    cases s.g.mouseQueue <;> rfl
  · exact .inl hm
  · exact .inr (.inl hm)
  · exact absurd hm hne

theorem messageIsolated_of_received {m : Move} (h : s.Received) : s.MessageIsolated goType m := by
  intro s' x hs hx p hp
  have hmore : s'.g.polled ≠ s.g.polled := by
    rw [hx]
    exact List.cons_ne_self _ _
  rcases sameInput_step hs with ⟨o, rfl⟩ | ⟨i, rfl⟩ | rfl | rfl | ⟨-, -, hsame⟩
  · exact absurd (polled_lifecycle hs).1 hmore
  · obtain ⟨c, hi, rfl⟩ := Option.map_eq_some_iff.1 hs
    exact absurd (c.step_input goType s.g).2.1 hmore
  · obtain rfl := Option.some.inj hs
    simp only [Globals.pollKey] at hx
    cases hq : s.g.messageQueue with
    | nil => simp [hq] at hx
    | cons y rest =>
      simp only [hq, List.cons.injEq, and_true] at hx
      exact accepting_le (h x (by simp [hq, hx]) p hp)
  · obtain rfl := Option.some.inj hs
    simp only [Globals.pollMouse] at hx
    cases hq : s.g.mouseQueue with
    | nil => simp [hq] at hx
    | cons y rest =>
      simp only [hq, List.cons.injEq, and_true] at hx
      exact accepting_le (h x (by simp [hq, hx]) p hp)
  · exact absurd hsame.polled hmore

end steps

/-- **While the library runs no callback of an earlier peer that matters, the peers are isolated.** -/
theorem isolated_of_current (goType : Payload → String) (ms : List Move)
    (h : Along (Layer.step goType) Layer.Current {} ms) :
    Along (Layer.step goType) (fun s m => s.StateIsolated goType m ∧ s.MessageIsolated goType m) {} ms :=
  h.of_along (fun _ _ _ => received_step) (fun _ _ hr hc => ⟨stateIsolated_of_current hc, messageIsolated_of_received hr⟩)
    fun _ hm => by cases hm

/-! ### Runs -/

/-- A key message arrives on the channel of the peer, in the callback of that number. -/
def keyMessage (peer : PeerId) (callback : Nat) : List Move :=
  [.callback (.message ⟨peer, 0⟩ false ⟨2, none⟩), .resume callback]

/-- A key of each of two peers is polled. -/
def keyOfEach : List Move :=
  creation ++ connection 0 0 ++ keyMessage 0 1 ++ [.pollKey] ++ creation ++ connection 1 2 ++ keyMessage 1 3 ++ [.pollKey]

theorem isolated_of_current_keys : Along (Layer.step fun _ => "")
    (fun s m => s.StateIsolated (fun _ => "") m ∧ s.MessageIsolated (fun _ => "") m) {} keyOfEach :=
  isolated_of_current _ keyOfEach (by decide)

/-- The first peer tells that it is closed after the second one was made. -/
def lateClose : List Move := creation ++ creation ++ [.callback (.setState 0 .closed)]

/-- A key of the first peer arrives after the second one was made. -/
def lateKey : List Move := creation ++ creation ++ keyMessage 0 0

/-- Both laws fail: one late callback closes the second peer, another one hands the host a key of the first. -/
theorem not_isolated :
    (¬∀ goType ms, Along (Layer.step goType) (·.StateIsolated goType) {} ms) ∧
      ¬∀ goType ms, Along (Layer.step goType) (·.MessageIsolated goType) {} ms := by
  refine ⟨fun h => ?_, fun h => ?_⟩
  · have hlate := (h (fun _ => "") (lateClose ++ [.resume 0])).last rfl rfl
    obtain h | h | ⟨i, peer, state, hm, hi, hp⟩ := hlate _ rfl rfl (by decide)
    · cases h
    · cases h
    · cases hm
      cases hi
      cases hp
  · have hlate := (h (fun _ => "") (lateKey ++ [.pollKey])).last rfl rfl
    cases hlate _ _ rfl rfl 0 rfl

end GoMedia
end Host
end CloudGaming
