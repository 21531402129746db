import CloudGaming.Async.Along
/-!
# RemoteCandidates — the ICE candidates of the player on their way to a peer connection

One thread handles the messages of the signaling server: it creates the connections, takes the offers and passes on the
candidates, which wait while the connection has no remote description.  Any other thread may close the connection between
two steps.  Connections and candidates are numbered; a candidate bears the connection that was there when it came.
-/
namespace CloudGaming
namespace Host
namespace RemoteCandidates

open Async

structure Candidate where
  number : Nat
  peer : Nat
  deriving DecidableEq, Repr

/-- Where the thread of the messages stands. -/
inductive Stage where
  | idle
  -- `handleRemoteIceCandidate` has read `peerConnection` and does not have `signalingMutex`
  | entering (c : Candidate)
  -- `createPeerConnectionGo` has dropped the old connection, and has forgotten its candidates
  | creating (cleared : Bool)
  deriving DecidableEq, Repr

/-- `made` connections have been made, those with a remote description are `described`; `given` are the calls of
`AddICECandidate` and `received` the candidates that came while there was a connection. -/
structure State where
  peerConnection : Option Nat := none
  made : Nat := 0
  described : List Nat := []
  pendingRemoteCandidates : List Candidate := []
  stage : Stage := .idle
  next : Nat := 0
  given : List (Nat × Candidate) := []
  received : List Candidate := []
  deriving DecidableEq, Repr

inductive Move where
  | handleRemoteIceCandidate
  | enter
  -- `handleOffer` with its locks held; whether `SetRemoteDescription` succeeds
  | handleOffer (set : Bool)
  | createPeerConnectionGo
  | clear
  | created (succeeded : Bool)
  | closePeerConnection
  deriving DecidableEq, Repr

/-- A candidate with `signalingMutex` held. -/
def State.take (s : State) (c : Candidate) : State :=
  if c.peer ∈ s.described then { s with stage := .idle, given := s.given ++ [(c.peer, c)] }
  else { s with stage := .idle, pendingRemoteCandidates := s.pendingRemoteCandidates ++ [c] }

def step (s : State) : Move → Option State
  | .handleRemoteIceCandidate =>
    match s.stage, s.peerConnection with
    | .idle, none => some { s with next := s.next + 1 }
    | .idle, some p =>
      some { s with
        next := s.next + 1
        stage := .entering ⟨s.next, p⟩
        received := s.received ++ [⟨s.next, p⟩] }
    | _, _ => none
  | .enter =>
    match s.stage with
    | .entering c => some (s.take c)
    | _ => none
  | .handleOffer set =>
    match s.stage, s.peerConnection with
    | .idle, some p =>
      if set then
        some { s with
          described := p :: s.described
          given := s.given ++ s.pendingRemoteCandidates.map fun c => (p, c)
          pendingRemoteCandidates := [] }
      else some s
    | _, _ => none
  | .createPeerConnectionGo =>
    match s.stage with
    | .idle => some { s with peerConnection := none, stage := .creating false }
    | _ => none
  | .clear =>
    match s.stage with
    | .creating false => some { s with pendingRemoteCandidates := [], stage := .creating true }
    | _ => none
  | .created succeeded =>
    match s.stage with
    | .creating true =>
      if succeeded then some { s with peerConnection := some s.made, made := s.made + 1, stage := .idle }
      else some { s with stage := .idle }
    | _ => none
  | .closePeerConnection =>
    match s.stage with
    | .creating _ => none
    | _ => some { s with peerConnection := none }

/-! ## What a connection is given -/

/-- What `AddICECandidate` of the connection `p` was called with. -/
def State.givenTo (s : State) (p : Nat) : List Candidate := (s.given.filter (·.1 = p)).map Prod.snd

/-- The candidates that came while `p` was the connection. -/
def State.receivedFor (s : State) (p : Nat) : List Candidate := s.received.filter (·.peer = p)

/-- The candidate for `p` that is being passed on. -/
def State.inHand (s : State) (p : Nat) : List Candidate :=
  match s.stage with
  | .entering c => if c.peer = p then [c] else []
  | _ => []

/-- Every connection has been given what came for it, in order and once: a part from the start, and all but the one being
passed on where it is described; where it is the current one and not described, the rest waits. -/
structure Delivered (s : State) : Prop where
  inOrder : ∀ p, s.givenTo p <+: s.receivedFor p
  once : ∀ p, (s.givenTo p).Nodup
  described : ∀ p ∈ s.described, s.givenTo p ++ s.inHand p = s.receivedFor p
  waiting : ∀ p, s.peerConnection = some p → s.givenTo p ++ s.pendingRemoteCandidates ++ s.inHand p = s.receivedFor p

structure Inv (s : State) : Prop where
  described : ∀ p ∈ s.described, s.givenTo p ++ s.inHand p = s.receivedFor p
  undescribed : ∀ p, p ∉ s.described → s.givenTo p = []
  waiting : ∀ p, s.peerConnection = some p → p ∉ s.described →
    s.pendingRemoteCandidates ++ s.inHand p = s.receivedFor p
  nothing : ∀ p, s.peerConnection = some p → p ∈ s.described → s.pendingRemoteCandidates = []
  cleared : s.stage = .creating true → s.pendingRemoteCandidates = []
  gone : ∀ b, s.stage = .creating b → s.peerConnection = none
  same : ∀ c p, s.stage = .entering c → s.peerConnection = some p → c.peer = p
  made : (∀ p, s.peerConnection = some p → p < s.made) ∧ (∀ p ∈ s.described, p < s.made) ∧
    ∀ c ∈ s.received, c.peer < s.made
  numbered : s.received.Pairwise (·.number < ·.number) ∧ ∀ c ∈ s.received, c.number < s.next

section
variable {s s' : State} {p : Nat} {c : Candidate}

theorem inHand_eq_nil (h : ∀ c, s.stage ≠ .entering c) : s.inHand p = [] := by
  unfold State.inHand
  cases hs : s.stage with
  | entering c => exact absurd hs (h c)
  | _ => rfl

theorem inHand_idle (h : s.stage = .idle) : s.inHand p = [] := inHand_eq_nil fun c hc => by rw [h] at hc; cases hc

theorem inHand_entering (h : s.stage = .entering c) : s.inHand p = if c.peer = p then [c] else [] := by
  simp only [State.inHand, h]

theorem Inv.delivered (h : Inv s) : Delivered s := by
  have hin : ∀ p, s.givenTo p <+: s.receivedFor p := by
    intro p
    by_cases hp : p ∈ s.described
    · exact h.described p hp ▸ List.prefix_append _ _
    · rw [h.undescribed p hp]
      exact List.nil_prefix
  refine ⟨hin, fun p => ?_, h.described, fun p hp => ?_⟩
  · have hn : s.received.Nodup := h.numbered.1.imp fun hlt heq => by rw [heq] at hlt; exact Nat.lt_irrefl _ hlt
    exact (hn.filter _).sublist (hin p).sublist
  · by_cases hd : p ∈ s.described
    · rw [h.nothing p hp hd, List.append_nil, h.described p hd]
    · rw [h.undescribed p hd, List.nil_append, h.waiting p hp hd]

theorem Inv.initial : Inv {} := by
  refine ⟨?_, ?_, ?_, ?_, ?_, ?_, ?_, ?_, ?_⟩ <;> simp [State.givenTo]

/-- A candidate comes while `p` is the connection. -/
theorem Inv.received (h : Inv s) (hi : s.stage = .idle) (hp : s.peerConnection = some p) :
    Inv { s with
      next := s.next + 1
      stage := .entering ⟨s.next, p⟩
      received := s.received ++ [⟨s.next, p⟩] } := by
  -- what is in hand is what has been added
  have hadd : ∀ q, (s.received ++ [Candidate.mk s.next p]).filter (·.peer = q)
      = s.receivedFor q ++ if p = q then [Candidate.mk s.next p] else [] := by
    intro q
    rw [List.filter_append]
    by_cases hq : p = q <;> simp [State.receivedFor, hq]
  refine ⟨fun q hq => ?_, h.undescribed, fun q hq hd => ?_, h.nothing, by simp, by simp, ?_,
    ⟨h.made.1, h.made.2.1, ?_⟩, ?_, ?_⟩
  · have := h.described q hq
    rw [inHand_idle hi, List.append_nil] at this
    exact (congrArg (· ++ _) this).trans (hadd q).symm
  · have := h.waiting q hq hd
    rw [inHand_idle hi, List.append_nil] at this
    exact (congrArg (· ++ _) this).trans (hadd q).symm
  · rintro c q hc hq
    cases hc
    exact Option.some.inj (hp.symm.trans hq)
  · simp only [List.mem_append, List.mem_singleton]
    rintro c (hc | rfl)
    · exact h.made.2.2 c hc
    · exact h.made.1 p hp
  · simp only [List.pairwise_append, List.pairwise_singleton, List.mem_singleton, forall_eq, true_and]
    exact ⟨h.numbered.1, h.numbered.2⟩
  · simp only [List.mem_append, List.mem_singleton]
    rintro c (hc | rfl)
    · exact Nat.lt_succ_of_lt (h.numbered.2 c hc)
    · exact Nat.lt_succ_self _

/-- The candidate in hand is given to its connection, or waits. -/
theorem Inv.take (h : Inv s) (hc : s.stage = .entering c) : Inv (s.take c) := by
  unfold State.take
  by_cases hd : c.peer ∈ s.described
  · rw [if_pos hd]
    have hadd : ∀ q, ((s.given ++ [(c.peer, c)]).filter (·.1 = q)).map Prod.snd = s.givenTo q ++ s.inHand q := by
      intro q
      rw [inHand_entering hc, List.filter_append, List.map_append]
      by_cases hq : c.peer = q <;> simp [State.givenTo, hq]
    refine ⟨fun q hq => ?_, fun q hq => ?_, fun q hq hq' => ?_, h.nothing, by simp, by simp, by simp, h.made, h.numbered⟩
    · exact ((List.append_nil _).trans (hadd q)).trans (h.described q hq)
    · refine (hadd q).trans ?_
      rw [h.undescribed q hq, inHand_entering hc, if_neg fun he : c.peer = q => hq (he ▸ hd)]
      rfl
    · have := h.waiting q hq hq'
      rw [inHand_entering hc, if_neg fun he : c.peer = q => hq' (he ▸ hd)] at this
      exact this
  · rw [if_neg hd]
    refine ⟨fun q hq => ?_, h.undescribed, fun q hq hq' => ?_, fun q hq hq' => ?_, by simp, by simp, by simp, h.made,
      h.numbered⟩
    · have := h.described q hq
      rw [inHand_entering hc, if_neg fun he : c.peer = q => hd (he ▸ hq)] at this
      exact this
    · have := h.waiting q hq hq'
      rw [inHand_entering hc, if_pos (h.same c q hc hq)] at this
      exact (List.append_nil _).trans this
    · exact absurd (h.same c q hc hq ▸ hq') hd

/-- The remote description of `p` is set, and `p` is given what waits. -/
theorem Inv.offered (h : Inv s) (hi : s.stage = .idle) (hp : s.peerConnection = some p) :
    Inv { s with
      described := p :: s.described
      given := s.given ++ s.pendingRemoteCandidates.map fun c => (p, c)
      pendingRemoteCandidates := [] } := by
  have hadd : ∀ q, ((s.given ++ s.pendingRemoteCandidates.map fun c => (p, c)).filter (·.1 = q)).map Prod.snd
      = s.givenTo q ++ if p = q then s.pendingRemoteCandidates else [] := by
    intro q
    rw [List.filter_append, List.map_append, List.filter_map, List.map_map]
    by_cases hq : p = q <;> simp [State.givenTo, Function.comp_def, hq]
  refine ⟨fun q hq => ?_, fun q hq => ?_, fun q hq hq' => ?_, fun _ _ _ => rfl, fun _ => rfl, h.gone, h.same,
    ⟨h.made.1, ?_, h.made.2.2⟩, h.numbered⟩
  · have hhand : s.inHand q = [] := inHand_idle hi
    refine ((congrArg (_ ++ ·) hhand).trans (List.append_nil _)).trans ((hadd q).trans ?_)
    by_cases hpq : p = q
    · subst hpq
      rw [if_pos rfl]
      by_cases hd : p ∈ s.described
      · rw [h.nothing p hp hd]
        exact hhand ▸ h.described p hd
      · have := h.waiting p hp hd
        rw [hhand, List.append_nil] at this
        rw [h.undescribed p hd, List.nil_append, this]
        rfl
    · rw [if_neg hpq, ← hhand]
      exact h.described q ((List.mem_cons.1 hq).resolve_left (Ne.symm hpq))
  · rw [List.mem_cons, not_or] at hq
    refine (hadd q).trans ?_
    rw [if_neg (Ne.symm hq.1), h.undescribed q hq.2]
    rfl
  · exact absurd (List.mem_cons.2 (.inl (Option.some.inj (hq.symm.trans hp)))) hq'
  · simp only [List.mem_cons]
    rintro q (rfl | hq)
    · exact h.made.1 q hp
    · exact h.made.2.1 q hq

/-- The connection goes, and the thread of the messages goes on as `t`, with nothing in hand that was not. -/
theorem Inv.dropped (h : Inv s) {t : Stage} (ht : t = s.stage ∨ (s.stage = .idle ∧ t = .creating false)) :
    Inv { s with peerConnection := none, stage := t } := by
  have hhand : ∀ q, ({ s with peerConnection := none, stage := t } : State).inHand q = s.inHand q := by
    intro q
    rcases ht with rfl | ⟨hi, rfl⟩
    · rfl
    · exact (inHand_idle hi).symm
  refine ⟨fun q hq => ?_, h.undescribed, by simp, by simp, fun hs => ?_, by simp, by simp, ⟨by simp, h.made.2⟩, h.numbered⟩
  · rw [hhand q]
    exact h.described q hq
  · rcases ht with rfl | ⟨-, rfl⟩
    · exact h.cleared hs
    · cases hs

theorem Inv.clear (h : Inv s) (hs : s.stage = .creating false) :
    Inv { s with pendingRemoteCandidates := [], stage := .creating true } := by
  have hhand : ∀ q, s.inHand q = [] := fun q => inHand_eq_nil fun c hc => by rw [hs] at hc; cases hc
  have hnone : s.peerConnection = none := h.gone false hs
  refine ⟨fun q hq => ?_, h.undescribed, fun q hq => ?_, fun _ _ _ => rfl, fun _ => rfl, fun _ _ => hnone, by simp,
    h.made, h.numbered⟩
  · have := h.described q hq
    rw [hhand q] at this
    exact this
  · rw [hnone] at hq
    cases hq

theorem Inv.created (h : Inv s) (hs : s.stage = .creating true) (succeeded : Bool) :
    Inv (if succeeded then { s with peerConnection := some s.made, made := s.made + 1, stage := .idle }
      else { s with stage := .idle }) := by
  have hhand : ∀ q, s.inHand q = [] := fun q => inHand_eq_nil fun c hc => by rw [hs] at hc; cases hc
  have hnone : s.peerConnection = none := h.gone true hs
  have hdesc : ∀ q ∈ s.described, s.givenTo q ++ [] = s.receivedFor q := fun q hq => hhand q ▸ h.described q hq
  cases succeeded with
  | false =>
    refine ⟨hdesc, h.undescribed, fun q hq => ?_, fun q hq => ?_, by simp, by simp, by simp, h.made, h.numbered⟩
    all_goals
      rw [hnone] at hq
      cases hq
  | true =>
    -- nothing has come for the new connection
    have hnew : s.receivedFor s.made = [] := by
      refine List.filter_eq_nil_iff.2 fun c hc => ?_
      simpa using Nat.ne_of_lt (h.made.2.2 c hc)
    refine ⟨hdesc, h.undescribed, fun q hq _ => ?_, fun q hq hd => ?_, by simp, by simp, by simp,
      ⟨fun q hq => ?_, fun q hq => ?_, fun c hc => ?_⟩, h.numbered⟩
    · obtain rfl := Option.some.inj hq
      exact (congrArg (· ++ []) (h.cleared hs)).trans hnew.symm
    · obtain rfl := Option.some.inj hq
      exact absurd (h.made.2.1 _ hd) (Nat.lt_irrefl _)
    · obtain rfl := Option.some.inj hq
      exact Nat.lt_succ_self _
    · exact Nat.lt_succ_of_lt (h.made.2.1 q hq)
    · exact Nat.lt_succ_of_lt (h.made.2.2 c hc)

theorem Inv.next (h : Inv s) : Inv { s with next := s.next + 1 } :=
  ⟨h.described, h.undescribed, h.waiting, h.nothing, h.cleared, h.gone, h.same, h.made, h.numbered.1,
    fun c hc => Nat.lt_succ_of_lt (h.numbered.2 c hc)⟩

theorem Inv.step {m : Move} (h : Inv s) (hs : step s m = some s') : Inv s' := by
  cases m with
  | handleRemoteIceCandidate =>
    simp only [RemoteCandidates.step] at hs
    split at hs
    · exact Option.some.inj hs ▸ h.next
    · rename_i p hi hp
      exact Option.some.inj hs ▸ h.received hi hp
    · cases hs
  | enter =>
    simp only [RemoteCandidates.step] at hs
    split at hs
    · rename_i c hc
      exact Option.some.inj hs ▸ h.take hc
    · cases hs
  | handleOffer set =>
    simp only [RemoteCandidates.step] at hs
    split at hs
    · rename_i p hi hp
      split at hs
      · exact Option.some.inj hs ▸ h.offered hi hp
      · exact Option.some.inj hs ▸ h
    · cases hs
  | createPeerConnectionGo =>
    simp only [RemoteCandidates.step] at hs
    split at hs
    · rename_i hi
      exact Option.some.inj hs ▸ h.dropped (.inr ⟨hi, rfl⟩)
    · cases hs
  | clear =>
    simp only [RemoteCandidates.step] at hs
    split at hs
    · rename_i hc
      exact Option.some.inj hs ▸ h.clear hc
    · cases hs
  | created succeeded =>
    simp only [RemoteCandidates.step] at hs
    split at hs
    · rename_i hc
      have := h.created hc succeeded
      split at hs <;> simp_all
    · cases hs
  | closePeerConnection =>
    simp only [RemoteCandidates.step] at hs
    split at hs
    · cases hs
    · exact Option.some.inj hs ▸ h.dropped (.inl rfl)

end

/-- **Whatever is done in whatever order, a connection is given only candidates that came for it, each once and in their
order, and none is left behind: a connection with its remote description has all that came, one without keeps them.** -/
theorem candidates_reach_their_connection (moves : List Move) : Throughout step Delivered {} moves :=
  (Throughout.of_along (fun _ _ _ h _ hs => h.step hs) Inv.initial along_true).mono fun _ h => h.delivered

end RemoteCandidates
end Host
end CloudGaming
