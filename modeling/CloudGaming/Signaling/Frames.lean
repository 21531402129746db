import CloudGaming.Signaling.Attempts
/-!
# Frames — what arrives while a connection is set up

Every frame that finds the message listener is handed over once and in order; the one that arrives before it is lost.
`Line.Sound` is the account of a socket, kept by all attempts; an attempt attaches its listener as its last act, so it
knows up to there that its socket has none.
-/
namespace CloudGaming
namespace Signaling
namespace Setup

open Async Redis

namespace Line

/-- The chain runs until nothing waits. -/
def drain (l : Line) : Line := (fun l => l.finish.take)^[l.waiting.length] l

/-- Unless too many wait, every frame that arrived on a joined connection is handed to `handleMessage`, once and in
order. -/
def Delivered (l : Line) : Prop := l.joined = true → l.overflowed = false → l.drain.passed = l.arrived

/-- No frame of such a connection arrives before its message listener is attached. -/
def OnTime (l : Line) : Prop := l.joined = true → l.overflowed = false → l.early = 0

instance (l : Line) : Decidable l.Delivered := inferInstanceAs (Decidable (_ → _ → _))

instance (l : Line) : Decidable l.OnTime := inferInstanceAs (Decidable (_ → _ → _))

/-- The account of a socket. -/
structure Sound (l : Line) : Prop where
  listeners_le : l.listeners ≤ 1
  counted : l.overflowed = false → l.passed.length + l.waiting.length + l.early = l.arrived.length
  kept : l.overflowed = false → l.early = 0 → l.passed ++ l.waiting = l.arrived

/-- The lines differ in nothing that has to do with frames. -/
def Alike (l l' : Line) : Prop :=
  ∃ isOpen closedDuringSetup refusal joined, l' = { l with isOpen, closedDuringSetup, refusal, joined }

variable {l l' : Line}

theorem Alike.refl (l : Line) : Alike l l := ⟨l.isOpen, l.closedDuringSetup, l.refusal, l.joined, rfl⟩

theorem Alike.sound (h : Alike l l') (hl : l.Sound) : l'.Sound := by
  obtain ⟨isOpen, closedDuringSetup, refusal, joined, rfl⟩ := h
  exact ⟨hl.listeners_le, hl.counted, hl.kept⟩

theorem Alike.listeners (h : Alike l l') : l'.listeners = l.listeners := by
  obtain ⟨isOpen, closedDuringSetup, refusal, joined, rfl⟩ := h
  rfl

theorem alike_close (l : Line) (refusal : Refusal) : Alike l (l.close refusal) := ⟨_, _, _, _, rfl⟩

theorem alike_hangUp (l : Line) : Alike l l.hangUp := ⟨_, _, _, _, rfl⟩

theorem alike_joined (h : Alike l l') : Alike l { l' with joined := true } := by
  obtain ⟨isOpen, closedDuringSetup, refusal, joined, rfl⟩ := h
  exact ⟨_, _, _, _, rfl⟩

theorem drain_passed (l : Line) : l.drain.passed = l.passed ++ l.waiting := by
  unfold drain
  generalize hn : l.waiting.length = n
  induction n generalizing l with
  | zero => simp [List.length_eq_zero_iff.1 hn]
  | succ n ih =>
    obtain ⟨message, waiting, hw⟩ := List.exists_cons_of_length_eq_add_one hn
    have htake : l.finish.take = { l with busy := true, waiting, passed := l.passed ++ [message] } := by
      simp only [take, finish, hw]
    rw [Function.iterate_succ_apply, htake, ih _ (by rw [hw] at hn; simpa using hn), hw, List.append_assoc,
      List.singleton_append]

/-- **A line delivers what it should if and only if no frame was early.** -/
theorem Sound.delivered_iff (h : l.Sound) : l.Delivered ↔ l.OnTime := by
  unfold Delivered OnTime
  rw [drain_passed]
  refine forall_congr' fun _ => forall_congr' fun hfits => ⟨fun heq => ?_, fun hearly => h.kept hfits hearly⟩
  have hcounted := h.counted hfits
  rw [← heq, List.length_append] at hcounted
  omega

/-! ## What keeps the account -/

theorem Sound.listen (h : l.Sound) (hnone : l.listeners = 0) : Sound { l with listeners := l.listeners + 1 } :=
  ⟨by rw [hnone], h.counted, h.kept⟩

/-- A frame that no listener is told of. -/
theorem arrive_unheard (message : String) (h : l.listeners = 0) :
    l.arrive message = { l with arrived := l.arrived ++ [message], early := l.early + 1 } := by
  unfold Line.arrive
  rw [h, Function.iterate_zero, if_pos rfl]
  rfl

theorem arrive_heard (message : String) (h : l.listeners = 1) :
    l.arrive message = Line.receive { l with arrived := l.arrived ++ [message] } message := by
  unfold Line.arrive
  rw [h, Function.iterate_one, if_neg (by decide)]

/-- The listener keeps the account of a socket on which one more frame has arrived. -/
theorem Sound.receive (message : String) (h : l.Sound) :
    (Line.receive { l with arrived := l.arrived ++ [message] } message).Sound := by
  unfold Line.receive
  split
  · exact ⟨h.listeners_le, nofun, nofun⟩
  · refine ⟨h.listeners_le, fun hfits => ?_, fun hfits hearly => ?_⟩
    · have hcounted := h.counted hfits
      simp only [List.length_append, List.length_singleton]
      omega
    · show l.passed ++ (l.waiting ++ [message]) = l.arrived ++ [message]
      rw [← List.append_assoc, h.kept hfits hearly]

theorem Sound.arrive (message : String) (h : l.Sound) : (l.arrive message).Sound := by
  rcases Nat.le_one_iff_eq_zero_or_eq_one.1 h.listeners_le with hzero | hone
  · rw [arrive_unheard message hzero]
    refine ⟨h.listeners_le, fun hfits => ?_, fun _ hearly => absurd hearly (Nat.succ_ne_zero _)⟩
    have hcounted := h.counted hfits
    simp only [List.length_append, List.length_singleton]
    omega
  · rw [arrive_heard message hone]
    exact h.receive message

theorem Sound.take (h : l.Sound) : l.take.Sound := by
  unfold Line.take
  split
  · rename_i message waiting _ hw
    refine ⟨h.listeners_le, fun hfits => ?_, fun hfits hearly => ?_⟩
    · have hcounted := h.counted hfits
      rw [hw, List.length_cons] at hcounted
      simp only [List.length_append, List.length_singleton]
      omega
    · show l.passed ++ [message] ++ waiting = l.arrived
      rw [List.append_assoc, List.singleton_append, ← hw]
      exact h.kept hfits hearly
  · exact h

end Line

/-! ## The invariant of all attempts -/

/-- Every socket's account is in order. -/
def Accounted (w : World) : Prop := ∀ socket, (w.lines socket).Sound

/-- Only attempt number `t` attaches a listener to socket `t`. -/
def Unheard (t : Nat) (w w' : World) : Prop := (w.lines t).listeners = 0 → (w'.lines t).listeners = 0

/-- Nothing that has to do with frames happens. -/
def Calm (w w' : World) : Prop := ∀ socket, (w.lines socket).Alike (w'.lines socket)

variable {w w' : World}

theorem Calm.accounted (h : Calm w w') (hw : Accounted w) : Accounted w' := fun socket => (h socket).sound (hw socket)

theorem Calm.unheard (h : Calm w w') (t : Nat) : Unheard t w w' := fun hnone => (h t).listeners.trans hnone

theorem calm_of_lines (h : w'.lines = w.lines) : Calm w w' := by
  intro socket
  rw [h]
  exact .refl _

theorem calm_updateLine (w : World) (socket : Nat) {f : Line → Line} (h : ∀ l, Line.Alike l (f l)) :
    Calm w (w.updateLine socket f) := by
  intro t
  by_cases ht : t = socket
  · subst ht
    rw [updateLine_self]
    exact h _
  · rw [updateLine_of_ne w f ht]
    exact .refl _

theorem calm_register (w : World) (m : Member) (claims : Option PairingClaims) : Calm w (w.register m claims) := by
  intro socket
  unfold World.register
  dsimp only
  have hclosed : Line.Alike (w.lines socket)
      (if w.localRooms.any (fun existing => existing.socket = socket && World.replaces m existing) then
        (w.lines socket).close ⟨1000, "Replaced by authenticated reconnect"⟩ else w.lines socket) := by
    split
    · exact Line.alike_close _ _
    · exact .refl _
  split
  · exact Line.alike_joined hclosed
  · exact hclosed

theorem calm_exec (cfg : ServerConfig) (c : Cmd) (w : World) : Calm w (exec cfg c w).2 := by
  cases c with
  | claim claims socket ttlMs =>
    refine calm_of_lines ?_
    simp only [exec, World.claim]
    split <;> rfl
  | increment ip => exact calm_of_lines rfl
  | get key => exact calm_of_lines rfl
  | jwtVerify token => exact calm_of_lines rfl
  | join x => exact calm_of_lines rfl
  | leave x => exact calm_of_lines rfl

/-- The calls but the one that attaches the message listener. -/
def Call.quiet : Call → Prop
  | .listen _ => False
  | _ => True

theorem calm_call (cfg : ServerConfig) (o : Call) (w : World) (h : o.quiet) : Calm w (call cfg o w).2 := by
  cases o with
  | listen socket => exact h.elim
  | close socket refusal => exact calm_updateLine w socket fun l => l.alike_close refusal
  | register m claims => exact calm_register w m claims
  | dateNow => exact calm_of_lines rfl
  | randomUuid => exact calm_of_lines rfl
  | allowFallback => exact calm_of_lines rfl
  | verifySync token => exact calm_of_lines rfl
  | circuit server => exact calm_of_lines rfl
  | noteRedis server succeeded => exact calm_of_lines rfl
  | isOpen socket => exact calm_of_lines rfl

theorem accounted_updateLine (socket : Nat) {f : Line → Line} (hw : Accounted w)
    (h : (w.lines socket).Sound → (f (w.lines socket)).Sound) : Accounted (w.updateLine socket f) := by
  intro t
  by_cases ht : t = socket
  · subst ht
    rw [updateLine_self]
    exact h (hw t)
  · rw [updateLine_of_ne w f ht]
    exact hw t

theorem unheard_updateLine (socket t : Nat) {f : Line → Line} (h : ∀ l, (f l).listeners = l.listeners) :
    Unheard t w (w.updateLine socket f) := by
  intro hnone
  by_cases ht : t = socket
  · subst ht
    rw [updateLine_self, h, hnone]
  · rw [updateLine_of_ne w f ht, hnone]

/-- **The surroundings keep the account and attach no listener.** -/
theorem accounted_ambient (e : Ambient) (hw : Accounted w) :
    Accounted (w.ambient e) ∧ ∀ t, Unheard t w (w.ambient e) := by
  cases e with
  | elapse millis => exact ⟨hw, fun _ => fun h => h⟩
  | others outside => exact ⟨hw, fun _ => fun h => h⟩
  | hangUp socket =>
    have hcalm : Calm w (w.ambient (.hangUp socket)) := calm_updateLine w socket Line.alike_hangUp
    exact ⟨hcalm.accounted hw, hcalm.unheard⟩
  | frame socket message =>
    exact ⟨accounted_updateLine socket (f := (·.arrive message)) hw fun h => h.arrive message,
      fun t => unheard_updateLine socket t fun l => (l.arrive_keeps message).1⟩
  | take socket =>
    exact ⟨accounted_updateLine socket hw fun h => h.take,
      fun t => unheard_updateLine socket t fun l => l.take_keeps.1⟩
  | finish socket =>
    exact ⟨accounted_updateLine socket hw fun h => ⟨h.listeners_le, h.counted, h.kept⟩,
      fun t => unheard_updateLine socket t fun _ => rfl⟩

/-! ## An attempt -/

namespace Frames
variable (node : Node) (cfg : ServerConfig) (request : Request)

theorem quiet_of_early {P : Cmd → Prop} {α : Type} {p : Js α} (h : p.Within P Call.early) :
    p.Within (fun _ => True) Call.quiet := by
  refine h.mono (fun _ _ => trivial) fun o ho => ?_
  cases o <;> first | exact ho | trivial

variable {node cfg} {t : Nat} {l : Unit}

/-- What attaches no listener leaves the socket of the attempt without one. -/
theorem safe_quiet {α : Type} {p : Js α} (hp : p.Within (fun _ => True) Call.quiet) {w : World}
    (hnone : (w.lines t).listeners = 0) :
    Safe (attempts node cfg) anyCommand Accounted Unheard t p (Returns fun _ _ w => (w.lines t).listeners = 0) l w := by
  have hsafe : Safe (attempts node cfg) anyCommand Accounted Unheard t p
      (fun _ _ w => (w.lines t).listeners = 0) l w := by
    refine safe_of_within (fun w w' hw h => hw h) (fun c l w _ _ hI hJ => ?_) (fun o w ho hI hJ => ?_) hp hnone
    · have hcalm := calm_exec cfg c w
      exact ⟨hcalm.accounted hI, fun u _ => hcalm.unheard u, hcalm.unheard t hJ⟩
    · have hcalm := calm_call cfg o w ho
      exact ⟨hcalm.accounted hI, fun u _ => hcalm.unheard u, hcalm.unheard t hJ⟩
  exact hsafe.returned

theorem safe_attach (admission : Admission) {w : World} (hsocket : request.socket = t)
    (hnone : (w.lines t).listeners = 0) :
    Safe (attempts node cfg) anyCommand Accounted Unheard t (attach cfg request admission) Ended l w := by
  refine (safe_quiet (Prog.within_invoke (by trivial)) hnone).seq fun _ l w hnone => ?_
  refine (safe_quiet (Prog.within_invoke (by trivial)) hnone).seq fun isOpen l w hnone => ?_
  refine (safe_quiet (Prog.within_invoke (by trivial)) hnone).seq fun now l w hnone => ?_
  refine (safe_quiet (quiet_of_early (within_rotateToken (P := fun _ => True) cfg admission isOpen now)) hnone).seq
    fun _ l w hnone => ?_
  refine safe_invoke fun w' hw hI => ⟨?_, fun u hu => ?_, trivial⟩
  · have hown : (w'.lines request.socket).listeners = 0 := by
      rw [hsocket]
      exact hw hnone
    exact accounted_updateLine request.socket (f := fun l => { l with listeners := l.listeners + 1 }) hI
      fun h => h.listen hown
  · intro hother
    show ((w'.updateLine request.socket fun l => { l with listeners := l.listeners + 1 }).lines u).listeners = 0
    rw [updateLine_of_ne w' _ (by rwa [hsocket]), hother]

theorem safe_enterRoom (admission : Admission) {w : World} (hsocket : request.socket = t)
    (hnone : (w.lines t).listeners = 0) :
    Safe (attempts node cfg) anyCommand Accounted Unheard t (enterRoom cfg request admission) Ended l w := by
  refine (safe_quiet (Prog.within_invoke (by trivial)) hnone).seq fun uuid l w hnone => ?_
  refine (safe_quiet (quiet_of_early (within_joinRoom request _)) hnone).seq fun joined l w hnone => ?_
  split
  · refine (safe_quiet (Prog.within_invoke (by trivial)) hnone).seq fun isOpen l w hnone => ?_
    split
    · exact (safe_quiet (quiet_of_early (within_leaveAgain _)) hnone).ended
    · exact safe_attach request admission hsocket hnone
  · trivial

/-- **An attempt attaches one listener, to its own socket, and nothing else has to do with frames.** -/
theorem safe_handleNewConnection {w : World} (hsocket : request.socket = t) (hnone : (w.lines t).listeners = 0) :
    Safe (attempts node cfg) anyCommand Accounted Unheard t (handleNewConnection node cfg request) Ended l w := by
  refine Safe.tryCatch (Q := Ended) ?_ (fun _ _ _ _ => trivial) fun l w _ => ?_
  · refine (safe_quiet (quiet_of_early (within_vet node cfg request)) hnone).seq fun admission l w hnone => ?_
    split
    · trivial
    split
    · exact safe_enterRoom request _ hsocket hnone
    · refine (safe_quiet (quiet_of_early (within_claimToken request _)) hnone).seq fun claimed l w hnone => ?_
      split
      · exact safe_enterRoom request _ hsocket hnone
      · trivial
  · refine safe_invoke fun w' hw hI => ?_
    have hcalm := calm_call cfg (.close request.socket ⟨1011, "Internal server error"⟩) w' trivial
    exact ⟨hcalm.accounted hI, fun u _ => hcalm.unheard u, trivial⟩

end Frames

/-! ## All attempts -/

theorem accounted_start (now : Nat) (outside : Outside) : Accounted (.start now outside) :=
  fun _ => ⟨Nat.zero_le 1, fun _ => rfl, fun _ _ => rfl⟩

/-- **The frames of a connection are delivered if and only if none arrives before its message listener is attached**,
however its setup, the other setups and the arrivals interleave. -/
theorem delivered_iff_onTime (node : Node) (cfg : ServerConfig) (now : Nat) (outside : Outside)
    (p : Pool sig World Unit) (h : Reach (attempts node cfg) anyCommand (.start now outside) p) (socket : Nat) :
    (p.world.lines socket).Delivered ↔ (p.world.lines socket).OnTime := by
  have hgood : Good (attempts node cfg) anyCommand Accounted Unheard (.start now outside) p := by
    have htrans : ∀ (u : Nat) (a b c : World), Unheard u a b → Unheard u b c → Unheard u a c :=
      fun _ _ _ _ h h' hnone => h' (h hnone)
    refine good_of_reach (I := Accounted) (R := Unheard) (fun _ _ h => h) htrans ?_
      (fun e _ _ hw => accounted_ambient e hw) (accounted_start now outside) h
    rintro n q ⟨request, hsocket, rfl⟩ w _ hunborn
    exact Frames.safe_handleNewConnection request hsocket (hunborn rfl)
  exact (hgood.inv socket).delivered_iff

namespace Sample

/-- Two frames after the setup. -/
def framesAfter : List (Choice sig Ambient) :=
  .start (attempt 0) :: turns 0 9 ++ [.ambient (.frame 0 "offer"), .ambient (.take 0), .ambient (.frame 0 "candidate")]

/-- The offer arrives while the access token is verified. -/
def offerEarly : List (Choice sig Ambient) :=
  .start (attempt 0) :: turns 0 3 ++ [.ambient (.frame 0 "offer")] ++ turns 0 6

theorem reach_framesAfter : Reach (attempts node cfg) anyCommand start (play framesAfter) :=
  reach_play _ _ framesAfter ⟨start, []⟩ ⟨⟨request 0, rfl, rfl⟩, trivial, trivial, trivial, trivial⟩ (kept_any ..)

theorem reach_offerEarly : Reach (attempts node cfg) anyCommand start (play offerEarly) :=
  reach_play _ _ offerEarly ⟨start, []⟩ ⟨⟨request 0, rfl, rfl⟩, trivial, trivial⟩ (kept_any ..)

theorem lost_offerEarly : ¬((play offerEarly).world.lines 0).Delivered := by decide +kernel

end Sample

theorem delivered_framesAfter : ((Sample.play Sample.framesAfter).world.lines 0).Delivered :=
  (delivered_iff_onTime Sample.node Sample.cfg 0 Sample.outside _ Sample.reach_framesAfter 0).2 (by decide +kernel)

/-- **An offer that arrives while the setup awaits is lost, and the connection is joined.** -/
theorem not_delivered_offerEarly :
    ¬∀ p : Pool sig World Unit, Reach (attempts Sample.node Sample.cfg) anyCommand Sample.start p →
      ∀ socket, (p.world.lines socket).Delivered := by
  intro h
  exact Sample.lost_offerEarly (h _ Sample.reach_offerEarly 0)

end Setup
end Signaling
end CloudGaming
