import CloudGaming.Signaling.Replay
/-!
# Burned — what a refused connection does to its token

One attempt in surroundings that do anything but use its token: they write the rooms, let commands fail, let time pass
and hang up.  The claim of the token precedes the join and no exit after it gives the token back, so the token is spared
only where the attempt is refused before the claim, where the claim fails, or where the player joins.
-/
namespace CloudGaming
namespace Signaling
namespace Setup

open Async Redis

/-! ## Surroundings -/

/-- What leaves the membership of a socket and the mark of a token alone; the mark may expire. -/
structure Apart (socket : Nat) (jti : Uuid) (f : World → World) : Prop where
  now_le : ∀ w, w.now ≤ (f w).now
  joined : ∀ w, ((f w).lines socket).joined = (w.lines socket).joined
  unmarked : ∀ w, w.used.get jti.text = none → (f w).used.get jti.text = none
  marked : ∀ w e, w.used jti.text = some e → (f w).now < e.expireAt → (f w).used jti.text = some e

/-- An await of the attempt: what becomes of its command, and what goes on before and after. -/
structure Await (socket : Nat) (jti : Uuid) where
  fate : Fate
  before : World → World
  after : World → World
  before_apart : Apart socket jti before
  after_apart : Apart socket jti after

def Await.turn {socket : Nat} {jti : Uuid} (a : Await socket jti) : Prog.Turn World := ⟨a.fate, a.before, a.after⟩

section apart
variable {socket : Nat} {jti : Uuid}

theorem apart_id : Apart socket jti id :=
  ⟨fun _ => Nat.le_refl _, fun _ => rfl, fun _ h => h, fun _ _ h _ => h⟩

theorem Apart.comp {f g : World → World} (hf : Apart socket jti f) (hg : Apart socket jti g) :
    Apart socket jti (f ∘ g) where
  now_le w := Nat.le_trans (hg.now_le w) (hf.now_le (g w))
  joined w := (hf.joined (g w)).trans (hg.joined w)
  unmarked w h := hf.unmarked (g w) (hg.unmarked w h)
  marked w e h hlive := hf.marked (g w) e (hg.marked w e h (Nat.lt_of_le_of_lt (hf.now_le (g w)) hlive)) hlive

/-- What concerns no token and joins nobody. -/
theorem apart_of_aside {f : World → World} (h : ∀ w, Aside w (f w))
    (hjoined : ∀ w, ((f w).lines socket).joined = (w.lines socket).joined) : Apart socket jti f where
  now_le w := by rw [(h w).now_eq]
  joined := hjoined
  unmarked w hw := by rw [(h w).used_eq]; exact hw
  marked w e hw _ := by rw [(h w).used_eq]; exact hw

theorem joined_updateLine (w : World) (other : Nat) {f : Line → Line} (h : ∀ l, (f l).joined = l.joined) :
    ((w.updateLine other f).lines socket).joined = (w.lines socket).joined := by
  by_cases hs : socket = other
  · subst hs
    rw [updateLine_self, h]
  · rw [updateLine_of_ne w f hs]

/-- **What goes on beside the attempts of a server leaves an attempt its token.** -/
theorem apart_ambient (e : Ambient) : Apart socket jti (World.ambient e) := by
  cases e with
  | elapse millis =>
    refine ⟨fun _ => Nat.le_add_right .., fun _ => rfl, fun w h => ?_, fun w e h hlive => ?_⟩
    · refine Option.eq_none_iff_forall_ne_some.2 fun v hv => ?_
      rw [Keys.get_sweep_of_some hv] at h
      cases h
    · exact Keys.sweep_eq_some.2 ⟨h, hlive⟩
  | others outside => exact apart_of_aside (fun _ => ⟨rfl, rfl, rfl, rfl⟩) fun _ => rfl
  | hangUp other =>
    exact apart_of_aside (fun _ => ⟨rfl, rfl, rfl, rfl⟩) fun w => joined_updateLine w other fun _ => rfl
  | frame other message =>
    exact apart_of_aside (fun _ => ⟨rfl, rfl, rfl, rfl⟩)
      fun w => joined_updateLine w other fun l => (l.arrive_keeps message).2
  | take other =>
    exact apart_of_aside (fun _ => ⟨rfl, rfl, rfl, rfl⟩) fun w => joined_updateLine w other fun l => l.take_keeps.2
  | finish other =>
    exact apart_of_aside (fun _ => ⟨rfl, rfl, rfl, rfl⟩) fun w => joined_updateLine w other fun _ => rfl

theorem apart_events (events : List Ambient) : Apart socket jti fun w => events.foldl (fun w e => w.ambient e) w := by
  induction events with
  | nil => exact apart_id
  | cons e events ih => exact ih.comp (apart_ambient e)

/-- An await beside events of the server. -/
def Await.beside (fate : Fate) (before after : List Ambient) : Await socket jti where
  fate := fate
  before w := before.foldl (fun w e => w.ambient e) w
  after w := after.foldl (fun w e => w.ambient e) w
  before_apart := apart_events before
  after_apart := apart_events after

/-- The commands that do not claim the token. -/
def Cmd.sparing (jti : Uuid) : Cmd → Prop
  | .claim claims _ _ => claims.jti ≠ jti
  | _ => True

/-- The calls that do not make the socket a member. -/
def Call.sparing (socket : Nat) : Call → Prop
  | .register m _ => m.socket ≠ socket
  | _ => True

/-- The claim of another token. -/
theorem apart_claim {claims : PairingClaims} (hother : claims.jti ≠ jti) (other ttlMs : Nat) :
    Apart socket jti (·.claim claims other ttlMs) := by
  have hne : jti.text ≠ claims.jti.text := fun htext => hother (uuid_of_text htext.symm)
  have hcases : ∀ w : World, (w.claim claims other ttlMs).now = w.now ∧ (w.claim claims other ttlMs).lines = w.lines ∧
      (w.claim claims other ttlMs).used jti.text = w.used jti.text := by
    intro w
    unfold World.claim
    split
    · exact ⟨rfl, rfl, rfl⟩
    · exact ⟨rfl, rfl, Keys.set_of_ne _ _ _ hne⟩
  refine ⟨fun w => ?_, fun w => ?_, fun w h => ?_, fun w e h _ => ?_⟩
  · rw [(hcases w).1]
  · rw [(hcases w).2.1]
  · rw [Keys.get_eq_none, (hcases w).2.2]
    exact Keys.get_eq_none.1 h
  · rw [(hcases w).2.2]
    exact h

theorem apart_register {m : Member} (hother : m.socket ≠ socket) (claims : Option PairingClaims) :
    Apart socket jti (·.register m claims) := by
  refine ⟨fun _ => Nat.le_refl _, fun w => ?_, fun _ h => h, fun _ _ h _ => h⟩
  show (if socket = m.socket then _ else _ : Line).joined = _
  rw [if_neg fun h => hother h.symm]
  split <;> rfl

/-- **The commands of other attempts, with other tokens, leave an attempt its token**; so do its own but the claim. -/
theorem apart_exec (cfg : ServerConfig) (c : Cmd) (h : c.sparing jti) :
    Apart socket jti fun w => (exec cfg c w).2 := by
  cases c with
  | claim claims other ttlMs => exact apart_claim h other ttlMs
  -- the rest touch neither the tokens used nor a line
  | increment | get | jwtVerify | join | leave => exact apart_of_aside (fun _ => ⟨rfl, rfl, rfl, rfl⟩) fun _ => rfl

theorem apart_call (cfg : ServerConfig) (o : Call) (h : o.sparing socket) :
    Apart socket jti fun w => (call cfg o w).2 := by
  cases o with
  | register m claims => exact apart_register h claims
  | close other refusal =>
    exact apart_of_aside (fun w => aside_call cfg _ w trivial)
      fun w => joined_updateLine w other (f := (·.close refusal)) fun _ => rfl
  | listen other =>
    exact apart_of_aside (fun w => aside_call cfg _ w trivial)
      fun w => joined_updateLine w other (f := fun l => { l with listeners := l.listeners + 1 }) fun _ => rfl
  | dateNow | randomUuid | allowFallback | verifySync | circuit | noteRedis | isOpen =>
    exact apart_of_aside (fun _ => ⟨rfl, rfl, rfl, rfl⟩) fun _ => rfl

end apart

/-! ## The condition -/

section attempt
variable (node : Node) (cfg : ServerConfig) (request : Request) (claims : PairingClaims)
  (turns : Nat → Await request.socket claims.jti) (w₀ : World)

/-- The attempt up to the claim of its token. -/
def admitted : Outcome (Option Admission) World :=
  (vet node cfg request).runAmong (machine cfg) (fun i => (turns i).turn) 0 w₀

/-- The attempt. -/
def attempted : Outcome Unit World :=
  (handleNewConnection node cfg request).runAmong (machine cfg) (fun i => (turns i).turn) 0 w₀

/-- The token of an attempt that has not joined can be used, if it has not expired. -/
def Spared (w : World) : Prop :=
  (w.lines request.socket).joined = false → (w.now : Int) < claims.exp → w.used.get claims.jti.text = none

/-- The world in which command number `i`, a claim at the instant `w.now`, has been executed and answered. -/
def afterClaim (i : Nat) (w : World) : World :=
  (turns i).after (((turns i).before w).claim claims request.socket (remaining claims w.now))

/-- Command number `i`, the join from the world `w`, is answered and finds the room and the role free. -/
def Welcome (x : Client) (i : Nat) (w : World) : Prop :=
  (turns i).fate = .answered ∧ (exec cfg (.join x) ((turns i).before w)).1 ≠ -1 ∧
    (exec cfg (.join x) ((turns i).before w)).1 ≠ -2

/-- The socket is still open after command number `i`, the join from the world `w`. -/
def StillOpen (x : Client) (i : Nat) (w : World) : Prop :=
  (call cfg (.isOpen request.socket) ((turns i).after (exec cfg (.join x) ((turns i).before w)).2)).1 = true

/-- From the claim on, the attempt goes well, or its claim has no effect. -/
def Harmless (a : Admission) (i : Nat) (w : World) : Prop :=
  (turns i).fate = .rejected ∨
    (turns i).fate = .answered ∧
      let w := afterClaim request claims turns i w
      let x := clientOf a w.outside.randomUuid
      Welcome cfg request claims turns x (i + 1) w ∧ StillOpen cfg request claims turns x (i + 1) w

/-- The player has not joined, and the token has not been claimed. -/
def Fresh (w : World) : Prop := (w.lines request.socket).joined = false ∧ w.used.get claims.jti.text = none

/-- The player has not joined, and the token is marked until it expires. -/
def Burned (w : World) : Prop :=
  (w.lines request.socket).joined = false ∧
    ((w.now : Int) < claims.exp → ∃ e, w.used claims.jti.text = some e ∧ claims.exp ≤ e.expireAt)

/-! ## What the parts of an attempt keep -/

variable {node cfg request claims turns}

/-- What the surroundings keep, every part of the attempt keeps that neither claims the token nor joins. -/
theorem kept_among {I : World → Prop} (hI : ∀ f, Apart request.socket claims.jti f → ∀ w, I w → I (f w)) {α : Type}
    {p : Js α} (hp : p.Within (Cmd.sparing claims.jti) (Call.sparing request.socket)) {i : Nat} {w : World} (h : I w) :
    I (p.runAmong (machine cfg) (fun i => (turns i).turn) i w).world := by
  refine hp.runAmong (fun c w hc => ?_) (fun o w ho => ?_) (fun i w => ?_) (fun i w => ?_) h
  · exact hI _ (apart_exec cfg c hc) w
  · exact hI _ (apart_call cfg o ho) w
  · exact hI _ (turns i).before_apart w
  · exact hI _ (turns i).after_apart w

theorem fresh_apart {f : World → World} (hf : Apart request.socket claims.jti f) (w : World)
    (h : Fresh request claims w) : Fresh request claims (f w) := ⟨(hf.joined w).trans h.1, hf.unmarked w h.2⟩

theorem burned_apart {f : World → World} (hf : Apart request.socket claims.jti f) (w : World)
    (h : Burned request claims w) : Burned request claims (f w) := by
  refine ⟨(hf.joined w).trans h.1, fun hlive => ?_⟩
  have hnow := hf.now_le w
  obtain ⟨e, he, hexp⟩ := h.2 (by omega)
  exact ⟨e, hf.marked w e he (by omega), hexp⟩

theorem joined_apart {f : World → World} (hf : Apart request.socket claims.jti f) (w : World)
    (h : (w.lines request.socket).joined = true) : ((f w).lines request.socket).joined = true := (hf.joined w).trans h

/-- The claim burns the token. -/
theorem burned_claim {w : World} {now : Nat} (h : Fresh request claims w) (hnow : now ≤ w.now) :
    Burned request claims (w.claim claims request.socket (remaining claims now)) := by
  have hunused : (w.used.get claims.jti.text).isNone = true := by rw [h.2]; rfl
  rw [claim_of_unused hunused]
  exact ⟨h.1, fun _ => ⟨_, Keys.set_self .., exp_le_expireAt claims hnow⟩⟩

theorem burned_afterClaim {i : Nat} {w : World} (h : Fresh request claims w) :
    Burned request claims (afterClaim request claims turns i w) := by
  have hbefore := fresh_apart (turns i).before_apart w h
  exact burned_apart (turns i).after_apart _ (burned_claim hbefore ((turns i).before_apart.now_le w))

theorem burned_spared {w : World} (h : Burned request claims w) :
    Spared request claims w ↔ claims.exp ≤ w.now := by
  refine ⟨fun hspared => ?_, fun hexp _ hlive => absurd hlive (by omega)⟩
  by_contra hlive
  obtain ⟨e, he, -⟩ := h.2 (by omega)
  have hnone := hspared h.1 (by omega)
  rw [Keys.get_eq_none, he] at hnone
  cases hnone

theorem claimToken_among {i : Nat} {w : World} (h : ((turns i).before w).used.get claims.jti.text = none) :
    (claimToken request claims).runAmong (machine cfg) (fun i => (turns i).turn) i w =
      match (turns i).fate with
      | .answered => ⟨some true, i + 1, afterClaim request claims turns i w⟩
      | .rejected => ⟨some false, i + 1, ((turns i).after ((turns i).before w)).updateLine request.socket
          (·.close ⟨1011, "Pairing service unavailable"⟩)⟩
      | .lost => ⟨some false, i + 1, (afterClaim request claims turns i w).updateLine request.socket
          (·.close ⟨1011, "Pairing service unavailable"⟩)⟩ := by
  have hclaimed : ((machine cfg).exec (.claim claims request.socket (remaining claims w.now))
      ((turns i).turn.before w)).1 = true := by
    show (((turns i).before w).used.get claims.jti.text).isNone = true
    rw [h]
    rfl
  refine (Prog.runAmong_settled (machine cfg) (fun i => (turns i).turn)
    (Cmd.claim claims request.socket (remaining claims w.now)) _ i w).trans ?_
  have hfate : (turns i).turn.fate = (turns i).fate := rfl
  rw [hfate]
  cases (turns i).fate with
  | answered =>
    dsimp only
    rw [hclaimed]
    rfl
  | rejected => rfl
  | lost => rfl

/-- A join that is answered with a place. -/
theorem joinRoom_welcome {x : Client} {i : Nat} {w : World} (h : Welcome cfg request claims turns x i w) :
    (joinRoom request x).runAmong (machine cfg) (fun i => (turns i).turn) i w =
      ⟨some true, i + 1, (call cfg (.noteRedis request.server true)
        ((turns i).after (exec cfg (.join x) ((turns i).before w)).2)).2⟩ := by
  have hfate : (turns i).turn.fate = .answered := h.1
  have hroom : ((machine cfg).exec (.join x) ((turns i).turn.before w)).1 ≠ -1 := h.2.1
  have hrole : ((machine cfg).exec (.join x) ((turns i).turn.before w)).1 ≠ -2 := h.2.2
  refine (Prog.runAmong_settled (machine cfg) (fun i => (turns i).turn) (Cmd.join x) _ i w).trans ?_
  rw [hfate]
  dsimp only
  rw [Prog.runAmong_invoke_bind, if_neg hroom, if_neg hrole]
  rfl

theorem joinRoom_unwelcome {x : Client} {i : Nat} {w : World} (h : ¬Welcome cfg request claims turns x i w) :
    ((joinRoom request x).runAmong (machine cfg) (fun i => (turns i).turn) i w).result = some false := by
  refine (congrArg Outcome.result (Prog.runAmong_settled (machine cfg) (fun i => (turns i).turn) (Cmd.join x) _ i
    w)).trans ?_
  cases hfate : (turns i).turn.fate with
  | answered =>
    dsimp only
    rw [Prog.runAmong_invoke_bind]
    by_cases hroom : ((machine cfg).exec (.join x) ((turns i).turn.before w)).1 = -1
    · rw [if_pos hroom]
      rfl
    · have hrole : ((machine cfg).exec (.join x) ((turns i).turn.before w)).1 = -2 := by
        by_contra hrole
        exact h ⟨hfate, hroom, hrole⟩
      rw [if_neg hroom, if_pos hrole]
      rfl
  | rejected => rfl
  | lost => rfl

/-! ## From the join on -/

theorem sparing_of_unclaiming {α : Type} {p : Js α} (h : p.Within Cmd.unclaiming Call.unseating) :
    p.Within (Cmd.sparing claims.jti) (Call.sparing request.socket) := by
  refine h.mono (fun c hc => ?_) fun o ho => ?_
  · cases c <;> first | exact hc.elim | trivial
  · cases o <;> first | exact ho.elim | trivial

theorem sparing_of_early {P : Cmd → Prop} {α : Type} {p : Js α} (hP : ∀ c, P c → c.unclaiming)
    (h : p.Within P Call.early) : p.Within (Cmd.sparing claims.jti) (Call.sparing request.socket) :=
  sparing_of_unclaiming (unseating_of_early hP h)

/-- Who is registered has joined, whatever comes after. -/
theorem attach_joins (a : Admission) (i : Nat) (w : World) :
    (((attach cfg request a).runAmong (machine cfg) (fun i => (turns i).turn) i w).world.lines request.socket).joined =
      true := by
  unfold attach
  rw [Prog.runAmong_invoke_bind]
  refine kept_among (I := fun w => (w.lines request.socket).joined = true) (fun f hf w => joined_apart hf w)
    (sparing_of_unclaiming (within_attached cfg request a)) ?_
  · show (if request.socket = request.socket then _ else _ : Line).joined = true
    rw [if_pos rfl]

theorem enterRoom_among (a : Admission) (i : Nat) (w : World) {x : Client} (hx : x = clientOf a w.outside.randomUuid)
    {joined : Outcome Bool World}
    (hjoined : (joinRoom request x).runAmong (machine cfg) (fun i => (turns i).turn) i w = joined) :
    (enterRoom cfg request a).runAmong (machine cfg) (fun i => (turns i).turn) i w =
      match joined.result with
      | some true =>
        if (call cfg (.isOpen request.socket) joined.world).1 = true then
          (attach cfg request a).runAmong (machine cfg) (fun i => (turns i).turn) joined.next joined.world
        else (leaveAgain x).runAmong (machine cfg) (fun i => (turns i).turn) joined.next joined.world
      | some false => ⟨some (), joined.next, joined.world⟩
      | none => ⟨none, joined.next, joined.world⟩ := by
  subst hx
  refine (Prog.runAmong_bind (machine cfg) (fun i => (turns i).turn)
    (joinRoom request (clientOf a w.outside.randomUuid)) _ i w).trans ?_
  rw [hjoined]
  cases joined.result with
  | none => rfl
  | some entered =>
    cases entered with
    | false => rfl
    | true =>
      dsimp only
      rw [if_pos rfl, Prog.runAmong_invoke_bind]
      show Prog.runAmong _ _ (if (!(call cfg (.isOpen request.socket) joined.world).1) = true then _ else _) _ _ = _
      cases (call cfg (.isOpen request.socket) joined.world).1 <;> rfl

theorem enterRoom_joins {a : Admission} {i : Nat} {w : World}
    (hwelcome : Welcome cfg request claims turns (clientOf a w.outside.randomUuid) i w)
    (hopen : StillOpen cfg request claims turns (clientOf a w.outside.randomUuid) i w) :
    (((enterRoom cfg request a).runAmong (machine cfg) (fun i => (turns i).turn) i w).world.lines
      request.socket).joined = true := by
  rw [enterRoom_among a i w rfl (joinRoom_welcome hwelcome)]
  dsimp only
  rw [if_pos (by exact hopen)]
  exact attach_joins a _ _

theorem enterRoom_burns {a : Admission} {i : Nat} {w : World} (hburned : Burned request claims w)
    (h : ¬(Welcome cfg request claims turns (clientOf a w.outside.randomUuid) i w ∧
      StillOpen cfg request claims turns (clientOf a w.outside.randomUuid) i w)) :
    Burned request claims ((enterRoom cfg request a).runAmong (machine cfg) (fun i => (turns i).turn) i w).world := by
  have hjoin : Burned request claims ((joinRoom request (clientOf a w.outside.randomUuid)).runAmong (machine cfg)
      (fun i => (turns i).turn) i w).world :=
    kept_among (fun f hf w => burned_apart hf w) (sparing_of_early (fun _ hc => hc) (within_joinRoom request _)) hburned
  by_cases hwelcome : Welcome cfg request claims turns (clientOf a w.outside.randomUuid) i w
  · have hclosed : ¬StillOpen cfg request claims turns (clientOf a w.outside.randomUuid) i w := fun hopen =>
      h ⟨hwelcome, hopen⟩
    rw [joinRoom_welcome hwelcome] at hjoin
    rw [enterRoom_among a i w rfl (joinRoom_welcome hwelcome)]
    dsimp only
    rw [if_neg (by exact hclosed)]
    exact kept_among (fun f hf w => burned_apart hf w) (sparing_of_early (fun _ hc => hc) (within_leaveAgain _)) hjoin
  · rw [enterRoom_among a i w rfl rfl, joinRoom_unwelcome hwelcome]
    exact hjoin

/-! ## The attempt -/

/-- What follows the admission. -/
def settle (cfg : ServerConfig) (request : Request) : Option Admission → Js Unit
  | none => return ()
  | some admission =>
    match admission.claims with
    | none => enterRoom cfg request admission
    | some claims => do
      let claimed ← claimToken request claims
      if claimed then enterRoom cfg request admission

theorem handleNewConnection_eq (node : Node) (cfg : ServerConfig) (request : Request) :
    handleNewConnection node cfg request = Prog.tryCatch (vet node cfg request >>= settle cfg request)
      (invoke (.close request.socket ⟨1011, "Internal server error"⟩)) := rfl

/-- What the end of the attempt keeps, the last close apart, is there in the end. -/
theorem attempted_keeps {I : World → Prop} (hI : ∀ f, Apart request.socket claims.jti f → ∀ w, I w → I (f w))
    (hnone : (admitted node cfg request claims turns w₀).result = none →
      I (admitted node cfg request claims turns w₀).world)
    (hsome : ∀ admission, (admitted node cfg request claims turns w₀).result = some admission →
      I ((settle cfg request admission).runAmong (machine cfg) (fun i => (turns i).turn)
        (admitted node cfg request claims turns w₀).next (admitted node cfg request claims turns w₀).world).world) :
    I (attempted node cfg request claims turns w₀).world := by
  have hbody : I ((vet node cfg request >>= settle cfg request).runAmong (machine cfg) (fun i => (turns i).turn) 0
      w₀).world := by
    rw [Prog.runAmong_bind]
    cases hresult : (admitted node cfg request claims turns w₀).result with
    | none =>
      have hresult' := hresult
      unfold admitted at hresult'
      rw [hresult']
      exact hnone hresult
    | some admission =>
      have hresult' := hresult
      unfold admitted at hresult'
      rw [hresult']
      exact hsome admission hresult
  unfold attempted
  rw [handleNewConnection_eq, Prog.runAmong_tryCatch]
  split
  · exact hbody
  · exact kept_among hI (Prog.within_invoke (by trivial)) hbody

/-- A token that has not been claimed is spared. -/
theorem unmarked_spared {w : World} (h : w.used.get claims.jti.text = none) : Spared request claims w := fun _ _ => h

theorem joined_spared {w : World} (h : (w.lines request.socket).joined = true) : Spared request claims w := by
  intro hjoined
  rw [h] at hjoined
  cases hjoined

/-- An attempt that is admitted with the token, from the claim on. -/
theorem settle_among {a : Admission} (ha : a.claims = some claims) {i : Nat} {w : World} (h : Fresh request claims w) :
    (settle cfg request (some a)).runAmong (machine cfg) (fun i => (turns i).turn) i w =
      match (turns i).fate with
      | .answered => (enterRoom cfg request a).runAmong (machine cfg) (fun i => (turns i).turn) (i + 1)
          (afterClaim request claims turns i w)
      | .rejected => ⟨some (), i + 1, ((turns i).after ((turns i).before w)).updateLine request.socket
          (·.close ⟨1011, "Pairing service unavailable"⟩)⟩
      | .lost => ⟨some (), i + 1, (afterClaim request claims turns i w).updateLine request.socket
          (·.close ⟨1011, "Pairing service unavailable"⟩)⟩ := by
  have hbefore := fresh_apart (turns i).before_apart w h
  unfold settle
  dsimp only
  rw [ha]
  dsimp only
  rw [Prog.runAmong_bind, claimToken_among hbefore.2]
  cases (turns i).fate <;> rfl

/-- A claim that Redis rejects, and a join after the claim, spare the token. -/
theorem settle_spares {a : Admission} (ha : a.claims = some claims) {i : Nat} {w : World} (h : Fresh request claims w)
    (hharmless : Harmless cfg request claims turns a i w) :
    Fresh request claims ((settle cfg request (some a)).runAmong (machine cfg) (fun i => (turns i).turn) i w).world ∨
      (((settle cfg request (some a)).runAmong (machine cfg) (fun i => (turns i).turn) i w).world.lines
        request.socket).joined = true := by
  rw [settle_among ha h]
  rcases hharmless with hfate | ⟨hfate, hwelcome, hopen⟩
  · rw [hfate]
    have hafter := fresh_apart (turns i).after_apart _ (fresh_apart (turns i).before_apart w h)
    exact .inl (fresh_apart (apart_call cfg (.close request.socket _) trivial) _ hafter)
  · rw [hfate]
    exact .inr (enterRoom_joins hwelcome hopen)

/-- Every other exit after the claim leaves the token marked. -/
theorem settle_burns {a : Admission} (ha : a.claims = some claims) {i : Nat} {w : World} (h : Fresh request claims w)
    (hharmful : ¬Harmless cfg request claims turns a i w) :
    Burned request claims
      ((settle cfg request (some a)).runAmong (machine cfg) (fun i => (turns i).turn) i w).world := by
  rw [settle_among ha h]
  have hclaimed : Burned request claims (afterClaim request claims turns i w) := burned_afterClaim h
  cases hfate : (turns i).fate with
  | answered => exact enterRoom_burns hclaimed fun hentered => hharmful (.inr ⟨hfate, hentered⟩)
  | rejected => exact absurd (.inl hfate) hharmful
  | lost => exact burned_apart (apart_call cfg (.close request.socket _) trivial) _ hclaimed

theorem used_call (cfg : ServerConfig) (o : Call) (w : World) : (call cfg o w).2.used = w.used := by
  cases o <;> rfl

theorem within_enterRoom (a : Admission) : (enterRoom cfg request a).Within Cmd.unclaiming fun _ => True := by
  refine (Prog.within_invoke (by trivial)).bind fun uuid => ?_
  refine ((within_joinRoom request _).mono (fun _ hc => hc) fun _ _ => trivial).bind fun joined => ?_
  split
  · refine (Prog.within_invoke (by trivial)).bind fun isOpen => ?_
    split
    · exact (within_leaveAgain _).mono (fun _ hc => hc) fun _ _ => trivial
    · refine (Prog.within_invoke (by trivial)).bind fun _ => ?_
      exact (within_attached cfg request a).mono (fun _ hc => hc) fun _ _ => trivial
  · trivial

/-- Without the claim no token is marked: development mode looks at none. -/
theorem enterRoom_unmarked (a : Admission) {i : Nat} {w : World} (h : w.used.get claims.jti.text = none) :
    ((enterRoom cfg request a).runAmong (machine cfg) (fun i => (turns i).turn) i w).world.used.get claims.jti.text =
      none := by
  refine (within_enterRoom a).runAmong (I := fun w : World => w.used.get claims.jti.text = none) (fun c w hc hI => ?_)
    (fun o w _ hI => ?_) (fun i => (turns i).before_apart.unmarked) (fun i => (turns i).after_apart.unmarked) h
  · show (exec cfg c w).2.used.get claims.jti.text = none
    rw [(aside_exec cfg c w hc).used_eq]
    exact hI
  · show (call cfg o w).2.used.get claims.jti.text = none
    rw [used_call]
    exact hI

variable (node cfg request claims turns)

theorem fresh_admitted (hunused : w₀.used.get claims.jti.text = none)
    (hnew : (w₀.lines request.socket).joined = false) :
    Fresh request claims (admitted node cfg request claims turns w₀).world :=
  kept_among (fun _ hf w => fresh_apart hf w) (sparing_of_early unclaiming_of_early (within_vet node cfg request))
    ⟨hnew, hunused⟩

/-- Where the attempt is admitted with the token only to claims without effect or to join, it spares the token. -/
theorem spared_of_harmless (hfresh : Fresh request claims (admitted node cfg request claims turns w₀).world)
    (hvouched : ∀ a c, (admitted node cfg request claims turns w₀).result = some (some a) → a.claims = some c →
      c = claims)
    (h : ∀ a, (admitted node cfg request claims turns w₀).result = some (some a) → a.claims.isSome = true →
      Harmless cfg request claims turns a (admitted node cfg request claims turns w₀).next
        (admitted node cfg request claims turns w₀).world) :
    Spared request claims (attempted node cfg request claims turns w₀).world := by
  have hunmarked : ∀ f, Apart request.socket claims.jti f → ∀ w : World, w.used.get claims.jti.text = none →
      (f w).used.get claims.jti.text = none := fun f hf => hf.unmarked
  cases hresult : (admitted node cfg request claims turns w₀).result with
  | none =>
    refine unmarked_spared (attempted_keeps w₀ hunmarked (fun _ => hfresh.2) fun admission hsome => ?_)
    rw [hresult] at hsome
    cases hsome
  | some admission =>
    have hkeeps : ∀ {I : World → Prop}, (∀ f, Apart request.socket claims.jti f → ∀ w, I w → I (f w)) →
        I ((settle cfg request admission).runAmong (machine cfg) (fun i => (turns i).turn)
          (admitted node cfg request claims turns w₀).next (admitted node cfg request claims turns w₀).world).world →
        I (attempted node cfg request claims turns w₀).world := by
      intro I hI hsettled
      refine attempted_keeps w₀ hI (fun hnone => ?_) fun admission' hsome => ?_
      · rw [hresult] at hnone
        cases hnone
      · rw [hresult] at hsome
        cases hsome
        exact hsettled
    cases admission with
    | none => exact unmarked_spared (hkeeps hunmarked hfresh.2)
    | some a =>
      cases hclaims : a.claims with
      | none =>
        refine unmarked_spared (hkeeps hunmarked ?_)
        unfold settle
        dsimp only
        rw [hclaims]
        exact enterRoom_unmarked a hfresh.2
      | some c =>
        have hc := hvouched a c hresult hclaims
        subst hc
        rcases settle_spares hclaims hfresh (h a hresult (by rw [hclaims]; rfl)) with hsettled | hsettled
        · exact unmarked_spared (hkeeps hunmarked hsettled.2)
        · exact joined_spared (hkeeps (I := fun w => (w.lines request.socket).joined = true)
            (fun f hf w => joined_apart hf w) hsettled)

/-- **The token of an attempt that does not join is left unmarked if and only if** the attempt, where it is admitted
with the token, has its claim rejected or finds a place at the join with its socket still open, or the token has expired
by the end. -/
theorem spared_iff_harmless (hverified : verifyPairingToken node cfg (pairingToken request) w₀.now = some claims)
    (hunused : w₀.used.get claims.jti.text = none) (hnew : (w₀.lines request.socket).joined = false) :
    Spared request claims (attempted node cfg request claims turns w₀).world ↔
      (∀ a, (admitted node cfg request claims turns w₀).result = some (some a) → a.claims.isSome = true →
        Harmless cfg request claims turns a (admitted node cfg request claims turns w₀).next
          (admitted node cfg request claims turns w₀).world) ∨
      claims.exp ≤ (attempted node cfg request claims turns w₀).world.now := by
  have hfresh := fresh_admitted node cfg request claims turns w₀ hunused hnew
  have hvouched : ∀ a claims', (admitted node cfg request claims turns w₀).result = some (some a) →
      a.claims = some claims' → claims' = claims := by
    intro a claims' ha hclaims
    have hclaimsOf : claimsOf node cfg (pairingToken request) = some claims' :=
      yields_vet.runAmong ha a claims' rfl hclaims
    rw [(Option.filter_eq_some_iff.1 hverified).1] at hclaimsOf
    exact (Option.some.inj hclaimsOf).symm
  constructor
  · intro hspared
    by_contra hnot
    obtain ⟨hharmful, hlive⟩ := not_or.1 hnot
    push Not at hharmful
    obtain ⟨a, hresult, hsome, hharmful⟩ := hharmful
    obtain ⟨c, hclaims⟩ := Option.isSome_iff_exists.1 hsome
    have hc := hvouched a c hresult hclaims
    subst hc
    refine hlive ((burned_spared ?_).1 hspared)
    refine attempted_keeps w₀ (fun _ hf w => burned_apart hf w) (fun hnone => ?_) fun admission hadmission => ?_
    · rw [hresult] at hnone
      cases hnone
    · rw [hresult] at hadmission
      cases hadmission
      exact settle_burns hclaims hfresh hharmful
  · rintro (hharmless | hexpired)
    · exact spared_of_harmless node cfg request claims turns w₀ hfresh hvouched hharmless
    · exact fun _ hlive => absurd hlive (by omega)

end attempt

namespace Sample

/-- The claims of the token. -/
def claims : PairingClaims :=
  ⟨roomId, ⟨sessionId, by decide⟩, ⟨hostId, by decide⟩, ⟨jti, by decide⟩, 60000⟩

/-- Nothing happens, but for what becomes of the commands. -/
def quietly (fate : Nat → Fate) (i : Nat) : Await 0 claims.jti := .beside (fate i) [] []

/-- The claim of the token, command number 2, is rejected. -/
def claimRejected (i : Nat) : Fate := if i = 2 then .rejected else .answered

/-- A player of another session. -/
def rival : Client := ⟨"client:rival", roomId, .player, serverId.owner⟩

/-- The player's role is taken. -/
def taken : World := .start 0 { outside with rooms := (luaJoin 0 cfg.roomTtlSeconds cfg.roomCapacity rival .empty).2 }

/-- Both worlds are at the start of the clock. -/
theorem verified : verifyPairingToken node cfg (pairingToken (request 0)) 0 = some claims := by
  decide +kernel

theorem burned_taken :
    ¬Spared (request 0) claims (attempted node cfg (request 0) claims (quietly fun _ => .answered) taken).world := by
  unfold Spared
  decide +kernel

end Sample

theorem spared_claimRejected :
    Spared (Sample.request 0) Sample.claims (attempted Sample.node Sample.cfg (Sample.request 0) Sample.claims
      (Sample.quietly Sample.claimRejected) Sample.start).world :=
  (spared_iff_harmless Sample.node Sample.cfg (Sample.request 0) Sample.claims (Sample.quietly Sample.claimRejected)
    Sample.start Sample.verified rfl rfl).2 (.inl fun _ _ _ => .inl (by decide +kernel))

/-- **A player who finds the role taken has used up the token**, which is good for another minute. -/
theorem not_spared_taken :
    ¬∀ (turns : Nat → Await (Sample.request 0).socket Sample.claims.jti) (w₀ : World),
      verifyPairingToken Sample.node Sample.cfg (pairingToken (Sample.request 0)) w₀.now = some Sample.claims →
      w₀.used.get Sample.claims.jti.text = none → (w₀.lines (Sample.request 0).socket).joined = false →
      Spared (Sample.request 0) Sample.claims
        (attempted Sample.node Sample.cfg (Sample.request 0) Sample.claims turns w₀).world := by
  intro h
  exact Sample.burned_taken (h (Sample.quietly fun _ => .answered) Sample.taken Sample.verified rfl rfl)

end Setup
end Signaling
end CloudGaming
