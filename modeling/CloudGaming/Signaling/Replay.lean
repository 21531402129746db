import CloudGaming.Signaling.Attempts
/-!
# Replay — a pairing token is used once

The mark of a token lasts at least until the token expires, so as long as no token is claimed after that, the first
claim is the only one.  A token is verified before the setup awaits its access token and its claim: the claim may come
after the expiry, and its mark then lasts a millisecond.
-/
namespace CloudGaming
namespace Signaling
namespace Setup

open Async Redis

/-- At most one attempt joins with a token. -/
def SingleUse (w : World) : Prop :=
  ∀ a ∈ w.seated, ∀ b ∈ w.seated, a.claims.jti = b.claims.jti → a.socket = b.socket

instance (w : World) : Decidable (SingleUse w) := inferInstanceAs (Decidable (∀ a ∈ _, ∀ b ∈ _, _ → _))

/-- A token is claimed before it expires. -/
def inTime : Guard sig World Unit := fun c _ w =>
  match c with
  | .claim claims _ _ => (w.now : Int) < claims.exp
  | _ => True

instance : ∀ c l w, Decidable (inTime c l w)
  | .claim claims _ _, _, w => inferInstanceAs (Decidable ((w.now : Int) < claims.exp))
  | .increment _, _, _ => isTrue trivial
  | .get _, _, _ => isTrue trivial
  | .jwtVerify _, _, _ => isTrue trivial
  | .join _, _, _ => isTrue trivial
  | .leave _, _, _ => isTrue trivial

/-- Every token that verifies was signed once: its id, a random UUID, tells its expiry. -/
def SignedOnce (node : Node) (cfg : ServerConfig) : Prop :=
  ∀ token token' claims claims', claimsOf node cfg token = some claims → claimsOf node cfg token' = some claims' →
    claims.jti = claims'.jti → claims.exp = claims'.exp

/-! ## The invariant -/

/-- A claimed token is marked until it expires, no token is claimed twice, and who has joined has claimed. -/
structure Marked (node : Node) (cfg : ServerConfig) (w : World) : Prop where
  once : (w.claimed.map (·.claims.jti)).Nodup
  marked : ∀ p ∈ w.claimed, (w.now : Int) < p.claims.exp →
    ∃ e, w.used p.claims.jti.text = some e ∧ p.claims.exp ≤ e.expireAt
  signed : ∀ p ∈ w.claimed, ∃ token, claimsOf node cfg token = some p.claims
  seated : ∀ p ∈ w.seated, p ∈ w.claimed

/-- The clock goes on, and no claim is undone. -/
structure Later (w w' : World) : Prop where
  now_le : w.now ≤ w'.now
  claimed : ∀ p ∈ w.claimed, p ∈ w'.claimed

/-- Nothing that has to do with tokens happens. -/
structure Aside (w w' : World) : Prop where
  now_eq : w'.now = w.now
  used_eq : w'.used = w.used
  claimed_eq : w'.claimed = w.claimed
  seated_eq : w'.seated = w.seated

section marked
variable {node : Node} {cfg : ServerConfig} {w w' : World}

theorem Later.refl (w : World) : Later w w := ⟨Nat.le_refl _, fun _ h => h⟩

theorem Later.trans {a b c : World} (h : Later a b) (h' : Later b c) : Later a c :=
  ⟨Nat.le_trans h.now_le h'.now_le, fun p hp => h'.claimed p (h.claimed p hp)⟩

theorem Aside.later (h : Aside w w') : Later w w' := by
  constructor
  · rw [h.now_eq]
  · rw [h.claimed_eq]
    exact fun p hp => hp

theorem Aside.marked (h : Aside w w') (hw : Marked node cfg w) : Marked node cfg w' := by
  constructor
  · rw [h.claimed_eq]
    exact hw.once
  · rw [h.claimed_eq, h.now_eq, h.used_eq]
    exact hw.marked
  · rw [h.claimed_eq]
    exact hw.signed
  · rw [h.claimed_eq, h.seated_eq]
    exact hw.seated

theorem Marked.singleUse (h : Marked node cfg w) : SingleUse w := by
  intro a ha b hb hjti
  have heq : a = b := List.inj_on_of_nodup_map h.once (h.seated a ha) (h.seated b hb) hjti
  rw [heq]

/-- Time passes: only the marks of expired tokens go. -/
theorem Marked.elapse (millis : Nat) (h : Marked node cfg w) : Marked node cfg (w.ambient (.elapse millis)) := by
  refine ⟨h.once, fun p hp hlive => ?_, h.signed, h.seated⟩
  have hlive' : ((w.now + millis : Nat) : Int) < p.claims.exp := hlive
  obtain ⟨e, he, hexp⟩ := h.marked p hp (by omega)
  exact ⟨e, Keys.sweep_eq_some.2 ⟨he, by omega⟩, hexp⟩

theorem marked_ambient (e : Ambient) (h : Marked node cfg w) :
    Marked node cfg (w.ambient e) ∧ Later w (w.ambient e) := by
  have haside : ∀ {w'}, Aside w w' → Marked node cfg w' ∧ Later w w' := fun ha => ⟨ha.marked h, ha.later⟩
  cases e with
  | elapse millis => exact ⟨h.elapse millis, Nat.le_add_right .., fun p hp => hp⟩
  | others outside => exact haside ⟨rfl, rfl, rfl, rfl⟩
  | hangUp socket => exact haside ⟨rfl, rfl, rfl, rfl⟩
  | frame socket message => exact haside ⟨rfl, rfl, rfl, rfl⟩
  | take socket => exact haside ⟨rfl, rfl, rfl, rfl⟩
  | finish socket => exact haside ⟨rfl, rfl, rfl, rfl⟩

/-! ## Commands and calls -/

/-- The calls but the registration. -/
def Call.unseating : Call → Prop
  | .register .. => False
  | _ => True

theorem aside_exec (cfg : ServerConfig) (c : Cmd) (w : World) (h : c.unclaiming) : Aside w (exec cfg c w).2 := by
  cases c with
  | claim claims socket ttlMs => exact h.elim
  | increment ip => exact ⟨rfl, rfl, rfl, rfl⟩
  | get key => exact ⟨rfl, rfl, rfl, rfl⟩
  | jwtVerify token => exact ⟨rfl, rfl, rfl, rfl⟩
  | join x => exact ⟨rfl, rfl, rfl, rfl⟩
  | leave x => exact ⟨rfl, rfl, rfl, rfl⟩

theorem aside_call (cfg : ServerConfig) (o : Call) (w : World) (h : o.unseating) : Aside w (call cfg o w).2 := by
  cases o with
  | register m claims => exact h.elim
  | dateNow => exact ⟨rfl, rfl, rfl, rfl⟩
  | randomUuid => exact ⟨rfl, rfl, rfl, rfl⟩
  | allowFallback => exact ⟨rfl, rfl, rfl, rfl⟩
  | verifySync token => exact ⟨rfl, rfl, rfl, rfl⟩
  | circuit server => exact ⟨rfl, rfl, rfl, rfl⟩
  | noteRedis server succeeded => exact ⟨rfl, rfl, rfl, rfl⟩
  | close socket refusal => exact ⟨rfl, rfl, rfl, rfl⟩
  | isOpen socket => exact ⟨rfl, rfl, rfl, rfl⟩
  | listen socket => exact ⟨rfl, rfl, rfl, rfl⟩

theorem uuid_of_text {a b : Uuid} (h : a.text = b.text) : a = b := by
  cases a
  cases b
  cases h
  rfl

/-- The mark of a claim lasts at least until the token expires. -/
theorem exp_le_expireAt (claims : PairingClaims) {now now' : Nat} (h : now' ≤ now) :
    claims.exp ≤ ((now + remaining claims now' : Nat) : Int) := by
  unfold remaining
  omega

theorem claim_of_used {claims : PairingClaims} {socket ttlMs : Nat} (h : (w.used.get claims.jti.text).isNone = false) :
    w.claim claims socket ttlMs = w := by
  unfold World.claim
  rw [if_pos (Option.isNone_eq_false_iff.1 h)]

theorem claim_of_unused {claims : PairingClaims} {socket ttlMs : Nat} (h : (w.used.get claims.jti.text).isNone = true) :
    w.claim claims socket ttlMs = { w with
      used := w.used.set claims.jti.text "1" (w.now + ttlMs)
      claimed := ⟨claims, socket⟩ :: w.claimed } := by
  unfold World.claim
  rw [if_neg (Bool.not_eq_true _ ▸ Option.isSome_eq_false_iff.2 h)]

/-- A token that is not marked and has not expired has not been claimed. -/
theorem Marked.unclaimed (hsigned : SignedOnce node cfg) (h : Marked node cfg w) {token : String}
    {claims : PairingClaims} (htoken : claimsOf node cfg token = some claims) (hlive : (w.now : Int) < claims.exp)
    (hunused : (w.used.get claims.jti.text).isNone = true) : ∀ p ∈ w.claimed, p.claims.jti ≠ claims.jti := by
  intro p hp hjti
  obtain ⟨token', htoken'⟩ := h.signed p hp
  have hexp : p.claims.exp = claims.exp := hsigned _ _ _ _ htoken' htoken hjti
  obtain ⟨e, he, -⟩ := h.marked p hp (by rw [hexp]; exact hlive)
  rw [hjti] at he
  simp [Keys.get, he] at hunused

/-- **The first claim of a token, before it expires.** -/
theorem Marked.claim (hsigned : SignedOnce node cfg) (h : Marked node cfg w) {token : String} {claims : PairingClaims}
    {socket now : Nat} (htoken : claimsOf node cfg token = some claims) (hlive : (w.now : Int) < claims.exp)
    (hnow : now ≤ w.now) (hunused : (w.used.get claims.jti.text).isNone = true) :
    Marked node cfg (w.claim claims socket (remaining claims now)) := by
  have hfresh := h.unclaimed hsigned htoken hlive hunused
  rw [claim_of_unused hunused]
  constructor
  · rw [List.map_cons, List.nodup_cons]
    refine ⟨fun hmem => ?_, h.once⟩
    obtain ⟨p, hp, hjti⟩ := List.mem_map.1 hmem
    exact hfresh p hp hjti
  · intro p hp hp'
    rcases List.mem_cons.1 hp with rfl | hp
    · exact ⟨_, Keys.set_self .., exp_le_expireAt claims hnow⟩
    · obtain ⟨e, he, hexp⟩ := h.marked p hp hp'
      have hne : p.claims.jti.text ≠ claims.jti.text := fun htext => hfresh p hp (uuid_of_text htext)
      exact ⟨e, (Keys.set_of_ne _ _ _ hne).trans he, hexp⟩
  · intro p hp
    rcases List.mem_cons.1 hp with rfl | hp
    · exact ⟨token, htoken⟩
    · exact h.signed p hp
  · exact fun p hp => List.mem_cons_of_mem _ (h.seated p hp)

theorem later_claim (w : World) (claims : PairingClaims) (socket ttlMs : Nat) :
    Later w (w.claim claims socket ttlMs) := by
  cases hunused : (w.used.get claims.jti.text).isNone with
  | false =>
    rw [claim_of_used hunused]
    exact .refl w
  | true =>
    rw [claim_of_unused hunused]
    exact ⟨Nat.le_refl _, fun p hp => List.mem_cons_of_mem _ hp⟩

/-- Who has claimed the token may join with it. -/
theorem Marked.register {m : Member} {claims : Option PairingClaims} (h : Marked node cfg w)
    (hclaims : ∀ c, claims = some c → ⟨c, m.socket⟩ ∈ w.claimed) : Marked node cfg (w.register m claims) := by
  refine ⟨h.once, h.marked, h.signed, fun p hp => ?_⟩
  rcases List.mem_append.1 hp with hp | hp
  · cases claims with
    | none => cases hp
    | some c =>
      rw [Option.map_some, Option.toList_some, List.mem_singleton] at hp
      rw [hp]
      exact hclaims c rfl
  · exact h.seated p hp

end marked

/-! ## An attempt -/

theorem unseating_of_early {P : Cmd → Prop} {α : Type} {p : Js α} (hP : ∀ c, P c → c.unclaiming)
    (h : p.Within P Call.early) : p.Within Cmd.unclaiming Call.unseating := by
  refine h.mono hP fun o ho => ?_
  cases o <;> first | exact ho | trivial

/-- After the registration nothing is claimed and nobody else registered. -/
theorem within_attached (cfg : ServerConfig) (request : Request) (admission : Admission) :
    Prog.Within (σ := sig) Cmd.unclaiming Call.unseating (do
      let isOpen ← invoke (.isOpen request.socket)
      let now ← invoke .dateNow
      rotateToken cfg admission isOpen now
      invoke (.listen request.socket) : Js Unit) := by
  refine (Prog.within_invoke (by trivial)).bind fun isOpen => (Prog.within_invoke (by trivial)).bind fun now => ?_
  exact (unseating_of_early (fun _ hc => hc) (within_rotateToken cfg admission isOpen now)).bind
    fun _ => Prog.within_invoke (by trivial)

namespace Replay
variable {node : Node} {cfg : ServerConfig} (request : Request) {t : Nat} {l : Unit} {w : World}

/-- The attempt has claimed the token it joins with. -/
def Owned (admission : Admission) (w : World) : Prop :=
  ∀ claims, admission.claims = some claims → ⟨claims, request.socket⟩ ∈ w.claimed

/-- What claims no token and registers nobody keeps what is known. -/
theorem safe_aside {α : Type} {J : World → Prop} (hJ : ∀ w w', Later w w' → J w → J w') {p : Js α}
    (hp : p.Within Cmd.unclaiming Call.unseating) (h : J w) :
    Safe (attempts node cfg) inTime (Marked node cfg) (fun _ => Later) t p (Returns fun _ _ w => J w) l w := by
  have hsafe : Safe (attempts node cfg) inTime (Marked node cfg) (fun _ => Later) t p (fun _ _ w => J w) l w := by
    refine safe_of_within (fun w w' hw h => hJ w w' hw h) (fun c l w hc _ hI hJw => ?_) (fun o w ho hI hJw => ?_) hp h
    · have haside := aside_exec cfg c w hc
      exact ⟨haside.marked hI, fun _ _ => haside.later, hJ _ _ haside.later hJw⟩
    · have haside := aside_call cfg o w ho
      exact ⟨haside.marked hI, fun _ _ => haside.later, hJ _ _ haside.later hJw⟩
  exact hsafe.returned

theorem owned_later (admission : Admission) (w w' : World) (hw : Later w w') (h : Owned request admission w) :
    Owned request admission w' := fun claims hclaims => hw.claimed _ (h claims hclaims)

/-- The claim itself: a token of the attempt is claimed, unless it was or the reply is lost. -/
theorem safe_claim (hsigned : SignedOnce node cfg) {claims : PairingClaims}
    (htoken : claimsOf node cfg (pairingToken request) = some claims) {now : Nat} (hnow : now ≤ w.now) :
    Safe (attempts node cfg) inTime (Marked node cfg) (fun _ => Later) t
      (await (.claim claims request.socket (remaining claims now)))
      (Returns fun claimed _ w => claimed = true → ⟨claims, request.socket⟩ ∈ w.claimed) l w := by
  refine safe_send fun w' hw hI => ⟨trivial, fun hlive => ?_⟩
  have hnow' : now ≤ w'.now := Nat.le_trans hnow hw.now_le
  refine ⟨?_, fun _ _ => later_claim .., fun hunused => ?_, trivial⟩
  · show Marked node cfg (w'.claim claims request.socket (remaining claims now))
    cases hunused : (w'.used.get claims.jti.text).isNone with
    | false =>
      rw [claim_of_used hunused]
      exact hI
    | true => exact hI.claim hsigned htoken hlive hnow' hunused
  · show _ ∈ (w'.claim claims request.socket (remaining claims now)).claimed
    rw [claim_of_unused hunused]
    exact List.mem_cons_self ..

theorem safe_claimToken (hsigned : SignedOnce node cfg) {claims : PairingClaims}
    (htoken : claimsOf node cfg (pairingToken request) = some claims) :
    Safe (attempts node cfg) inTime (Marked node cfg) (fun _ => Later) t (claimToken request claims)
      (Returns fun claimed _ w => claimed = true → ⟨claims, request.socket⟩ ∈ w.claimed) l w := by
  have hclock : Safe (attempts node cfg) inTime (Marked node cfg) (fun _ => Later) t (invoke .dateNow)
      (Returns fun now _ w => now ≤ w.now) l w :=
    safe_invoke fun w' _ hI => ⟨hI, fun _ _ => .refl w', Nat.le_refl _⟩
  refine hclock.seq fun now l w hnow => ?_
  refine Safe.seq (P := fun claimed _ w => claimed = some true → ⟨claims, request.socket⟩ ∈ w.claimed) ?_
    fun claimed l w hclaimed => ?_
  · refine Safe.tryCatch (Q := Returns fun claimed _ w => claimed = some true → ⟨claims, request.socket⟩ ∈ w.claimed)
      ?_ (fun _ _ _ h => h) fun _ _ _ => nofun
    exact (safe_claim request hsigned htoken hnow).seq fun claimed l w h hsome => h (Option.some.inj hsome)
  · split
    · exact fun _ => hclaimed rfl
    · exact (safe_aside (J := fun _ => True) (fun _ _ _ h => h) (Prog.within_invoke (by trivial)) trivial).seq
        fun _ _ _ _ => nofun
    · exact (safe_aside (J := fun _ => True) (fun _ _ _ h => h) (Prog.within_invoke (by trivial)) trivial).seq
        fun _ _ _ _ => nofun

theorem safe_attach (admission : Admission) (h : Owned request admission w) :
    Safe (attempts node cfg) inTime (Marked node cfg) (fun _ => Later) t (attach cfg request admission) Ended l w := by
  have hregister : Safe (attempts node cfg) inTime (Marked node cfg) (fun _ => Later) t
      (invoke (.register ⟨request.socket, request.server, admission.room, admission.who⟩ admission.claims)) Ended l w :=
    safe_invoke fun w' hw hI => ⟨hI.register (owned_later request admission w w' hw h),
      fun _ _ => ⟨Nat.le_refl _, fun p hp => hp⟩, trivial⟩
  exact hregister.seq fun _ l w _ =>
    (safe_aside (J := fun _ => True) (fun _ _ _ h => h) (within_attached cfg request admission) trivial).ended

theorem safe_enterRoom (admission : Admission) (h : Owned request admission w) :
    Safe (attempts node cfg) inTime (Marked node cfg) (fun _ => Later) t (enterRoom cfg request admission) Ended l
      w := by
  have howned := owned_later request admission
  refine (safe_aside howned (Prog.within_invoke (by trivial)) h).seq fun uuid l w h => ?_
  refine (safe_aside howned (unseating_of_early (fun _ hc => hc) (within_joinRoom request _)) h).seq
    fun joined l w h => ?_
  split
  · refine (safe_aside howned (Prog.within_invoke (by trivial)) h).seq fun isOpen l w h => ?_
    split
    · exact (safe_aside howned (unseating_of_early (fun _ hc => hc) (within_leaveAgain _)) h).ended
    · exact safe_attach request admission h
  · trivial

/-- **An attempt joins with a token only if it has claimed it.** -/
theorem safe_handleNewConnection (hsigned : SignedOnce node cfg) :
    Safe (attempts node cfg) inTime (Marked node cfg) (fun _ => Later) t (handleNewConnection node cfg request) Ended
      l w := by
  refine Safe.tryCatch (Q := Ended) ?_ (fun _ _ _ _ => trivial) fun l w _ => ?_
  · have hvet : Safe (attempts node cfg) inTime (Marked node cfg) (fun _ => Later) t (vet node cfg request)
        (Returns fun _ _ _ => True) l w :=
      safe_aside (fun _ _ _ h => h) (unseating_of_early unclaiming_of_early (within_vet node cfg request)) trivial
    refine (hvet.yields yields_vet).seq fun admission l w hvouched => ?_
    split
    · trivial
    · rename_i admission
      split
      · rename_i hnone
        exact safe_enterRoom request admission fun claims hclaims => by rw [hnone] at hclaims; cases hclaims
      · rename_i claims hclaims
        refine (safe_claimToken request hsigned (hvouched.1 _ _ rfl hclaims)).seq fun claimed l w hclaimed => ?_
        split
        · rename_i htrue
          refine safe_enterRoom request admission fun claims' hclaims' => ?_
          rw [hclaims] at hclaims'
          cases hclaims'
          exact hclaimed htrue
        · trivial
  · exact (safe_aside (J := fun _ => True) (fun _ _ _ h => h) (Prog.within_invoke (by trivial)) trivial).ended

end Replay

/-! ## All attempts -/

/-- **Where every token is claimed before it expires, at most one attempt joins with it**, on whatever instances and
however the attempts interleave. -/
theorem singleUse_of_inTime (node : Node) (cfg : ServerConfig) (now : Nat) (outside : Outside)
    (hsigned : SignedOnce node cfg) (p : Pool sig World Unit)
    (h : Reach (attempts node cfg) inTime (.start now outside) p) : SingleUse p.world := by
  have hstart : Marked node cfg (.start now outside) := ⟨List.nodup_nil, nofun, nofun, nofun⟩
  have hgood : Good (attempts node cfg) inTime (Marked node cfg) (fun _ => Later) (.start now outside) p := by
    refine good_of_reach (fun _ => .refl) (fun _ _ _ _ => .trans) ?_ (fun e w _ hw => ?_) hstart h
    · rintro n q ⟨request, -, rfl⟩ w _ _
      exact Replay.safe_handleNewConnection request hsigned
    · obtain ⟨hI, hlater⟩ := marked_ambient e hw
      exact ⟨hI, fun _ => hlater⟩
  exact hgood.inv.singleUse

namespace Sample

theorem exp_of_claimsOf {token : String} {claims : PairingClaims} (h : claimsOf node cfg token = some claims) :
    claims.exp = 60000 := by
  have hread : ∀ text, (node.decode text).bind readClaims = some claims → claims.exp = 60000 := by
    intro text htext
    obtain ⟨json, hdecode, hclaims⟩ := Option.bind_eq_some_iff.1 htext
    have hjson : json = payload := by
      simp only [node] at hdecode
      split at hdecode
      · exact (Option.some.inj hdecode).symm
      · cases hdecode
    have hpayload : (readClaims payload).map (·.exp) = some 60000 := by decide +kernel
    rw [← hjson, hclaims] at hpayload
    exact Option.some.inj hpayload
  unfold claimsOf at h
  split at h
  · cases h
  split at h
  · split at h
    · exact hread _ h
    · cases h
  · cases h

/-- There is one token. -/
theorem signedOnce : SignedOnce node cfg := by
  intro token token' claims claims' h h' _
  rw [exp_of_claimsOf h, exp_of_claimsOf h']

/-- One attempt after the other. -/
def oneByOne : List (Choice sig Ambient) := .start (attempt 0) :: .start (attempt 1) :: turns 0 9 ++ turns 1 9

/-- Both attempts have verified the token and await their access token when it expires. -/
def claimedLate : List (Choice sig Ambient) :=
  .start (attempt 0) :: .start (attempt 1) :: turns 0 3 ++ turns 1 3 ++ [.ambient (.elapse 60000)] ++ turns 0 6 ++
    [.ambient (.elapse 1)] ++ turns 1 6

theorem reach_oneByOne : Reach (attempts node cfg) inTime start (play oneByOne) :=
  reach_play _ _ oneByOne ⟨start, []⟩ ⟨⟨request 0, rfl, rfl⟩, ⟨request 1, rfl, rfl⟩, trivial⟩ (by decide +kernel)

theorem reach_claimedLate : Reach (attempts node cfg) anyCommand start (play claimedLate) :=
  reach_play _ _ claimedLate ⟨start, []⟩ ⟨⟨request 0, rfl, rfl⟩, ⟨request 1, rfl, rfl⟩, trivial, trivial, trivial⟩
    (kept_any ..)

theorem reused_claimedLate : ¬SingleUse (play claimedLate).world := by decide +kernel

end Sample

theorem singleUse_oneByOne : SingleUse (Sample.play Sample.oneByOne).world :=
  singleUse_of_inTime Sample.node Sample.cfg 0 Sample.outside Sample.signedOnce _ Sample.reach_oneByOne

/-- **Two attempts that verified the token before it expired and claim it after that both join.** -/
theorem not_singleUse_claimedLate :
    ¬∀ p : Pool sig World Unit, Reach (attempts Sample.node Sample.cfg) anyCommand Sample.start p →
      SingleUse p.world := by
  intro h
  exact Sample.reused_claimedLate (h _ Sample.reach_claimedLate)

end Setup
end Signaling
end CloudGaming
