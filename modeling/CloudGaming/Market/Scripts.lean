import CloudGaming.Market.Deadlines
/-!
# Scripts — any sequence of script evaluations

The three Lua scripts with every argument free, a `SET … EX` that refuses its argument included, and the sequences of
them with keys that expire anywhere in between.  A claim excludes every other claim of its host until a release that
names its session, or the expiry of the lease.  The commands of the store are these scripts with the arguments the
handlers pass (`exec_presence`, `exec_claim`, `exec_release`).
-/
namespace CloudGaming
namespace Market

open Redis

/-- What an evaluation leaves: the reply, `none` where the script failed, and the store. -/
abbrev Ran (α : Type) := Option α × World

/-- `SET k v EX seconds` and the rest of the script; Redis refuses an expiry of zero, and what is written stays. -/
def setEx {α : Type} (seconds : Nat) (write : World → World) (rest : World → Ran α) (w : World) : Ran α :=
  if seconds = 0 then (none, w) else rest (write w)

theorem setEx_pos {α : Type} {seconds : Nat} (h : seconds ≠ 0) (write : World → World) (rest : World → Ran α)
    (w : World) : setEx seconds write rest w = rest (write w) := if_neg h

namespace World

def setHost (w : World) (h : HostId) (r : {r : HostRecord // r.hostId = h}) (seconds : Nat) : World :=
  { w with hosts := w.hosts.set h r (w.now + seconds * 1000) }

def setLease (w : World) (h : HostId) (id : SessionId) (seconds : Nat) : World :=
  { w with leases := w.leases.set h id (w.now + seconds * 1000) }

theorem keyed (s : Session) : s.id = s.id := rfl

def setRecord (w : World) (s : Session) (seconds : Nat) : World :=
  { w with sessions := w.sessions.set s.id ⟨s, keyed s⟩ (w.now + seconds * 1000) }

end World

/-- `PRESENCE_SCRIPT`; the reply is the state it stores. -/
def presenceScript (p : Presence) (lastSeenAt seconds : Nat) (w : World) : Ran HostState :=
  let w := match w.hosts.get p.hostId with
    | none => w
    | some r => { w with idle := w.delist p.hostId r.1.games }
  let leased := (w.lease p.hostId).isSome
  let r := w.presenceRecord p lastSeenAt
  setEx seconds (fun w => w.setHost p.hostId ⟨r, rfl⟩ seconds)
    (fun w => (some r.state,
      if !leased ∧ r.state = .idle then { w with idle := World.enlist w.idle p.hostId p.games } else w))
    w

/-- What a claim is asked for: the host, the game and the session, the record it is to store, and the three expiries. -/
structure Claim where
  host : HostId
  game : GameId
  session : SessionId
  leaseSeconds : Nat
  hostSeconds : Nat
  record : Session
  recordSeconds : Nat

/-- `CLAIM_SCRIPT`; the reply is nil, or the record of the host it claimed. -/
def claimScript (c : Claim) (w : World) : Ran (Option HostRecord) :=
  match w.hosts.get c.host with
  | none => (some none, w)
  | some r =>
    if (w.lease c.host).isSome then (some none, w)
    else if r.1.state ≠ .idle then (some none, w)
    else if !r.1.offers c.game then (some none, w)
    else
      let host : {r : HostRecord // r.hostId = c.host} :=
        ⟨{ r.1 with state := .reserved, sessionId := some c.session }, r.2⟩
      setEx c.hostSeconds (fun w => w.setHost c.host host c.hostSeconds)
        (setEx c.leaseSeconds (fun w => w.setLease c.host c.session c.leaseSeconds)
          (setEx c.recordSeconds (fun w => w.setRecord c.record c.recordSeconds) fun w => (some (some host.1), w)))
        { w with idle := w.delist c.host r.1.games }

theorem hostId_idle (h : HostId) (r : {r : HostRecord // r.hostId = h}) :
    ({ r.1 with state := .idle, sessionId := none } : HostRecord).hostId = h := r.2

/-- `RELEASE_SCRIPT`; the reply is whether it returned 1. -/
def releaseScript (h : HostId) (id : SessionId) (seconds : Nat) (w : World) : Ran Bool :=
  if w.lease h ≠ some id then (some false, w)
  else match w.hosts.get h with
    | some r =>
      setEx seconds (fun w => w.setHost h ⟨{ r.1 with state := .idle, sessionId := none }, hostId_idle h r⟩ seconds)
        (fun w => (some true, { w with leases := w.leases.del h }))
        { w with idle := World.enlist w.idle h r.1.games }
    | none => (some true, { w with leases := w.leases.del h })

/-! ## The handlers' arguments -/

section handlers
variable (w : World) (ht : 0 < w.config.hostTtlSeconds)
include ht

theorem exec_presence (p : Presence) (now : Nat) :
    presenceScript p now w.config.hostTtlSeconds w = (some (exec (.presence p now) w).1, (exec (.presence p now) w).2) := by
  have hidle : (!(w.lease p.hostId).isSome ∧ (w.presenceRecord p now).state = .idle) ↔
      ((w.lease p.hostId).isNone ∧ p.state = .idle) := by
    unfold World.presenceRecord
    cases w.lease p.hostId <;> simp
  unfold presenceScript
  simp only [exec, World.presence, World.presenceRecord]
  cases w.hosts.get p.hostId with
  | none =>
    dsimp only
    rw [setEx_pos (Nat.ne_of_gt ht)]
    by_cases hi : (w.lease p.hostId).isNone ∧ p.state = .idle
    · rw [if_pos hi]; exact congrArg (Prod.mk _) (if_pos (hidle.2 hi))
    · rw [if_neg hi]; exact congrArg (Prod.mk _) (if_neg fun h => hi (hidle.1 h))
  | some r =>
    dsimp only
    rw [setEx_pos (Nat.ne_of_gt ht)]
    by_cases hi : (w.lease p.hostId).isNone ∧ p.state = .idle
    · rw [if_pos hi]; exact congrArg (Prod.mk _) (if_pos (hidle.2 hi))
    · rw [if_neg hi]; exact congrArg (Prod.mk _) (if_neg fun h => hi (hidle.1 h))

/-- The claim of `allocateSession`; the history is no part of the store. -/
theorem exec_claim (h : HostId) (s : Session) :
    claimScript ⟨h, s.gameId, s.id, s.durationSeconds + 300, w.config.hostTtlSeconds, s, sessionTtl s.durationSeconds⟩ w =
      (some (exec (.claim h s) w).1, { (exec (.claim h s) w).2 with trace := w.trace }) := by
  have hs : sessionTtl s.durationSeconds ≠ 0 := by unfold sessionTtl; omega
  have hl : s.durationSeconds + 300 ≠ 0 := by omega
  unfold claimScript
  simp only [exec, World.claimable]
  cases w.hosts.get h with
  | none => rfl
  | some r =>
    dsimp only
    rw [setEx_pos (Nat.ne_of_gt ht), setEx_pos hl, setEx_pos hs]
    cases hl : w.lease h with
    | some id => simp [Option.filter]
    | none =>
      by_cases hi : r.1.state = .idle
      · cases ho : r.1.offers s.gameId with
        | true =>
          rw [Option.filter_some_pos (by simp [hi, ho]), if_neg (by simp), if_neg (by simp [hi]), if_neg (by simp)]
          rfl
        | false =>
          rw [Option.filter_some_neg (by simp [ho]), if_neg (by simp), if_neg (by simp [hi]), if_pos (by simp)]
      · rw [Option.filter_some_neg (by simp [hi]), if_neg (by simp), if_pos hi]

theorem exec_release (h : HostId) (id : SessionId) :
    releaseScript h id w.config.hostTtlSeconds w =
      (some (exec (.release (some h) id) w).1, { (exec (.release (some h) id) w).2 with trace := w.trace }) := by
  unfold releaseScript
  simp only [exec, World.release]
  by_cases hl : w.lease h = some id
  · rw [if_neg (by simpa using hl), if_pos hl, decide_eq_true hl]
    cases w.hosts.get h with
    | none => rfl
    | some r =>
      dsimp only
      rw [setEx_pos (Nat.ne_of_gt ht)]
      rfl
  · rw [if_pos hl, if_neg hl, decide_eq_false hl]

end handlers

/-! ## Sequences of evaluations -/

inductive Eval where
  | presence (p : Presence) (lastSeenAt seconds : Nat)
  | claim (c : Claim)
  | release (h : HostId) (id : SessionId) (seconds : Nat)
  | hostExpires (h : HostId)
  | leaseExpires (h : HostId)

def World.evaluate (w : World) : Eval → World
  | .presence p lastSeenAt seconds => (presenceScript p lastSeenAt seconds w).2
  | .claim c => (claimScript c w).2
  | .release h id seconds => (releaseScript h id seconds w).2
  | .hostExpires h => { w with hosts := w.hosts.del h }
  | .leaseExpires h => { w with leases := w.leases.del h }

def World.evaluated (w : World) (es : List Eval) : World := es.foldl World.evaluate w

/-- The claim succeeds. -/
def Claim.Succeeds (c : Claim) (w : World) : Prop := ∃ r, (claimScript c w).1 = some (some r)

/-- A successful release of the host that names the session, or the expiry of the lease the session holds on it. -/
def Eval.Frees (h : HostId) (id : SessionId) (w : World) : Eval → Prop
  | .release h' id' seconds => h' = h ∧ id' = id ∧ (releaseScript h' id' seconds w).1 = some true
  | .leaseExpires h' => h' = h ∧ w.lease h = some id
  | _ => False

/-- **Claim exclusivity** along a sequence of evaluations from the store `w`. -/
structure Exclusive (w : World) (es : List Eval) : Prop where
  /-- A claim succeeds only on an idle host that offers the game and is not leased. -/
  justified : ∀ pre c post, es = pre ++ .claim c :: post → c.Succeeds (w.evaluated pre) →
    (w.evaluated pre).lease c.host = none ∧
      ∃ r, (w.evaluated pre).host c.host = some r ∧ r.state = .idle ∧ r.offers c.game = true
  /-- Between two of one host its lease is given back or expires. -/
  separated : ∀ pre c mid c' post, es = pre ++ .claim c :: (mid ++ .claim c' :: post) → c'.host = c.host →
    c.Succeeds (w.evaluated pre) → c'.Succeeds (w.evaluated (pre ++ .claim c :: mid)) →
    ∃ m e m', mid = m ++ e :: m' ∧ e.Frees c.host c.session (w.evaluated (pre ++ .claim c :: m))
  /-- A claimed host is in no idle set of a game it lists. -/
  delisted : ∀ pre c post, es = pre ++ .claim c :: post → c.Succeeds (w.evaluated pre) →
    ∃ r, (w.evaluated (pre ++ [.claim c])).host c.host = some r ∧
      ∀ game ∈ r.games, c.host ∉ (w.evaluated (pre ++ [.claim c])).idle game.id

section facts
variable {w : World}

/-- **What a successful claim met and what it wrote.** -/
theorem Claim.Succeeds.spec {c : Claim} (hc : c.Succeeds w) :
    w.lease c.host = none ∧ ∃ r : {r : HostRecord // r.hostId = c.host}, w.hosts.get c.host = some r ∧
      r.1.state = .idle ∧ r.1.offers c.game = true ∧
      w.evaluate (.claim c) = ((({ w with idle := w.delist c.host r.1.games }.setHost c.host
        ⟨{ r.1 with state := .reserved, sessionId := some c.session }, r.2⟩ c.hostSeconds).setLease c.host c.session
          c.leaseSeconds).setRecord c.record c.recordSeconds) := by
  obtain ⟨host, hs⟩ := hc
  unfold World.evaluate
  unfold claimScript at hs ⊢
  cases hr : w.hosts.get c.host with
  | none => rw [hr] at hs; cases hs
  | some r =>
    rw [hr] at hs
    dsimp only at hs ⊢
    split at hs
    · cases hs
    split at hs
    · cases hs
    split at hs
    · cases hs
    rename_i hl hi ho
    by_cases h₁ : c.hostSeconds = 0
    · rw [setEx, if_pos h₁] at hs; cases hs
    rw [setEx_pos h₁] at hs
    by_cases h₂ : c.leaseSeconds = 0
    · rw [setEx, if_pos h₂] at hs; cases hs
    rw [setEx_pos h₂] at hs
    by_cases h₃ : c.recordSeconds = 0
    · rw [setEx, if_pos h₃] at hs; cases hs
    refine ⟨by simpa using hl, r, rfl, by simpa using hi, by simpa using ho, ?_⟩
    rw [hr]
    dsimp only
    rw [if_neg hl, if_neg hi, if_neg ho, setEx_pos h₁, setEx_pos h₂, setEx_pos h₃]

theorem lease_setLease (w : World) (h : HostId) (id : SessionId) (seconds : Nat) :
    (w.setLease h id seconds).lease h = some id := by simp [World.setLease, World.lease]

/-- A claim leaves a host that is leased as it is. -/
theorem claimScript_leased {c : Claim} (hl : (w.lease c.host).isSome) : (claimScript c w).2 = w := by
  unfold claimScript
  split
  · rfl
  · rw [if_pos hl]

theorem lease_claimScript_of_ne (w : World) {c : Claim} {h : HostId} (hne : h ≠ c.host) :
    (claimScript c w).2.lease h = w.lease h := by
  have hd := fun (m : Keys HostId fun _ => SessionId) t => Keys.get_set_of_ne m (k := c.host) c.session t hne
  unfold claimScript setEx
  dsimp only
  split
  · rfl
  · repeat' split
    all_goals first
      | rfl
      | exact hd _ _

theorem lease_presenceScript (w : World) (p : Presence) (lastSeenAt seconds : Nat) (h : HostId) :
    (presenceScript p lastSeenAt seconds w).2.lease h = w.lease h := by
  unfold presenceScript setEx
  dsimp only
  repeat' split
  all_goals rfl

/-- A release that does not free a lease leaves it. -/
theorem lease_releaseScript (w : World) {h h' : HostId} {id id' : SessionId} {seconds : Nat} (hl : w.lease h = some id)
    (hne : ¬(Eval.release h' id' seconds).Frees h id w) : (releaseScript h' id' seconds w).2.lease h = some id := by
  have hdel : ¬h' = h → Keys.get (w.leases.del h') h = some id := fun hn =>
    (Keys.get_del_of_ne w.leases (Ne.symm hn)).trans hl
  have hsucc : ¬(h' = h ∧ id' = id ∧ (releaseScript h' id' seconds w).1 = some true) := hne
  unfold releaseScript at hsucc ⊢
  by_cases hid : w.lease h' = some id'
  · rw [if_neg (by simpa using hid)] at hsucc ⊢
    have hsame : h' = h → id' = id := fun he => by rw [he, hl] at hid; exact (Option.some.inj hid).symm
    cases hr : w.hosts.get h' with
    | none =>
      rw [hr] at hsucc
      exact hdel fun he => hsucc ⟨he, hsame he, rfl⟩
    | some r =>
      rw [hr] at hsucc
      dsimp only at hsucc ⊢
      by_cases hz : seconds = 0
      · rw [setEx, if_pos hz]; exact hl
      · rw [setEx_pos hz] at hsucc ⊢
        exact hdel fun he => hsucc ⟨he, hsame he, rfl⟩
  · rw [if_pos hid]; exact hl

/-- **One evaluation that does not free a lease keeps it.** -/
theorem lease_evaluate {h : HostId} {id : SessionId} (hl : w.lease h = some id) {e : Eval} (hne : ¬e.Frees h id w) :
    (w.evaluate e).lease h = some id := by
  cases e with
  | presence p lastSeenAt seconds => exact (lease_presenceScript w p lastSeenAt seconds h).trans hl
  | claim c =>
    by_cases hc : c.host = h
    · subst hc
      exact (congrArg (fun w => w.lease c.host) (claimScript_leased (by rw [hl]; rfl))).trans hl
    · exact (lease_claimScript_of_ne w (Ne.symm hc)).trans hl
  | release h' id' seconds => exact lease_releaseScript w hl hne
  | hostExpires h' => exact hl
  | leaseExpires h' =>
    have hn : h ≠ h' := fun he => hne ⟨he.symm, hl⟩
    exact (Keys.get_del_of_ne _ hn).trans hl

/-- **A lease that is gone was freed.** -/
theorem freed_of_evaluated {h : HostId} {id : SessionId} : ∀ (mid : List Eval) (w : World), w.lease h = some id →
    (w.evaluated mid).lease h ≠ some id → ∃ m e m', mid = m ++ e :: m' ∧ e.Frees h id (w.evaluated m)
  | [], _, hl, hne => absurd hl hne
  | e :: mid, w, hl, hne => by
    by_cases hf : e.Frees h id w
    · exact ⟨[], e, mid, rfl, hf⟩
    · obtain ⟨m, e', m', rfl, hf'⟩ := freed_of_evaluated mid (w.evaluate e) (lease_evaluate hl hf) hne
      exact ⟨e :: m, e', m', rfl, hf'⟩

end facts

theorem evaluated_append (w : World) (es es' : List Eval) : w.evaluated (es ++ es') = (w.evaluated es).evaluated es' :=
  List.foldl_append

/-- **Claims exclude one another** in every sequence of evaluations and expiries. -/
theorem exclusive_evaluated (w : World) (es : List Eval) : Exclusive w es where
  justified pre c post _ hc := by
    obtain ⟨hl, r, hr, hi, ho, -⟩ := hc.spec
    exact ⟨hl, r.1, by rw [World.host, hr]; rfl, hi, ho⟩
  separated pre c mid c' post _ hh hc hc' := by
    obtain ⟨-, r, -, -, -, he⟩ := hc.spec
    obtain ⟨hl', -⟩ := hc'.spec
    have hl : ((w.evaluated pre).evaluate (.claim c)).lease c.host = some c.session := by
      rw [he]
      exact lease_setLease _ c.host c.session c.leaseSeconds
    have hrun : ∀ m, w.evaluated (pre ++ .claim c :: m) = ((w.evaluated pre).evaluate (.claim c)).evaluated m :=
      fun m => evaluated_append w pre (.claim c :: m)
    rw [hrun, hh] at hl'
    obtain ⟨m, e, m', hm, hf⟩ := freed_of_evaluated mid _ hl (by rw [hl']; exact fun h => by cases h)
    exact ⟨m, e, m', hm, by rw [hrun]; exact hf⟩
  delisted pre c post _ hc := by
    obtain ⟨-, r, -, -, -, he⟩ := hc.spec
    rw [evaluated_append]
    change ∃ r, ((w.evaluated pre).evaluate (.claim c)).host c.host = some r ∧
      ∀ game ∈ r.games, c.host ∉ ((w.evaluated pre).evaluate (.claim c)).idle game.id
    rw [he]
    refine ⟨{ r.1 with state := .reserved, sessionId := some c.session }, ?_, fun game hg hm => ?_⟩
    · exact congrArg (Option.map Subtype.val) (Keys.get_set_self (w.evaluated pre).hosts c.host _ _)
    · exact ((mem_delist (w.evaluated pre)).1 hm).2 ⟨rfl, List.any_eq_true.2 ⟨game, hg, by simp⟩⟩

end Market
end CloudGaming
