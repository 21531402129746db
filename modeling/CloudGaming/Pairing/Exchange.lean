import CloudGaming.Pairing.Store
/-!
# Exchange — a pairing code is exchanged once

Requests and heartbeats, interleaved at their Redis commands.  The lookup of a code and the claim of its host are two
commands, and the claim does not look at the pairing key again: a claim that meets another claim of its code since its
lookup, or that replaces the consumed marker of the code the host still publishes, exchanges a code twice.  Where no
claim does either, every code is exchanged at most once.
-/
namespace CloudGaming
namespace Pairing

open Async Redis
open Market (HostId)
open Function (update)

def isTaken (claimed : List Exchange) (pairingHash : PairingHash) : Bool :=
  claimed.any (·.pairingHash = pairingHash)

/-- A host publishes a code of its own, and none it has given up. -/
def World.assumed (w : World) : Cmd → Bool
  | .heartbeat host pairingHash => w.publisher pairingHash = none ||
      w.publisher pairingHash = some host.hostId && w.publishing host.hostId = some pairingHash
  | _ => true

/-- No claim of the code took effect since the lookup, when `seen` were claimed, and the marker the claim replaces is
not that of the code the host publishes. -/
def World.inTurn (w : World) (seen : List Exchange) : Cmd → Bool
  | .claim _ h pairingHash => w.claimable h = none ||
      (!isTaken w.claimed pairingHash || isTaken seen pairingHash) &&
        (w.consumed h = none || w.consumed h = some pairingHash || w.publishing h ≠ w.consumed h)
  | _ => true

/-- Requests and heartbeats; a request remembers what was claimed at its lookup. -/
def matchmaker : System sig World (List Exchange) Empty where
  machine := machine
  spawn n p := (∃ body, p = (find n body).discard) ∨ ∃ b, p = (heartbeat b).discard
  ambient e := e.elim
  may _ := True
  fresh := []
  note
    | .getPairing _, w, _ => w.claimed
    | _, _, seen => seen

abbrev published : Guard sig World (List Exchange) := fun c _ w => w.assumed c = true

abbrev orderly : Guard sig World (List Exchange) := fun c seen w => w.assumed c = true ∧ w.inTurn seen c = true

/-! ## The invariant -/

/-- A claimed code cannot be looked up: its host has a marker for it, or publishes another one. -/
structure Spent (w : World) (pairingHash : PairingHash) : Prop where
  pairing : w.pairing pairingHash = none
  marked : ∃ h, w.publisher pairingHash = some h ∧ (w.publishing h = some pairingHash → w.consumed h = some pairingHash)

structure Consistent (w : World) : Prop where
  spent : ∀ e ∈ w.claimed, Spent w e.pairingHash
  once : (w.claimed.map Exchange.pairingHash).Nodup
  pairing : ∀ pairingHash h, w.pairing pairingHash = some h → w.publisher pairingHash = some h
  publishing : ∀ h pairingHash, w.publishing h = some pairingHash → w.publisher pairingHash = some h
  answered : ∀ e ∈ w.answered, e ∈ w.claimed

/-- A code stays with its publisher, and a claim is not undone. -/
structure Later (w w' : World) : Prop where
  publisher : ∀ pairingHash h, w.publisher pairingHash = some h → w'.publisher pairingHash = some h
  claimed : ∀ e ∈ w.claimed, e ∈ w'.claimed

theorem Later.refl (w : World) : Later w w := ⟨fun _ _ h => h, fun _ h => h⟩

theorem Later.trans {a b c : World} (h : Later a b) (h' : Later b c) : Later a c :=
  ⟨fun p k hk => h'.publisher p k (h.publisher p k hk), fun e he => h'.claimed e (h.claimed e he)⟩

variable {w : World} {seen : List Exchange} {pairingHash : PairingHash}

theorem isTaken_iff {claimed : List Exchange} :
    isTaken claimed pairingHash = true ↔ ∃ e ∈ claimed, e.pairingHash = pairingHash := by
  simp [isTaken]

/-- Who may publish the code of a heartbeat. -/
theorem publisher_of_assumed {host : Host} (h : w.assumed (.heartbeat host pairingHash) = true) :
    w.publisher pairingHash = none ∨
      w.publisher pairingHash = some host.hostId ∧ w.publishing host.hostId = some pairingHash := by
  simpa [World.assumed] using h

theorem later_heartbeat {host : Host} (h : w.assumed (.heartbeat host pairingHash) = true) :
    Later w (w.heartbeat host pairingHash) := by
  refine ⟨fun p k hk => ?_, fun e he => he⟩
  unfold World.heartbeat
  dsimp only
  by_cases hp : p = pairingHash
  · subst hp
    rw [Function.update_self]
    rcases publisher_of_assumed h with hn | ⟨hs, -⟩
    · exact absurd (hn.symm.trans hk) nofun
    · exact hs.symm.trans hk
  · rw [Function.update_of_ne hp]
    exact hk

/-- **A heartbeat republishes no spent code.** -/
theorem spent_heartbeat {host : Host} {spent : PairingHash}
    (ha : w.assumed (.heartbeat host pairingHash) = true) (hs : Spent w spent) :
    Spent (w.heartbeat host pairingHash) spent := by
  obtain ⟨hpairing, k, hk, hmarked⟩ := hs
  have hpublisher := (later_heartbeat ha).publisher spent k hk
  by_cases he : spent = pairingHash
  · subst he
    have hsame : k = host.hostId ∧ w.publishing host.hostId = some spent := by
      rcases publisher_of_assumed ha with hn | ⟨hs, hp⟩
      · exact absurd (hn.symm.trans hk) nofun
      · exact ⟨Option.some.inj (hk.symm.trans hs), hp⟩
    obtain ⟨rfl, hp⟩ := hsame
    have hconsumed := hmarked hp
    refine ⟨?_, host.hostId, hpublisher, fun _ => ?_⟩
    · unfold World.heartbeat
      dsimp only
      rw [Function.update_self, if_neg fun hc => hc.2 hconsumed]
    · unfold World.heartbeat
      dsimp only
      rw [if_pos hconsumed]
      exact hconsumed
  · refine ⟨?_, k, hpublisher, fun hp => ?_⟩
    · unfold World.heartbeat
      dsimp only
      rw [Function.update_of_ne he]
      exact hpairing
    · unfold World.heartbeat at hp ⊢
      dsimp only at hp ⊢
      by_cases hkh : k = host.hostId
      · subst hkh
        rw [Function.update_self] at hp
        exact absurd (Option.some.inj hp).symm he
      · rw [Function.update_of_ne hkh] at hp
        have hconsumed := hmarked hp
        split
        · exact hconsumed
        · rw [Function.update_of_ne hkh]
          exact hconsumed

theorem consistent_heartbeat {host : Host} (h : Consistent w) (ha : w.assumed (.heartbeat host pairingHash) = true) :
    Consistent (w.heartbeat host pairingHash) where
  spent e he := spent_heartbeat ha (h.spent e he)
  once := h.once
  pairing p k hk := by
    unfold World.heartbeat at hk ⊢
    dsimp only at hk ⊢
    by_cases hp : p = pairingHash
    · subst hp
      rw [Function.update_self] at hk ⊢
      split at hk
      · exact hk
      · cases hk
    · rw [Function.update_of_ne hp] at hk ⊢
      exact h.pairing p k hk
  publishing k p hk := by
    have hlater := later_heartbeat ha
    by_cases hkh : k = host.hostId
    · subst hkh
      unfold World.heartbeat at hk ⊢
      dsimp only at hk ⊢
      rw [Function.update_self] at hk
      obtain rfl := Option.some.inj hk
      rw [Function.update_self]
    · refine hlater.publisher p k (h.publishing k p ?_)
      unfold World.heartbeat at hk
      dsimp only at hk
      rwa [Function.update_of_ne hkh] at hk
  answered := h.answered

/-- What a claim may rely on: its host published the code, and the claim is in turn. -/
structure InTurn (w : World) (k : HostId) (pairingHash : PairingHash) : Prop where
  publisher : w.publisher pairingHash = some k
  fresh : ∀ e ∈ w.claimed, e.pairingHash ≠ pairingHash
  marker : ∀ other, w.publishing k = some other → w.consumed k = some other → other = pairingHash

theorem later_claim (w : World) (n : Nat) (k : HostId) (pairingHash : PairingHash) :
    Later w (w.claim n k pairingHash) := by
  unfold World.claim
  split
  · exact ⟨fun _ _ h => h, fun _ h => h⟩
  · exact ⟨fun _ _ h => h, fun _ h => List.mem_cons_of_mem _ h⟩

theorem mem_claimed {k : HostId} {host : Host} (h : w.claimable k = some host) (n : Nat) :
    (⟨n, pairingHash⟩ : Exchange) ∈ (w.claim n k pairingHash).claimed := by
  unfold World.claim
  rw [h]
  exact List.mem_cons_self

theorem consistent_unclaimed {k : HostId} (h : Consistent w) (hc : w.claimable k = none) (n : Nat)
    (pairingHash : PairingHash) : Consistent (w.claim n k pairingHash) := by
  unfold World.claim
  rw [hc]
  exact ⟨fun e he => ⟨(h.spent e he).pairing, (h.spent e he).marked⟩, h.once, h.pairing, h.publishing, h.answered⟩

/-- **A claim in turn spends its code**, and leaves every other spent code spent. -/
theorem consistent_claim {k : HostId} {host : Host} (h : Consistent w) (hc : w.claimable k = some host)
    (ht : InTurn w k pairingHash) (n : Nat) : Consistent (w.claim n k pairingHash) := by
  unfold World.claim
  rw [hc]
  refine ⟨fun e he => ?_, ?_, fun p l hl => ?_, h.publishing, fun e he => List.mem_cons_of_mem _ (h.answered e he)⟩
  · rcases List.mem_cons.1 he with rfl | he
    · exact ⟨Function.update_self .., k, ht.publisher, fun _ => Function.update_self ..⟩
    · have hne := ht.fresh e he
      obtain ⟨hpairing, l, hl, hmarked⟩ := h.spent e he
      refine ⟨(Function.update_of_ne hne ..).trans hpairing, l, hl, fun hp => ?_⟩
      by_cases hlk : l = k
      · subst hlk
        exact absurd (ht.marker e.pairingHash hp (hmarked hp)) hne
      · exact (Function.update_of_ne hlk ..).trans (hmarked hp)
  · refine List.nodup_cons.2 ⟨fun hmem => ?_, h.once⟩
    obtain ⟨e, he, heq⟩ := List.mem_map.1 hmem
    exact ht.fresh e he heq
  · by_cases hp : p = pairingHash
    · subst hp
      exact absurd ((Function.update_self ..).symm.trans hl) nofun
    · exact h.pairing p l ((Function.update_of_ne hp ..).symm.trans hl)

/-! ## The handlers -/

/-- What a request knows after its lookup: the host published the code, which was not taken. -/
structure Looked (k : HostId) (pairingHash : PairingHash) (seen : List Exchange) (w : World) : Prop where
  publisher : w.publisher pairingHash = some k
  untaken : isTaken seen pairingHash = false

theorem looked_of_pairing {k : HostId} (h : Consistent w) (hp : w.pairing pairingHash = some k) :
    Looked k pairingHash w.claimed w := by
  refine ⟨h.pairing _ _ hp, Bool.eq_false_iff.2 fun ht => ?_⟩
  obtain ⟨e, he, rfl⟩ := isTaken_iff.1 ht
  exact absurd (hp.symm.trans (h.spent e he).pairing) nofun

theorem inTurn_of_looked {k : HostId} {host : Host} {n : Nat} (hl : Looked k pairingHash seen w)
    (hc : w.claimable k = some host) (hg : w.inTurn seen (.claim n k pairingHash) = true) : InTurn w k pairingHash := by
  unfold World.inTurn at hg
  dsimp only at hg
  rw [hc, hl.untaken] at hg
  obtain ⟨hfresh, hmarker⟩ : isTaken w.claimed pairingHash = false ∧
      ((w.consumed k = none ∨ w.consumed k = some pairingHash) ∨ w.publishing k ≠ w.consumed k) := by
    simpa using hg
  refine ⟨hl.publisher, fun e he heq => ?_, fun other hp hcons => ?_⟩
  · exact absurd (isTaken_iff.2 ⟨e, he, heq⟩) (Bool.eq_false_iff.1 hfresh)
  · rcases hmarker with (hn | hs) | hne
    · exact absurd (hn.symm.trans hcons) nofun
    · exact Option.some.inj (hcons.symm.trans hs)
    · exact absurd (hp.trans hcons.symm) hne

abbrev rely : Nat → World → World → Prop := fun _ => Later

theorem Looked.later {k : HostId} {w' : World} (h : Looked k pairingHash seen w) (hw : Later w w') :
    Looked k pairingHash seen w' := ⟨hw.publisher _ _ h.publisher, h.untaken⟩

theorem safe_heartbeat (t : Nat) (b : HeartbeatBody) (seen : List Exchange) (w : World) :
    Safe matchmaker orderly Consistent rely t (heartbeat b) Ended seen w := by
  unfold heartbeat
  split
  · trivial
  refine Safe.tryCatch (Q := Ended) (Safe.seq (P := fun _ _ _ => True) ?_ fun _ _ _ _ => trivial) (fun _ _ _ h => h)
    fun _ _ _ => trivial
  refine safe_send fun w _ h => ⟨trivial, fun hg => ?_⟩
  exact ⟨consistent_heartbeat h hg.1, fun _ _ => later_heartbeat hg.1, trivial, trivial⟩

theorem consistent_idleHosts (h : Consistent w) (idleHosts : List HostId) : Consistent { w with idleHosts } :=
  ⟨fun e he => ⟨(h.spent e he).pairing, (h.spent e he).marked⟩, h.once, h.pairing, h.publishing, h.answered⟩

/-- A command that only reads. -/
theorem safe_read {t : Nat} {c : Cmd} (hc : ∀ w, (exec c w).2 = w) (seen : List Exchange) (w : World) :
    Safe matchmaker orderly Consistent rely t (send c) Ended seen w := by
  refine safe_send fun w _ h => ⟨trivial, fun _ => ?_⟩
  rw [show (matchmaker.machine.exec c w).2 = w from hc w]
  exact ⟨h, fun _ _ => .refl w, trivial, trivial⟩

theorem safe_remIdleHosts (t : Nat) (ids : List HostId) (seen : List Exchange) (w : World) :
    Safe matchmaker orderly Consistent rely t (send (.remIdleHosts ids)) Ended seen w := by
  refine safe_send fun w _ h => ⟨trivial, fun _ => ⟨consistent_idleHosts h _, fun _ _ => ?_, trivial, trivial⟩⟩
  exact ⟨fun _ _ h => h, fun _ h => h⟩

theorem safe_pruneStaleIdleHosts (t : Nat) (seen : List Exchange) (w : World) :
    Safe matchmaker orderly Consistent rely t pruneStaleIdleHosts Ended seen w := by
  unfold pruneStaleIdleHosts
  refine Safe.tryCatch (Q := Ended) ?_ (fun _ _ _ h => h) fun _ _ _ => trivial
  refine (safe_read (fun _ => rfl) seen w).seq fun ids seen w _ => ?_
  split
  · trivial
  refine (safe_read (fun _ => rfl) seen w).seq fun ttls seen w _ => ?_
  dsimp only
  split
  · trivial
  · exact safe_remIdleHosts t _ seen w

theorem safe_lookup (n : Nat) (pairingHash : PairingHash) (seen : List Exchange) (w : World) :
    Safe matchmaker orderly Consistent rely n (send (.getPairing pairingHash))
      (Returns fun r seen w => ∀ k, r = some k → Looked k pairingHash seen w) seen w := by
  refine safe_send fun w _ h => ⟨trivial, fun _ => ⟨h, fun _ _ => .refl w, fun k hk => ?_, trivial⟩⟩
  exact looked_of_pairing h hk

theorem safe_claim {n : Nat} {k : HostId} (hl : Looked k pairingHash seen w) :
    Safe matchmaker orderly Consistent rely n (send (.claim n k pairingHash))
      (Returns fun r _ w => ∀ host, r = some host → (⟨n, pairingHash⟩ : Exchange) ∈ w.claimed) seen w := by
  refine safe_send fun w hr h => ⟨trivial, fun hg => ?_⟩
  have hl := hl.later hr
  refine ⟨?_, fun _ _ => later_claim w n k pairingHash, ?_, trivial⟩
  · show Consistent (w.claim n k pairingHash)
    cases hc : w.claimable k with
    | none => exact consistent_unclaimed h hc n pairingHash
    | some host => exact consistent_claim h hc (inTurn_of_looked hl hc hg.2) n
  · intro host hhost
    obtain ⟨host, hc, -⟩ := Option.map_eq_some_iff.1 hhost
    exact mem_claimed hc n

theorem safe_found {n : Nat} (hm : (⟨n, pairingHash⟩ : Exchange) ∈ w.claimed) :
    Safe matchmaker orderly Consistent rely n (Prog.invoke (σ := sig) (.found n pairingHash)) Ended seen w := by
  refine safe_invoke fun w hr h => ⟨?_, fun _ _ => ⟨fun _ _ h => h, fun _ h => h⟩, trivial⟩
  refine ⟨fun e he => ⟨(h.spent e he).pairing, (h.spent e he).marked⟩, h.once, h.pairing, h.publishing, fun e he => ?_⟩
  rcases List.mem_cons.1 he with rfl | he
  · exact hr.claimed _ hm
  · exact h.answered e he

/-- **A request claims a code nobody has claimed, and answers what it has claimed.** -/
theorem safe_exchange (n : Nat) (pairingHash : PairingHash) (seen : List Exchange) (w : World) :
    Safe matchmaker orderly Consistent rely n (exchange n pairingHash) Ended seen w := by
  unfold exchange
  refine (safe_lookup n pairingHash seen w).seq fun requestedHostId seen w hl => ?_
  cases requestedHostId with
  | none => trivial
  | some k =>
    refine (safe_claim (hl k rfl)).seq fun claimed seen w hm => ?_
    cases claimed with
    | none => trivial
    | some host =>
      have hice : Safe matchmaker orderly Consistent rely n (send .getIceServers)
          (Returns fun _ _ w => (⟨n, pairingHash⟩ : Exchange) ∈ w.claimed) seen w :=
        safe_send fun w hr h => ⟨trivial, fun _ => ⟨h, fun _ _ => .refl w, hr.claimed _ (hm host rfl), trivial⟩⟩
      exact hice.seq fun _ _ _ hm => (safe_found hm).seq fun _ _ _ _ => trivial

theorem safe_find (n : Nat) (body : String) (seen : List Exchange) (w : World) :
    Safe matchmaker orderly Consistent rely n (find n body) Ended seen w := by
  unfold find
  split
  · trivial
  refine Safe.tryCatch (Q := Ended) ?_ (fun _ _ _ h => h) fun _ _ _ => trivial
  exact (safe_pruneStaleIdleHosts n seen w).seq fun _ seen w _ => safe_exchange n _ seen w

/-- At most one request is answered with a session for a code. -/
def ExchangedOnce (w : World) : Prop :=
  ∀ n m pairingHash, ⟨n, pairingHash⟩ ∈ w.answered → ⟨m, pairingHash⟩ ∈ w.answered → n = m

theorem exchangedOnce_of_consistent (h : Consistent w) : ExchangedOnce w := by
  intro n m pairingHash hn hm
  have := List.inj_on_of_nodup_map h.once (h.answered _ hn) (h.answered _ hm) rfl
  exact congrArg Exchange.request this

/-- **Where every claim is in turn, a pairing code is exchanged at most once**, whatever requests and heartbeats do. -/
theorem exchangedOnce_of_reach (p : Pool sig World (List Exchange)) (h : Reach matchmaker orderly {} p) :
    ExchangedOnce p.world := by
  have hstart : Consistent {} := ⟨nofun, List.nodup_nil, nofun, nofun, nofun⟩
  have hgood : Good matchmaker orderly Consistent rely {} p := by
    refine good_of_reach (fun _ => .refl) (fun _ _ _ _ => .trans) ?_ (fun e _ _ _ => e.elim) hstart h
    rintro n q (⟨body, hq⟩ | ⟨b, hq⟩) w _ _
    · rw [hq]
      exact (safe_find n body [] w).discard
    · rw [hq]
      exact (safe_heartbeat n b [] w).discard
  exact exchangedOnce_of_consistent hgood.inv

section twoSlots

def code : String := "00112233445566778899aabbccddeeff"

/-- A heartbeat of a host with two slots. -/
def twoSlots : HeartbeatBody :=
  { hostId := ⟨1⟩, roomId := "0123456789abcdef0123456789abcdef", pairingCode := code, capacity := some 2 }

def turns (i n : Nat) : List (Choice sig Empty) := List.replicate n (.go i)

/-- The host publishes its code, and two requests present it. -/
def twoRequests : List (Choice sig Empty) :=
  [.start (heartbeat twoSlots).discard, .go 0, .start (find 1 code).discard, .start (find 2 code).discard]

/-- One request after the other. -/
def oneByOne : List (Choice sig Empty) := twoRequests ++ turns 1 6 ++ turns 2 6

/-- Both look the code up before either claims the host. -/
def bothLookFirst : List (Choice sig Empty) := twoRequests ++ turns 1 3 ++ turns 2 3 ++ turns 1 3 ++ turns 2 3

theorem exchangedOnce_oneByOne : ExchangedOnce (Pool.play matchmaker oneByOne ⟨{}, []⟩).world :=
  exchangedOnce_of_reach _ (reach_play matchmaker orderly oneByOne ⟨{}, []⟩
    ⟨.inr ⟨_, rfl⟩, .inl ⟨_, rfl⟩, .inl ⟨_, rfl⟩, trivial⟩ (by decide +kernel))

/-- **Two lookups before the first claim, and the code is exchanged twice.** -/
theorem not_exchangedOnce_bothLookFirst :
    ¬∀ p : Pool sig World (List Exchange), Reach matchmaker published {} p → ExchangedOnce p.world := by
  intro h
  have hreach : Reach matchmaker published {} (Pool.play matchmaker bothLookFirst ⟨{}, []⟩) :=
    reach_play matchmaker published bothLookFirst ⟨{}, []⟩
      ⟨.inr ⟨_, rfl⟩, .inl ⟨_, rfl⟩, .inl ⟨_, rfl⟩, trivial⟩ (by decide +kernel)
  have h₁ : (⟨1, sha256 code⟩ : Exchange) ∈ (Pool.play matchmaker bothLookFirst ⟨{}, []⟩).world.answered := by
    decide +kernel
  have h₂ : (⟨2, sha256 code⟩ : Exchange) ∈ (Pool.play matchmaker bothLookFirst ⟨{}, []⟩).world.answered := by
    decide +kernel
  exact absurd (h _ hreach 1 2 _ h₁ h₂) (by decide)

end twoSlots

end Pairing
end CloudGaming
