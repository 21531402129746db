import CloudGaming.Pairing.Store
/-!
# Capacity — the slots of a host and the reservations counted against them

A heartbeat stores the slots a host reports, less the reservations; a claim moves one slot over to the reservations.
The record and the counter expire on their own.  For a host that keeps reporting one capacity the two never exceed it
together (`capacity_after`).
-/
namespace CloudGaming
namespace Pairing

open Async
open Market (HostId)
open Function (update)

/-- A heartbeat, a claim, or the expiry of a key. -/
inductive Step where
  | heartbeat (b : HeartbeatBody)
  | claim (n : Nat) (h : HostId) (pairingHash : PairingHash)
  | expireHost (h : HostId)
  | expireReservations (h : HostId)
  | expirePairing (pairingHash : PairingHash)
  | expireRoom (h : HostId)
  | expireConsumed (h : HostId)

def World.step (w : World) : Step → World
  | .heartbeat b => ((Pairing.heartbeat b).run machine w).2
  | .claim n h pairingHash => (exec (.claim n h pairingHash) w).2
  | .expireHost h => { w with hosts := update w.hosts h none }
  | .expireReservations h => { w with reservations := update w.reservations h 0 }
  | .expirePairing pairingHash => { w with pairing := update w.pairing pairingHash none }
  | .expireRoom h => { w with hostRoom := update w.hostRoom h none }
  | .expireConsumed h => { w with consumed := update w.consumed h none }

/-- The world after some steps, from the empty store. -/
def World.after (steps : List Step) : World := steps.foldl World.step {}

/-- The step is a claim of the host that takes a slot. -/
def World.takes (w : World) (h : HostId) : Step → Bool
  | .claim _ k _ => k = h && (w.claimable h).isSome
  | _ => false

/-- How many claims of the host succeed along some steps. -/
def claims (h : HostId) : World → List Step → Nat
  | _, [] => 0
  | w, i :: steps => (if w.takes h i then 1 else 0) + claims h (w.step i) steps

/-- Every heartbeat of the host that is accepted reports the capacity. -/
def Reports (h : HostId) (c : Nat) (steps : List Step) : Prop :=
  ∀ b, .heartbeat b ∈ steps → b.accepted = true → b.hostId = h → b.host.capacity = c

/-! ## One step -/

section step
variable {w : World} {h : HostId} {c : Nat}

/-- `math.max(0, math.min(capacity, available - reserved))`. -/
theorem slots_eq (w : World) (host : Host) :
    (w.slots host : Int) = max 0 (min (host.capacity : Int) (host.availableSlots - w.reservations host.hostId)) := by
  unfold World.slots
  omega

theorem step_heartbeat (b : HeartbeatBody) : w.step (.heartbeat b) =
    if b.accepted = true then w.heartbeat b.host (sha256 (toLowerCase b.pairingCode)) else w := by
  change ((Pairing.heartbeat b).run machine w).2 = _
  unfold Pairing.heartbeat
  by_cases hb : b.accepted = true
  · rw [if_neg (by simp [hb]), if_pos hb]
    rfl
  · rw [if_pos (by simpa using hb), if_neg hb]
    rfl

/-- A host reports no more slots than its capacity. -/
theorem availableSlots_le (b : HeartbeatBody) : b.host.availableSlots ≤ b.host.capacity := by
  unfold HeartbeatBody.host
  dsimp only
  omega

theorem claim_of_some {host : Host} (hc : w.claimable h = some host) (n : Nat) (pairingHash : PairingHash) :
    (w.claim n h pairingHash).hosts = update w.hosts h (some (World.claimedHost host)) ∧
      (w.claim n h pairingHash).reservations = update w.reservations h (w.reservations h + 1) := by
  unfold World.claim
  rw [hc]
  exact ⟨rfl, rfl⟩

theorem claim_of_none (hc : w.claimable h = none) (n : Nat) (pairingHash : PairingHash) :
    (w.claim n h pairingHash).hosts = w.hosts ∧ (w.claim n h pairingHash).reservations = w.reservations := by
  unfold World.claim
  rw [hc]
  exact ⟨rfl, rfl⟩

/-- **The reservations and the slots left are within the capacity.** -/
structure World.Within (w : World) (h : HostId) (c : Nat) : Prop where
  reservations : w.reservations h ≤ c
  slots : ∀ host, w.hosts h = some host → w.reservations h + host.availableSlots ≤ c

theorem World.Within.congr {w' : World} (hw : w.Within h c) (hh : w'.hosts h = w.hosts h)
    (hr : w'.reservations h = w.reservations h) : w'.Within h c where
  reservations := by
    rw [hr]
    exact hw.reservations
  slots host he := by
    rw [hr]
    exact hw.slots host (hh ▸ he)

/-- A heartbeat with the capacity leaves room for the reservations. -/
theorem within_heartbeat (hw : w.Within h c) (host : Host) (pairingHash : PairingHash)
    (hcap : host.hostId = h → host.capacity = c) (hav : host.availableSlots ≤ host.capacity) :
    (w.heartbeat host pairingHash).Within h c := by
  by_cases hid : host.hostId = h
  · refine ⟨hw.reservations, fun stored hs => ?_⟩
    have hres := hw.reservations
    have hcap := hcap hid
    unfold World.heartbeat at hs ⊢
    dsimp only at hs ⊢
    rw [hid, Function.update_self, Option.some.injEq] at hs
    subst hs
    unfold World.slots
    rw [hid]
    dsimp only
    omega
  · refine hw.congr ?_ rfl
    unfold World.heartbeat
    dsimp only
    rw [Function.update_of_ne (Ne.symm hid)]

/-- A claim takes its reservation from the slots. -/
theorem within_claim (hw : w.Within h c) (n : Nat) (k : HostId) (pairingHash : PairingHash) :
    (w.claim n k pairingHash).Within h c := by
  cases hc : w.claimable k with
  | none =>
    obtain ⟨hh, hr⟩ := claim_of_none hc n pairingHash
    exact hw.congr (congrFun hh h) (congrFun hr h)
  | some host =>
    obtain ⟨hh, hr⟩ := claim_of_some hc n pairingHash
    obtain ⟨hstored, hpos⟩ := Option.filter_eq_some_iff.1 hc
    rw [decide_eq_true_eq] at hpos
    by_cases hk : k = h
    · subst hk
      have hsum := hw.slots host hstored
      constructor
      · rw [hr, Function.update_self]
        omega
      · intro after ha
        rw [hh, Function.update_self, Option.some.injEq] at ha
        subst ha
        rw [hr, Function.update_self]
        unfold World.claimedHost
        dsimp only
        omega
    · apply hw.congr
      · rw [hh, Function.update_of_ne (Ne.symm hk)]
      · rw [hr, Function.update_of_ne (Ne.symm hk)]

theorem within_step (hw : w.Within h c) (i : Step)
    (hi : ∀ b, i = .heartbeat b → b.accepted = true → b.hostId = h → b.host.capacity = c) : (w.step i).Within h c := by
  cases i with
  | heartbeat b =>
    rw [step_heartbeat]
    split
    · rename_i hb
      exact within_heartbeat hw b.host _ (hi b rfl hb) (availableSlots_le b)
    · exact hw
  | claim n k pairingHash => exact within_claim hw n k pairingHash
  | expireHost k =>
    refine ⟨hw.reservations, fun host hs => hw.slots host ?_⟩
    unfold World.step at hs
    dsimp only at hs
    by_cases hk : h = k
    · subst hk
      rw [Function.update_self] at hs
      cases hs
    · rwa [Function.update_of_ne hk] at hs
  | expireReservations k =>
    by_cases hk : h = k
    · subst hk
      have hzero : (w.step (.expireReservations h)).reservations h = 0 := Function.update_self ..
      constructor
      · rw [hzero]
        omega
      · intro host hs
        have := hw.slots host hs
        rw [hzero]
        omega
    · exact hw.congr rfl (Function.update_of_ne hk _ _)
  | expirePairing _ | expireRoom _ | expireConsumed _ => exact hw.congr rfl rfl

/-- **The counter counts the claims that succeed**, until it expires. -/
theorem reservations_step {i : Step} (hi : i ≠ .expireReservations h) :
    (w.step i).reservations h = w.reservations h + if w.takes h i then 1 else 0 := by
  cases i with
  | heartbeat b =>
    rw [step_heartbeat]
    split <;> rfl
  | claim n k pairingHash =>
    change (w.claim n k pairingHash).reservations h = _
    unfold World.takes
    dsimp only
    by_cases hk : k = h
    · subst hk
      cases hc : w.claimable k with
      | none => simp [(claim_of_none hc n pairingHash).2]
      | some host => simp [(claim_of_some hc n pairingHash).2]
    · cases hc : w.claimable k with
      | none => simp [(claim_of_none hc n pairingHash).2, hk]
      | some host => simp [(claim_of_some hc n pairingHash).2, hk, Function.update_of_ne (Ne.symm hk)]
  | expireReservations k =>
    have hk : h ≠ k := fun he => hi (he ▸ rfl)
    exact Function.update_of_ne hk _ _
  | expireHost _ | expirePairing _ | expireRoom _ | expireConsumed _ => rfl

end step

/-! ## Runs -/

theorem within_run {h : HostId} {c : Nat} : ∀ (steps : List Step) (w : World), w.Within h c → Reports h c steps →
    (steps.foldl World.step w).Within h c
  | [], _, hw, _ => hw
  | i :: steps, w, hw, hr =>
    within_run steps (w.step i)
      (within_step hw i fun b hb => hr b (hb ▸ List.mem_cons_self))
      fun b hb => hr b (List.mem_cons_of_mem i hb)

theorem reservations_run {h : HostId} : ∀ (steps : List Step) (w : World), .expireReservations h ∉ steps →
    (steps.foldl World.step w).reservations h = w.reservations h + claims h w steps
  | [], _, _ => rfl
  | i :: steps, w, hn => by
    rw [List.mem_cons, not_or] at hn
    rw [List.foldl_cons, reservations_run steps (w.step i) hn.2, reservations_step (Ne.symm hn.1), claims, Nat.add_assoc]

/-- **A host that keeps reporting one capacity is never overbooked**: after every step the slots its record has left and
the reservations counted are within the capacity together, and between two expiries of the counter no more claims
succeed than the capacity. -/
theorem capacity_after (h : HostId) (c : Nat) (steps : List Step) (hc : Reports h c steps) :
    (∀ host, (World.after steps).hosts h = some host →
      0 ≤ host.availableSlots ∧ host.availableSlots ≤ c ∧
        (World.after steps).reservations h + host.availableSlots ≤ c) ∧
    ∀ before between rest, steps = before ++ between ++ rest → .expireReservations h ∉ between →
      claims h (World.after before) between ≤ c := by
  have hinit : ({} : World).Within h c := ⟨Nat.zero_le c, fun host hs => by cases hs⟩
  constructor
  · intro host hs
    have := (within_run steps {} hinit hc).slots host hs
    unfold World.after
    omega
  · rintro before between rest rfl hn
    have hsome : Reports h c (before ++ between) := fun b hb => hc b (List.mem_append_left rest hb)
    have hbound := (within_run (before ++ between) {} hinit hsome).reservations
    rw [List.foldl_append, reservations_run between _ hn] at hbound
    unfold World.after
    omega

/-- A heartbeat of a host with two slots. -/
def twoSlotHost : HeartbeatBody where
  hostId := ⟨1⟩
  roomId := "00000000000000000000000000000001"
  pairingCode := "0123456789abcdef0123456789abcdef"
  capacity := some 2

/-- Both slots are claimed, the record expires and is reported anew, and a third claim finds no slot. -/
def bothTaken : List Step :=
  [.heartbeat twoSlotHost, .claim 0 ⟨1⟩ (sha256 "a"), .claim 1 ⟨1⟩ (sha256 "b"), .expireHost ⟨1⟩, .heartbeat twoSlotHost,
    .claim 2 ⟨1⟩ (sha256 "c")]

example : claims ⟨1⟩ {} bothTaken = 2 := by decide +kernel

theorem capacity_bothTaken :
    (∀ host, (World.after bothTaken).hosts ⟨1⟩ = some host →
      0 ≤ host.availableSlots ∧ host.availableSlots ≤ 2 ∧
        (World.after bothTaken).reservations ⟨1⟩ + host.availableSlots ≤ 2) ∧
    ∀ before between rest, bothTaken = before ++ between ++ rest → .expireReservations ⟨1⟩ ∉ between →
      claims ⟨1⟩ (World.after before) between ≤ 2 := by
  refine capacity_after ⟨1⟩ 2 bothTaken fun b hb _ _ => ?_
  simp only [bothTaken, List.mem_cons, Step.heartbeat.injEq, reduceCtorEq, List.not_mem_nil, or_false, false_or] at hb
  rcases hb with rfl | rfl <;> rfl

end Pairing
end CloudGaming
