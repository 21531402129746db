import CloudGaming.Market.System
/-!
# Discipline — what interleaved handlers keep when no update is lost

No handler holds a lock on a session record: each reads it, works on its copy and stores the copy.  `freshWrites` is the
discipline that no handler stores a record another handler stored since it read it; `lockOk` is the discipline on the
player lock.  Neither is enforced by the code.  `RecordInv` and `LockInv` are what the two keep.
-/
namespace CloudGaming
namespace Market

open Async Redis

/-- The states in which a session occupies its player. -/
def SessionState.live : SessionState → Bool
  | reserved | preparing | ready | active => true
  | _ => false

/-- The records stored, newest first. -/
def records : List Obs → List Session := List.filterMap fun o => match o with
  | .wrote s => some s
  | _ => none

/-- Newest first: a session stored as terminal is not stored in another state later. -/
def Absorbing : List Obs → Prop
  | [] => True
  | .wrote s :: tr => (∀ s₀ ∈ records tr, s₀.id = s.id → s₀.state.terminal = true → s.state = s₀.state) ∧ Absorbing tr
  | _ :: tr => Absorbing tr

instance decidableAbsorbing : (tr : List Obs) → Decidable (Absorbing tr)
  | [] => isTrue trivial
  | .wrote s :: tr =>
    have := decidableAbsorbing tr
    inferInstanceAs (Decidable ((∀ s₀ ∈ records tr, s₀.id = s.id → s₀.state.terminal = true → s.state = s₀.state) ∧
      Absorbing tr))
  | .claimed .. :: tr | .released .. :: tr | .prepared .. :: tr | .heard .. :: tr | .presence .. :: tr =>
    decidableAbsorbing tr

/-- **No lost update**: a session record is stored only by a thread that has seen its newest version. -/
def freshWrites : Guard sig World Seen :=
  fun c l w => ∀ id ∈ stores w c, l.version id = written w.trace id

/-- **The player lock**: it is deleted only while it names what the thread read, and taken only when no session of the
player was last stored in a live state. -/
def lockOk : Guard sig World Seen := fun c l w =>
  match c with
  | .delPlayer p => w.player p = none ∨ w.player p = l.holder p
  | .lockPlayer p _ _ => w.player p = none →
      ∀ s ∈ records w.trace, newest w.trace s.id = some s → s.playerId = p → s.state.live = false
  | _ => True

instance decidableFreshWrites (c : Cmd) (l : Seen) (w : World) : Decidable (freshWrites c l w) :=
  inferInstanceAs (Decidable (∀ id ∈ stores w c, l.version id = written w.trace id))

instance decidableLockOk (l : Seen) (w : World) : (c : Cmd) → Decidable (lockOk c l w)
  | .delPlayer p => inferInstanceAs (Decidable (w.player p = none ∨ w.player p = l.holder p))
  | .lockPlayer p _ _ => inferInstanceAs (Decidable (w.player p = none →
      ∀ s ∈ records w.trace, newest w.trace s.id = some s → s.playerId = p → s.state.live = false))
  | .getSession _ | .setSession _ | .pushEvent .. | .expireEvents .. | .getLease _ | .getPlayer _ | .idleHosts _
  | .getHosts _ | .claim .. | .release .. | .addPrepareDeadline .. | .remPrepareDeadline _ | .duePrepareDeadlines _
  | .addSessionDeadline .. | .remSessionDeadline _ | .dueSessionDeadlines _ | .addDisconnectDeadline ..
  | .remDisconnectDeadline _ | .dueDisconnectDeadlines _ | .addGames _ | .presence .. => isTrue trivial

/-- `freshWrites`, and `lockOk` where `L` asks for it. -/
def disciplined (L : Prop) : Guard sig World Seen := fun c l w => freshWrites c l w ∧ (L → lockOk c l w)

/-! ## The history -/

theorem newest_eq_none {tr : List Obs} {id : SessionId} : newest tr id = none ↔ written tr id = 0 := by
  induction tr with
  | nil => simp [newest, written]
  | cons o tr ih =>
    cases o <;> simp only [newest, written] <;> first
      | exact ih
      | (split
         · simp
         · rw [ih]; omega)

theorem newest_id {tr : List Obs} {id : SessionId} {s : Session} (h : newest tr id = some s) : s.id = id := by
  induction tr with
  | nil => cases h
  | cons o tr ih =>
    cases o <;> simp only [newest] at h <;> first
      | exact ih h
      | (split at h
         · cases h; assumption
         · exact ih h)

theorem newest_mem {tr : List Obs} {id : SessionId} {s : Session} (h : newest tr id = some s) : .wrote s ∈ tr := by
  induction tr with
  | nil => cases h
  | cons o tr ih =>
    cases o <;> simp only [newest] at h <;> first
      | exact List.mem_cons_of_mem _ (ih h)
      | (split at h
         · cases h; exact List.mem_cons_self
         · exact List.mem_cons_of_mem _ (ih h))

theorem mem_records {tr : List Obs} {s : Session} : s ∈ records tr ↔ .wrote s ∈ tr := by
  unfold records
  rw [List.mem_filterMap]
  refine ⟨fun ⟨o, ho, hs⟩ => ?_, fun h => ⟨_, h, rfl⟩⟩
  cases o <;> cases hs
  exact ho

theorem newest_mem_records {tr : List Obs} {id : SessionId} {s : Session} (h : newest tr id = some s) : s ∈ records tr :=
  mem_records.2 (newest_mem h)

theorem newest_append {ext tr : List Obs} {id : SessionId} (h : written ext id = 0) :
    newest (ext ++ tr) id = newest tr id := by
  induction ext with
  | nil => rfl
  | cons o ext ih =>
    cases o <;> simp only [written] at h <;> simp only [List.cons_append, newest] <;> first
      | exact ih h
      | (split at h
         · omega
         · rename_i hne; rw [if_neg hne]; exact ih (by omega))

theorem written_append (ext tr : List Obs) (id : SessionId) :
    written (ext ++ tr) id = written ext id + written tr id := by
  induction ext with
  | nil => simp [written]
  | cons o ext ih => cases o <;> simp only [List.cons_append, written, ih]; omega

/-- Once a session is stored as terminal in an absorbing history it is last stored so. -/
theorem Absorbing.newest_eq {tr : List Obs} (h : Absorbing tr) {s : Session} (hs : .wrote s ∈ tr)
    (ht : s.state.terminal = true) : ∃ s', newest tr s.id = some s' ∧ s'.state = s.state := by
  induction tr with
  | nil => cases hs
  | cons o tr ih =>
    cases o with
    | wrote s' =>
      unfold Absorbing at h
      unfold newest
      rcases List.mem_cons.1 hs with heq | hs
      · cases heq; exact ⟨s, by simp, rfl⟩
      · by_cases hid : s'.id = s.id
        · rw [if_pos hid]; exact ⟨s', rfl, h.1 s (mem_records.2 hs) hid.symm ht⟩
        · rw [if_neg hid]; exact ih h.2 hs
    | _ =>
      unfold newest
      exact ih h (by simpa using hs)

/-! ## The invariants -/

/-- What fresh writes keep: a leased session was last stored on the host that holds the lease. -/
structure RecordInv (w : World) : Prop where
  lease : ∀ h id, w.lease h = some id → ∃ s, newest w.trace id = some s ∧ s.hostId = some h
  stored : ∀ id s, w.session id = some s → newest w.trace id = some s
  state : ∀ id s, newest w.trace id = some s → s.state ≠ .allocating
  absorbing : Absorbing w.trace

/-- What the discipline of the player lock keeps: a player has at most one live session, and no other session holds its
player's lock meanwhile. -/
structure LockInv (w : World) : Prop where
  alone : ∀ id s id', newest w.trace id = some s → s.state.live = true → w.player s.playerId = some id' → id' = id
  single : ∀ id id' s s', newest w.trace id = some s → newest w.trace id' = some s' → s.state.live = true →
    s'.state.live = true → s.playerId = s'.playerId → id = id'
  owner : ∀ p id s, w.player p = some id → newest w.trace id = some s → s.playerId = p

def Inv (L : Prop) (w : World) : Prop := RecordInv w ∧ (L → LockInv w)

/-- What thread `t` relies on: a record nobody stores keeps its version and gains no lease, and nobody stores or locks
the session that only `t` may create. -/
structure Rely (L : Prop) (t : Nat) (w w' : World) : Prop where
  trace : ∃ ext, w'.trace = ext ++ w.trace ∧
    ∀ id, written ext id = 0 → ∀ h, w'.lease h = some id → w.lease h = some id
  own : L → written w.trace ⟨t⟩ = 0 → written w'.trace ⟨t⟩ = 0 ∧ ∀ p, w'.player p = some ⟨t⟩ ↔ w.player p = some ⟨t⟩

theorem Rely.refl (L : Prop) (t : Nat) (w : World) : Rely L t w w where
  trace := ⟨[], rfl, fun _ _ _ h => h⟩
  own _ h := ⟨h, fun _ => Iff.rfl⟩

theorem Rely.trans {L : Prop} {t : Nat} {a b c : World} (h : Rely L t a b) (h' : Rely L t b c) : Rely L t a c where
  trace := by
    obtain ⟨e, he, hl⟩ := h.trace
    obtain ⟨e', he', hl'⟩ := h'.trace
    refine ⟨e' ++ e, by rw [he', he, List.append_assoc], fun id hw k hk => ?_⟩
    rw [written_append] at hw
    exact hl id (by omega) k (hl' id (by omega) k hk)
  own hL h0 := by
    obtain ⟨h1, hp⟩ := h.own hL h0
    obtain ⟨h2, hp'⟩ := h'.own hL h1
    exact ⟨h2, fun p => (hp' p).trans (hp p)⟩

theorem Rely.written_le {L : Prop} {t : Nat} {w w' : World} (h : Rely L t w w') (id : SessionId) :
    written w.trace id ≤ written w'.trace id := by
  obtain ⟨e, he, -⟩ := h.trace
  rw [he, written_append]; omega

/-- A record whose version did not change is the record it was, and gained no lease. -/
theorem Rely.same {L : Prop} {t : Nat} {w w' : World} (h : Rely L t w w') {id : SessionId}
    (hv : written w'.trace id = written w.trace id) :
    newest w'.trace id = newest w.trace id ∧ ∀ k, w'.lease k = some id → w.lease k = some id := by
  obtain ⟨e, he, hl⟩ := h.trace
  rw [he, written_append] at hv
  have h0 : written e id = 0 := by omega
  exact ⟨by rw [he, newest_append h0], hl id h0⟩

/-- A change that stores no record and deletes or takes no player lock. -/
structure Quiet (L : Prop) (w w' : World) : Prop where
  trace : ∃ ext, w'.trace = ext ++ w.trace ∧ (∀ id, written ext id = 0) ∧
    (Absorbing w.trace → Absorbing (ext ++ w.trace))
  lease : ∀ h id, w'.lease h = some id → w.lease h = some id
  session : ∀ id s, w'.session id = some s → w.session id = some s
  player : L → ∀ p, w'.player p = w.player p

/-- A change that leaves the history and the locks alone. -/
theorem Quiet.of_eq {L : Prop} {w w' : World} (ht : w'.trace = w.trace)
    (hl : ∀ h id, w'.lease h = some id → w.lease h = some id)
    (hs : ∀ id s, w'.session id = some s → w.session id = some s) (hp : L → ∀ p, w'.player p = w.player p) :
    Quiet L w w' where
  trace := ⟨[], ht, fun _ => rfl, id⟩
  lease := hl
  session := hs
  player := hp

theorem Quiet.written_eq {L : Prop} {w w' : World} (h : Quiet L w w') (id : SessionId) :
    written w'.trace id = written w.trace id := by
  obtain ⟨e, he, hw, -⟩ := h.trace
  rw [he, written_append, hw, Nat.zero_add]

theorem Quiet.newest_eq {L : Prop} {w w' : World} (h : Quiet L w w') (id : SessionId) :
    newest w'.trace id = newest w.trace id := by
  obtain ⟨e, he, hw, -⟩ := h.trace
  rw [he, newest_append (hw id)]

theorem Quiet.rely {L : Prop} {w w' : World} (h : Quiet L w w') (t : Nat) : Rely L t w w' where
  trace := by
    obtain ⟨e, he, -⟩ := h.trace
    exact ⟨e, he, fun id _ k => h.lease k id⟩
  own hL h0 := ⟨by rw [h.written_eq, h0], fun p => by rw [h.player hL]⟩

theorem Quiet.inv {L : Prop} {w w' : World} (h : Quiet L w w') (hI : Inv L w) : Inv L w' where
  left :=
    { lease := fun k id hk => by rw [h.newest_eq]; exact hI.1.lease k id (h.lease k id hk)
      stored := fun id s hs => by rw [h.newest_eq]; exact hI.1.stored id s (h.session id s hs)
      state := fun id s hs => hI.1.state id s (by rwa [h.newest_eq] at hs)
      absorbing := by
        obtain ⟨e, he, -, ha⟩ := h.trace
        rw [he]; exact ha hI.1.absorbing }
  right hL :=
    { alone := fun id s id' hs hl hp => (hI.2 hL).alone id s id' (by rwa [h.newest_eq] at hs) hl (by rwa [h.player hL] at hp)
      single := fun id id' s s' hs hs' => (hI.2 hL).single id id' s s' (by rwa [h.newest_eq] at hs)
        (by rwa [h.newest_eq] at hs')
      owner := fun p id s hp hs => (hI.2 hL).owner p id s (by rwa [h.player hL] at hp) (by rwa [h.newest_eq] at hs) }

end Market
end CloudGaming
