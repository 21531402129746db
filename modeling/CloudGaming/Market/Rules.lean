import CloudGaming.Market.Discipline
/-!
# Rules — what each command keeps under the discipline

`Holds` is what a thread knows of the session it works on while the version it saw is the newest: the record's player,
that it is not terminal, and which host may hold its lease.  Every rule below is about one command; the handlers are
composed from them in `Interleaved`.
-/
namespace CloudGaming
namespace Market

open Async Redis

variable {L : Prop} {t : Nat} {may : Ambient → Prop}

/-- Commands that store no record, touch no player lock and leave the seen versions alone. -/
def Cmd.quiet : Cmd → Bool
  | getSession _ | setSession _ | claim .. | lockPlayer .. | delPlayer _ => false
  | _ => true

theorem quiet_release (h : HostId) (id : SessionId) (w : World) : Quiet L w (w.release h id) where
  trace := by
    unfold World.release
    split
    · split <;> exact ⟨[.released h id], rfl, fun _ => rfl, fun ha => ha⟩
    · exact ⟨[], rfl, fun _ => rfl, fun ha => ha⟩
  lease _ _ hl := lease_of_release w hl
  session id' s hs := by rwa [World.session, (release_frame w h id).1] at hs
  player _ p := by rw [World.player, (release_frame w h id).2.1]; rfl

theorem quiet_exec {c : Cmd} (hc : c.quiet = true) (w : World) : Quiet L w (exec c w).2 := by
  cases c with
  | release h id =>
    cases h with
    | none => exact .of_eq rfl (fun _ _ h => h) (fun _ _ h => h) (fun _ _ => rfl)
    | some h => exact quiet_release h id w
  | getSession _ | setSession _ | claim _ _ | lockPlayer _ _ _ | delPlayer _ => cases hc
  | _ => exact .of_eq rfl (fun _ _ h => h) (fun _ _ h => h) (fun _ _ => rfl)

theorem note_quiet {c : Cmd} (hc : c.quiet = true) (w : World) (l : Seen) : (noteSeen c w l).version = l.version := by
  cases c <;> first | rfl | cases hc

theorem quiet_dispatch (h : HostId) (c : Command) (w : World) : Quiet L w (w.dispatch h c) where
  trace := by
    cases c with
    | prepare id _ _ _ _ _ => exact ⟨[.prepared h id], rfl, fun _ => rfl, fun ha => ha⟩
    | stop => exact ⟨[], rfl, fun _ => rfl, fun ha => ha⟩
  lease _ _ hl := by cases c <;> exact hl
  session _ _ hs := by cases c <;> exact hs
  player _ _ := by cases c <;> rfl

theorem quiet_call (o : Call) (w : World) : Quiet L w (call o w).2 := by
  have hrefl : Quiet L w w := .of_eq rfl (fun _ _ h => h) (fun _ _ h => h) (fun _ _ => rfl)
  cases o with
  | dateNow | connected => exact hrefl
  | send h c =>
    cases h with
    | none => exact hrefl
    | some h =>
      simp only [call]
      split
      · exact quiet_dispatch h c w
      · exact hrefl

theorem quiet_ambient {e : Ambient} (he : L → ∀ p, e ≠ .expirePlayer p) (w : World) : Quiet L w (w.ambient e) := by
  have del {κ : Type} {β : κ → Type} [DecidableEq κ] (m : Keys κ β) (k k' : κ) (v : β k')
      (h : (m.del k).get k' = some v) : m.get k' = some v := by
    by_cases hk : k' = k
    · subst hk; rw [Keys.get_del_self] at h; cases h
    · rwa [Keys.get_del_of_ne m hk] at h
  cases e with
  | expireLease h => exact .of_eq rfl (fun _ _ hl => del _ _ _ _ hl) (fun _ _ h => h) (fun _ _ => rfl)
  | expireSession id =>
    refine .of_eq rfl (fun _ _ h => h) (fun id' s hs => ?_) (fun _ _ => rfl)
    obtain ⟨v, hv, rfl⟩ := Option.map_eq_some_iff.1 hs
    exact Option.map_eq_some_iff.2 ⟨v, del _ _ _ _ hv, rfl⟩
  | expirePlayer p => exact .of_eq rfl (fun _ _ h => h) (fun _ _ h => h) (fun hL => absurd rfl (he hL p))
  | reorder g ids =>
    unfold World.ambient
    dsimp only
    split <;> exact .of_eq rfl (fun _ _ h => h) (fun _ _ h => h) (fun _ _ => rfl)
  | _ => exact .of_eq rfl (fun _ _ h => h) (fun _ _ h => h) (fun _ _ => rfl)

/-! ## What a thread knows -/

/-- A thread works on session `s`.  While the version it saw is the newest, the record is not terminal, belongs to the
player, is live if `live` says so, and no host but `host` holds its lease. -/
structure Holds (s : Session) (host : Option HostId) (live : Bool) (l : Seen) (w : World) : Prop where
  seen : l.version s.id ≤ written w.trace s.id
  record : l.version s.id = written w.trace s.id → ∀ s₀, newest w.trace s.id = some s₀ →
    s₀.state.terminal = false ∧ s₀.playerId = s.playerId ∧ (live = true → s₀.state.live = true)
  lease : l.version s.id = written w.trace s.id → ∀ h, w.lease h = some s.id → host = some h

/-- The session is stored already, or it is the one thread `t` creates and holds the player's lock. -/
def Own (L : Prop) (t : Nat) (s : Session) (w : World) : Prop :=
  L → 0 < written w.trace s.id ∨ s.id = ⟨t⟩ ∧ ∀ p, w.player p = some s.id ↔ p = s.playerId

/-- The session is stored already, or it is the one thread `t` creates. -/
def Mine (t : Nat) (s : Session) (w : World) : Prop := 0 < written w.trace s.id ∨ s.id = ⟨t⟩

/-- What interference and quiet commands leave true. -/
structure Stable (L : Prop) (t : Nat) (P : Seen → World → Prop) : Prop where
  rely : ∀ l w w', P l w → Rely L t w w' → P l w'
  quiet : ∀ l l' w w', P l w → l'.version = l.version → Quiet L w w' → P l' w'

theorem stable_holds (s : Session) (host : Option HostId) (live : Bool) : Stable L t (Holds s host live) where
  rely l w w' h hr := by
    have hle := hr.written_le s.id
    have hs := h.seen
    have back : l.version s.id = written w'.trace s.id →
        l.version s.id = written w.trace s.id ∧ written w'.trace s.id = written w.trace s.id := fun hv => by omega
    refine ⟨by omega, fun hv s₀ h₀ => ?_, fun hv k hk => ?_⟩
    · obtain ⟨hv', hw⟩ := back hv
      exact h.record hv' s₀ (by rwa [(hr.same hw).1] at h₀)
    · obtain ⟨hv', hw⟩ := back hv
      exact h.lease hv' k ((hr.same hw).2 k hk)
  quiet l l' w w' h hv hq := by
    refine ⟨by rw [hv, hq.written_eq]; exact h.seen, fun hc s₀ h₀ => ?_, fun hc k hk => ?_⟩
    · rw [hv, hq.written_eq] at hc; exact h.record hc s₀ (by rwa [hq.newest_eq] at h₀)
    · rw [hv, hq.written_eq] at hc; exact h.lease hc k (hq.lease k s.id hk)

theorem stable_own (s : Session) : Stable L t (fun _ => Own L t s) where
  rely l w w' h hr hL := by
    rcases h hL with h | ⟨hid, hp⟩
    · exact .inl (Nat.lt_of_lt_of_le h (hr.written_le s.id))
    · by_cases h0 : written w.trace ⟨t⟩ = 0
      · obtain ⟨-, hp'⟩ := hr.own hL h0
        exact .inr ⟨hid, fun p => by rw [hid, hp', ← hid]; exact hp p⟩
      · have := hr.written_le ⟨t⟩
        exact .inl (by rw [hid]; omega)
  quiet l l' w w' h _ hq hL := by
    rcases h hL with h | ⟨hid, hp⟩
    · exact .inl (by rwa [hq.written_eq])
    · exact .inr ⟨hid, fun p => by rw [hq.player hL]; exact hp p⟩

theorem stable_mine (s : Session) : Stable L t (fun _ => Mine t s) where
  rely _ w w' h hr := h.imp (fun h => Nat.lt_of_lt_of_le h (hr.written_le s.id)) id
  quiet _ _ w w' h _ hq := h.imp (fun h => by rwa [hq.written_eq]) id

theorem stable_stored (id : SessionId) : Stable L t (fun _ w => 0 < written w.trace id) where
  rely _ w w' h hr := Nat.lt_of_lt_of_le h (hr.written_le id)
  quiet _ _ w w' h _ hq := by rwa [hq.written_eq]

theorem stable_true : Stable L t (fun _ _ => True) := ⟨fun _ _ _ _ _ => trivial, fun _ _ _ _ _ _ _ => trivial⟩

theorem Stable.and {P Q : Seen → World → Prop} (hP : Stable L t P) (hQ : Stable L t Q) :
    Stable L t (fun l w => P l w ∧ Q l w) where
  rely l w w' h hr := ⟨hP.rely l w w' h.1 hr, hQ.rely l w w' h.2 hr⟩
  quiet l l' w w' h hv hq := ⟨hP.quiet l l' w w' h.1 hv hq, hQ.quiet l l' w w' h.2 hv hq⟩

theorem own_of_stored {s : Session} {w : World} (h : 0 < written w.trace s.id) : Own L t s w := fun _ => .inl h

/-! ## Storing a record -/

/-- The change that stores `s`: by `SET`, or by the claim script, which also leases a host. -/
structure Stores (w : World) (s : Session) (w' : World) : Prop where
  trace : ∃ ext, w'.trace = .wrote s :: ext ++ w.trace ∧ (∀ id, written ext id = 0) ∧
    (∀ o, .wrote o ∈ ext ++ w.trace → .wrote o ∈ w.trace) ∧ (Absorbing w.trace → Absorbing (ext ++ w.trace))
  lease : ∀ k id, w'.lease k = some id → id = s.id ∧ (s.hostId = some k ∨ w.lease k = some id) ∨ id ≠ s.id ∧ w.lease k = some id
  session : ∀ id, w'.session id = if id = s.id then some s else w.session id
  player : ∀ p, w'.player p = w.player p

theorem stores_write (w : World) (s : Session) : Stores w s (w.write s) where
  trace := ⟨[], rfl, fun _ => rfl, fun _ h => h, fun h => h⟩
  lease k id hl := by
    by_cases h : id = s.id
    · exact .inl ⟨h, .inr hl⟩
    · exact .inr ⟨h, hl⟩
  session := session_write w s
  player _ := rfl

theorem stores_reserve (w : World) (h : HostId) (r : {r : HostRecord // r.hostId = h}) (s : Session)
    (hs : s.hostId = some h) : Stores w s (w.reserve h r s) where
  trace := ⟨[.claimed h s.id], rfl, fun _ => rfl, fun _ ho => by simpa using ho, fun ha => ha⟩
  lease k id hl := by
    by_cases hk : k = h
    · subst hk
      rw [lease_reserve_self, Option.some.injEq] at hl
      exact .inl ⟨hl.symm, .inl hs⟩
    · rw [lease_reserve_of_ne w h r s hk] at hl
      by_cases hid : id = s.id
      · exact .inl ⟨hid, .inr hl⟩
      · exact .inr ⟨hid, hl⟩
  session := session_reserve w h r s
  player _ := rfl

theorem Stores.newest_eq {w w' : World} {s : Session} (h : Stores w s w') (id : SessionId) :
    newest w'.trace id = if s.id = id then some s else newest w.trace id := by
  obtain ⟨ext, he, hw, -⟩ := h.trace
  rw [he]
  simp only [List.cons_append, newest, newest_append (hw id)]

theorem Stores.written_eq {w w' : World} {s : Session} (h : Stores w s w') (id : SessionId) :
    written w'.trace id = (if s.id = id then 1 else 0) + written w.trace id := by
  obtain ⟨ext, he, hw, -⟩ := h.trace
  rw [he]
  simp only [List.cons_append, written, written_append, hw id, Nat.zero_add]

section store
variable {s s' : Session} {host : Option HostId} {live : Bool} {l : Seen} {w w' : World}

/-- **A fresh store keeps the invariants**: the record it replaces is not terminal, has the same player and, where the
new one is live, is live too, or there is none and the thread holds the player's lock. -/
theorem Stores.inv (h : Stores w s' w') (hI : Inv L w) (hh : Holds s host live l w) (ho : Own L t s w)
    (hv : l.version s.id = written w.trace s.id) (hid : s'.id = s.id) (hp : s'.playerId = s.playerId)
    (ha : s'.state ≠ .allocating) (hl : s'.state.live = true → live = true) (hhost : host = none ∨ host = s'.hostId) :
    Inv L w' := by
  have hother : ∀ {id}, s'.id ≠ id → newest w'.trace id = newest w.trace id := fun hne => by
    rw [h.newest_eq, if_neg hne]
  refine ⟨⟨fun k id hk => ?_, fun id s₁ hs => ?_, fun id s₁ hs => ?_, ?_⟩, fun hL => ?_⟩
  · rcases h.lease k id hk with ⟨rfl, hk⟩ | ⟨hne, hk⟩
    · refine ⟨s', by rw [h.newest_eq, if_pos rfl], hk.elim (fun hk => hk) fun hk => ?_⟩
      have := hh.lease hv k (hid ▸ hk)
      rcases hhost with hn | hn
      · rw [hn] at this; cases this
      · rw [← hn, this]
    · rw [hother (Ne.symm hne)]; exact hI.1.lease k id hk
  · rw [h.session] at hs
    split at hs
    · rename_i he; cases hs; subst he; rw [h.newest_eq, if_pos rfl]
    · rename_i hne; rw [hother (Ne.symm hne)]; exact hI.1.stored id s₁ hs
  · rw [h.newest_eq] at hs
    split at hs
    · cases hs; exact ha
    · exact hI.1.state id s₁ hs
  · obtain ⟨ext, he, -, hmem, habs⟩ := h.trace
    rw [he]
    refine ⟨fun s₀ h₀ hid₀ ht => ?_, habs hI.1.absorbing⟩
    -- the newest version is not terminal, so no version is
    obtain ⟨s₂, h₂, ht₂⟩ := hI.1.absorbing.newest_eq (hmem s₀ (mem_records.1 h₀)) ht
    rw [hid₀, hid] at h₂
    have := (hh.record hv s₂ h₂).1
    rw [ht₂, ht] at this; cases this
  · have hLI := hI.2 hL
    have hnew : ∀ {id s₁}, newest w'.trace id = some s₁ →
        (s'.id = id ∧ s₁ = s') ∨ (s'.id ≠ id ∧ newest w.trace id = some s₁) := fun hs => by
      rw [h.newest_eq] at hs
      split at hs
      · cases hs; exact .inl ⟨‹_›, rfl⟩
      · exact .inr ⟨‹_›, hs⟩
    -- where the session was stored before, its newest record has the player of the new one
    have hold : ∀ {s₀}, newest w.trace s'.id = some s₀ → s₀.playerId = s'.playerId := fun h₀ => by
      rw [hp]; exact (hh.record hv _ (hid ▸ h₀)).2.1
    -- where it was not, the thread holds the lock
    have hlock : newest w.trace s'.id = none → ∀ p, w.player p = some s'.id ↔ p = s'.playerId := fun hn => by
      rw [newest_eq_none, hid] at hn
      rcases ho hL with hpos | ⟨-, hlk⟩
      · omega
      · rw [hid, hp]; exact hlk
    refine ⟨fun id s₁ id' hs hlive hpl => ?_, fun id₁ id₂ s₁ s₂ hs₁ hs₂ hl₁ hl₂ hpp => ?_, fun p id s₁ hpl hs => ?_⟩
    · rw [h.player] at hpl
      rcases hnew hs with ⟨rfl, rfl⟩ | ⟨hne, hs⟩
      · cases hn : newest w.trace s₁.id with
        | none => exact Option.some.inj (hpl.symm.trans ((hlock hn _).2 rfl))
        | some s₀ =>
          exact hLI.alone _ s₀ id' hn ((hh.record hv s₀ (hid ▸ hn)).2.2 (hl hlive)) (by rw [hold hn]; exact hpl)
      · exact hLI.alone id s₁ id' hs hlive hpl
    · -- the session stored and another live one of its player
      have key : ∀ {id₂ s₂}, newest w.trace id₂ = some s₂ → s₂.state.live = true → s'.state.live = true →
          s₂.playerId = s'.playerId → s'.id = id₂ := by
        intro id₂ s₂ hs₂ hl₂ hl' hpp
        cases hn : newest w.trace s'.id with
        | none => exact hLI.alone id₂ s₂ s'.id hs₂ hl₂ ((hlock hn _).2 hpp)
        | some s₀ =>
          exact hLI.single _ _ s₀ s₂ hn hs₂ ((hh.record hv s₀ (hid ▸ hn)).2.2 (hl hl')) hl₂ (by rw [hold hn, hpp])
      rcases hnew hs₁ with ⟨rfl, rfl⟩ | ⟨hne₁, hs₁⟩
      · rcases hnew hs₂ with ⟨rfl, -⟩ | ⟨-, hs₂⟩
        · rfl
        · exact key hs₂ hl₂ hl₁ hpp.symm
      · rcases hnew hs₂ with ⟨rfl, rfl⟩ | ⟨-, hs₂⟩
        · exact (key hs₁ hl₁ hl₂ hpp).symm
        · exact hLI.single _ _ s₁ s₂ hs₁ hs₂ hl₁ hl₂ hpp
    · rw [h.player] at hpl
      rcases hnew hs with ⟨rfl, rfl⟩ | ⟨hne, hs⟩
      · cases hn : newest w.trace s₁.id with
        | none => exact ((hlock hn p).1 hpl).symm
        | some s₀ => rw [← hold hn]; exact hLI.owner p _ s₀ hpl hn
      · exact hLI.owner p id s₁ hpl hs

/-- The other threads tolerate a store: it is of a session they did not create. -/
theorem Stores.rely (h : Stores w s' w') (ho : Own L t s w) (hid : s'.id = s.id) (u : Nat) (hu : u ≠ t) :
    Rely L u w w' where
  trace := by
    obtain ⟨ext, he, hw, -⟩ := h.trace
    refine ⟨.wrote s' :: ext, he, fun id h0 k hk => ?_⟩
    simp only [written] at h0
    rcases h.lease k id hk with ⟨rfl, -⟩ | ⟨-, hk⟩
    · simp at h0
    · exact hk
  own hL h0 := by
    have hne : s'.id ≠ ⟨u⟩ := by
      rcases ho hL with hpos | ⟨ht, -⟩
      · intro he; rw [← hid, he, h0] at hpos; exact Nat.lt_irrefl 0 hpos
      · intro he; rw [← hid, he, SessionId.mk.injEq] at ht; exact hu ht
    exact ⟨by rw [h.written_eq, if_neg hne, h0], fun p => by rw [h.player]⟩

/-- A thread has seen the record it stores. -/
theorem Stores.holds (h : Stores w s' w') (hh : Holds s host live l w) (hv : l.version s.id = written w.trace s.id)
    (hid : s'.id = s.id) (ht : s'.state.terminal = false) (hhost : host = none ∨ host = s'.hostId) {l' : Seen}
    (hl' : l'.version s'.id = written w.trace s'.id + 1) : Holds s' s'.hostId s'.state.live l' w' where
  seen := by rw [h.written_eq, if_pos rfl, hl']; omega
  record _ s₀ h₀ := by
    rw [h.newest_eq, if_pos rfl] at h₀
    cases h₀
    exact ⟨ht, rfl, fun hl => hl⟩
  lease _ k hk := by
    rcases h.lease k s'.id hk with ⟨-, hk | hk⟩ | ⟨hne, -⟩
    · exact hk
    · have := hh.lease hv k (hid ▸ hk)
      rcases hhost with hn | hn
      · rw [hn] at this; cases this
      · rw [← hn, this]
    · exact absurd rfl hne

theorem Stores.stored (h : Stores w s' w') : 0 < written w'.trace s'.id := by
  rw [h.written_eq, if_pos rfl]; omega

end store

end Market
end CloudGaming
