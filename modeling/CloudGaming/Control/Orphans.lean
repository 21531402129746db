import CloudGaming.Control.Told
/-!
# Orphans — no host runs a session the matchmaker has given up

While a host runs a session over a live connection, the matchmaker's record of it is live and names the host, or a
greeting, a stop, a hello or the end of the session is on its way (`accounted_after`).  The matchmaker does not keep this
by itself: it gives a session up on the hello of a host that has yet to receive the prepare (`not_accounted`).
-/
namespace CloudGaming
namespace Control

open Market Host Relation

/-! ## The moves -/

/-- What is on its way to the host about the session, and waits there. -/
def Duo.queue (h : HostId) (p : Duo) (S : SessionId) : List Mail := (p.seat S).queue ((p.server.view S).mail h)

/-- The invariant of the matchmaker and the host. -/
structure Inv (h : HostId) (p : Duo) : Prop where
  plays : ∃ active pending, Plays p.host active pending
  fresh : Fresh p.server
  peace : Peace h p.seat (p.up = true) p.server

section moves
variable {h : HostId} {p : Duo} {S : SessionId} {active active' : Option SessionId} {pending pending' : List Packet}
  {sent : List HostEvent} {host : Runtime.World} {online : Prop} {record : Option Session} {queue : List Mail}
  {st st' : Seat}

theorem runs_seat (hp : Plays p.host active pending) (S : SessionId) : (p.seat S).runs ↔ active = some S := by
  rw [← activeName_eq_spell, ← hp.active]
  exact eq_comm

theorem pending_seat (hp : Plays p.host active pending) (S : SessionId) :
    (p.seat S).pending = pending.filterMap (Packet.mail S) := by
  unfold Duo.seat
  dsimp only
  rw [hp.pending, List.filterMap_map]
  exact congrArg (fun f => List.filterMap f pending) (funext (commandMail_packet S))

theorem Kept.reseat (hk : Kept h st online record queue) (hr : st'.runs ↔ st.runs) (ho : st'.ended → st.ended)
    (hh : st.hello → st'.hello) : Kept h st' online record queue :=
  ⟨fun hkn => hk.tried (hkn.imp hr.1 (Or.imp id ho)), hk.once, fun h => hk.running (hr.1 h),
    fun h => ⟨fun h' => (hk.ended (ho h)).1 (hr.1 h'), (hk.ended (ho h)).2⟩,
    fun h => (hk.told h).imp id fun ht => ⟨ht.trailed, fun h' => (ht.running (hr.1 h')).imp id hh⟩⟩

/-! ### The connection -/

theorem over_cut (n : Nat) (S : SessionId) (h : ((p.cut n).seat S).ended) : (p.seat S).ended := by
  obtain ⟨e, he, ho⟩ := h
  refine ⟨e, ?_, ho⟩
  have he : e ∈ [] ++ (p.late ++ p.uplink.take n) := he
  rcases List.mem_append.1 he with he | he
  · cases he
  · rcases List.mem_append.1 he with he | he
    · exact List.mem_append_right _ he
    · exact List.mem_append_left _ (List.mem_of_mem_take he)

/-- A connection is lost, or a new one greets the host: what was on its way is gone. -/
theorem keeps_cut {v v' : View} (hk : Keeps h (p.seat S) online v) (n : Nat) {online' : Prop} (hr : v'.record = v.record)
    (hm : .prepare ∈ v'.mail h → .prepare ∈ v.mail h) (hc : (v'.mail h).count .prepare ≤ (v.mail h).count .prepare)
    (ht : online' → Told ((p.cut n).seat S) (((p.cut n).seat S).queue (v'.mail h))) : Keeps h ((p.cut n).seat S) online' v' := by
  unfold Keeps at hk ⊢
  have hmem : .prepare ∈ ((p.cut n).seat S).queue (v'.mail h) → .prepare ∈ (p.seat S).queue (v.mail h) := fun hq =>
    List.mem_append.2 ((List.mem_append.1 hq).imp id hm)
  rw [hr]
  refine ⟨fun hkn => hk.tried (hkn.imp id (Or.imp hmem (over_cut n S))), ?_, fun hr' hq => hk.running hr' (hmem hq),
    fun ho => ⟨(hk.ended (over_cut n S ho)).1, fun hq => (hk.ended (over_cut n S ho)).2 (hmem hq)⟩, fun ho => .inr (ht ho)⟩
  have honce := hk.once
  unfold Seat.queue at honce ⊢
  rw [List.count_append] at honce ⊢
  exact Nat.le_trans (Nat.add_le_add_left hc _) honce

theorem inv_lose (hi : Inv h p) (n : Nat) : Inv h (p.cut n) where
  plays := hi.plays
  fresh := hi.fresh
  peace := {
    keeps := fun S => keeps_cut (hi.peace.keeps S) n rfl id (Nat.le_refl _) fun ho => by cases ho.1
    leased := hi.peace.leased
    tried := hi.peace.tried }

/-- A request of the gateway about its sockets. -/
theorem peace_control {seats : SessionId → Seat} {up : Prop} {w : World} (hf : Fresh w) (hp : Peace h seats up w) (k : HostId)
    (b : Bool) : Peace h seats up (w.serve (.control k b)) :=
  peace_serve hf hp (spared_of_other hp (fun _ he => by cases he) (by simp)) fun _ e he => by cases he

theorem inv_accept (hi : Inv h p) (n : Nat) :
    Inv h { p.cut n with server := p.server.handle (.connect h), up := true } := by
  have hp : Peace h (p.cut n).seat (true = true) (p.server.ambient (.accept h)) := by
    refine ⟨fun S => ?_, fun S => ?_, fun S => ?_⟩
    · rw [view_ambient]
      have hmail : (((p.server.view S).ambient S (.accept h)).mail h) = [.ready] := by simp [View.ambient]
      refine keeps_cut (hi.peace.keeps S) n rfl (fun hm => ?_) ?_ fun _ => ?_
      · rw [hmail] at hm; cases hm with | tail _ hm => cases hm
      · rw [hmail]; exact Nat.zero_le _
      · rw [hmail]; exact told_concat (m := .ready) (by decide) _ _
    · rw [view_ambient]; exact leased_ambient (hi.peace.leased S) _
    · rw [view_ambient]; exact tried_ambient (hi.peace.tried S) _
  exact ⟨hi.plays, fresh_handle hi.fresh _, peace_control (fresh_ambient hi.fresh _) hp h true⟩

theorem inv_close (hi : Inv h p) (n : Nat) : Inv h { p.cut n with server := p.server.handle (.disconnect h) } := by
  refine ⟨hi.plays, fresh_handle hi.fresh _, ?_⟩
  change Peace h (p.cut n).seat (false = true) (p.server.handle (.disconnect h))
  simp only [World.handle]
  split
  · refine peace_control (fresh_ambient hi.fresh _) ⟨fun S => ?_, fun S => ?_, fun S => ?_⟩ h false
    · rw [view_ambient]
      have hmail : (((p.server.view S).ambient S (.closed h)).mail h) = [] := by simp [View.ambient]
      refine keeps_cut (hi.peace.keeps S) n rfl (fun hm => ?_) ?_ fun ho => by cases ho.1
      · rw [hmail] at hm; cases hm
      · rw [hmail]; exact Nat.zero_le _
    · rw [view_ambient]; exact leased_ambient (hi.peace.leased S) _
    · rw [view_ambient]; exact tried_ambient (hi.peace.tried S) _
  · exact (inv_lose hi n).peace

theorem inv_restart (hi : Inv h p) (n : Nat) : Inv h { p.cut n with host := {} } := by
  refine ⟨⟨none, [], rfl, rfl, rfl⟩, hi.fresh, ⟨fun S => ?_, hi.peace.leased, hi.peace.tried⟩⟩
  have hk := (inv_lose hi n).peace.keeps S
  have hno : ¬("" : String) = spell S.uuid := fun he => spell_ne_empty _ he.symm
  have hmem : ∀ {l : List Mail}, .prepare ∈ ([] : List Mail) ++ (p.server.view S).mail h → .prepare ∈ l ++ (p.server.view S).mail h :=
    fun hq => List.mem_append_right _ hq
  refine ⟨fun hkn => hk.tried (hkn.imp (fun hr => absurd hr hno) (Or.imp hmem id)), ?_, fun hr => absurd hr hno,
    fun ho => ⟨hno, fun hq => (hk.ended ho).2 (hmem hq)⟩, fun ho => by cases ho.1⟩
  have honce := hk.once
  unfold Seat.queue at honce ⊢
  rw [List.count_append] at honce ⊢
  exact Nat.le_trans (Nat.add_le_add_right (Nat.zero_le _) _) honce

/-! ### Events that reach the matchmaker -/

/-- A `host.hello` without a session disowns no session that the host runs or is about to. -/
def Owned (h : HostId) (p : Duo) (e : HostEvent) : Prop :=
  e.type = .hello → e.sessionId = none → p.online h = true → ∀ S s, p.server.lease h = some S →
    p.server.session S = some s → s.state.terminal = false → Told (p.seat S) (p.queue h S)

/-- A `host.hello` that names an orphan makes the matchmaker stop it, unless nothing is lost without. -/
def Answered (h : HostId) (p : Duo) (e : HostEvent) : Prop :=
  ∀ S, Names S e → p.online h = true → p.server.lease h ≠ some S → p.server.deliverable h = true ∨
    Mine h (p.server.session S) ∨ Told (({ p with uplink := p.uplink.tail } : Duo).seat S) (p.queue h S)

theorem online_iff : p.online h = true ↔ p.up = true ∧ p.server.connected h = true := Bool.and_eq_true_iff

/-- An event of the host that disowns nothing spares it. -/
theorem spared_event (hi : Inv h p) {e : HostEvent} (he : e ∈ p.uplink ++ p.late) (hown : Owned h p e) :
    Spared h p.seat (p.up = true) (.event h e) p.server := by
  intro S s code hl hh ho
  cases hl with
  | failed hr ht =>
    have hgone := (hi.peace.keeps S).ended ⟨e, he, hr.event, .inr ht⟩
    exact .inl (told_of_unknown hgone.1 hgone.2)
  | restarted ht hnone hlease hs hlive => exact .inl (hown ht hnone (online_iff.2 ho) S s hlease hs hlive)

theorem peace_event (hi : Inv h p) {e : HostEvent} (he : e ∈ p.uplink ++ p.late) (hown : Owned h p e) :
    Peace h p.seat (p.up = true) (p.server.serve (.event h e)) := by
  refine peace_serve hi.fresh hi.peace (spared_event hi he hown) fun S e' heq ho => ?_
  cases heq
  exact ⟨e, he, ho⟩

theorem inv_hearLate (hi : Inv h p) {i : Nat} {e : HostEvent} (he : p.late[i]? = some e) (hown : Owned h p e) :
    Inv h { p with server := p.server.serve (.event h e), late := p.late.eraseIdx i } := by
  have hp := peace_event hi (List.mem_append_right _ (List.mem_of_getElem? he)) hown
  refine ⟨hi.plays, fresh_handle hi.fresh (.request _), ⟨fun S => (hp.keeps S).reseat Iff.rfl ?_ id, hp.leased, hp.tried⟩⟩
  rintro ⟨e', he', ho⟩
  refine ⟨e', ?_, ho⟩
  exact (List.mem_append.1 he').elim (List.mem_append_left _) fun hm => List.mem_append_right _ (List.mem_of_mem_eraseIdx hm)

/-- What a `host.hello` that names a session does. -/
theorem serve_hello (w : World) {e : HostEvent} (he : Names S e) : w.serve (.event h e) =
    if w.lease h = some S then w.arrived (.event h e)
    else (w.arrived (.event h e)).sendTo (some h) (.stop S "orphaned_session") := by
  obtain ⟨hs, ht⟩ := he
  have hlease : (w.arrived (.event h e)).lease h = w.lease h := rfl
  change ((handleHostEvent h e).run machine (w.arrived (.event h e))).2 = _
  unfold handleHostEvent
  rw [if_pos ht]
  unfold handleHello
  rw [Async.Prog.run_send_bind, show machine.exec (.getLease h) (w.arrived (.event h e)) =
    ((w.arrived (.event h e)).lease h, w.arrived (.event h e)) from rfl, hs]
  dsimp only
  rw [hlease]
  by_cases hl : w.lease h = some S
  · rw [if_pos hl, if_neg (not_not.2 hl.symm)]
    rfl
  · rw [if_neg hl, if_pos (Ne.symm hl)]
    obtain ⟨o, ho⟩ := run_send (w.arrived (.event h e)) (some h) (.stop S "orphaned_session")
    rw [Async.Prog.run_bind_some machine ho]
    rfl

/-- After its hello was answered, a session that the host runs is no orphan. -/
theorem told_answered (hi : Inv h p) {e : HostEvent} {rest : List HostEvent} (hu : p.uplink = e :: rest) (he : Names S e)
    (ha : Answered h p e) (hr : (p.seat S).runs) (ho : p.online h = true) :
    Mine h ((p.server.serve (.event h e)).session S) ∨
      Told (({ p with uplink := rest } : Duo).seat S)
        ((({ p with uplink := rest } : Duo).seat S).queue (((p.server.serve (.event h e)).view S).mail h)) := by
  obtain ⟨hc, hd⟩ := connected_arrived p.server (.event h e)
  rw [serve_hello p.server he]
  have hview : ((p.server.arrived (.event h e)).view S).record = p.server.session S ∧
      ((p.server.arrived (.event h e)).view S).mail = (p.server.view S).mail := by rw [view_arrived]; exact ⟨rfl, rfl⟩
  split
  · rename_i hl
    refine .inl ?_
    obtain ⟨s, hs, -⟩ := (hi.peace.keeps S).tried (.inl hr)
    obtain ⟨hh, hold⟩ := hi.peace.leased S h (Option.ne_none_iff_isSome.2 (view_lease_eq.2 hl)) s hs
    refine ⟨s, hview.1.trans hs, hh, ?_⟩
    cases hst : s.state <;> rw [hst] at hold <;> first | rfl | cases hold
  · rename_i hl
    have hv := view_sendTo_stop (p.server.arrived (.event h e)) (some h) "orphaned_session" (S := S)
    have hrec : ((p.server.arrived (.event h e)).sendTo (some h) (.stop S "orphaned_session")).session S = p.server.session S :=
      (congrArg View.record hv).trans ((record_stop _ _ _).trans hview.1)
    rw [hv, hrec]
    rcases ha S he ho hl with hd' | hm | ht
    · exact .inr (told_stopped _ rfl (hd ▸ hd'))
    · exact .inl hm
    · refine .inr (told_stop ?_ _ _)
      rw [hview.2]
      rw [hu] at ht
      exact ht

theorem inv_hear (hi : Inv h p) {e : HostEvent} {rest : List HostEvent} (hu : p.uplink = e :: rest) (hown : Owned h p e)
    (ha : Answered h p e) : Inv h { p with server := p.server.serve (.event h e), uplink := rest } := by
  have hp := peace_event hi (List.mem_append_left _ (hu ▸ List.mem_cons_self)) hown
  have hconn : (p.server.serve (.event h e)).connected h = true → p.server.connected h = true := fun hc => by
    rwa [← connected_serve hi.fresh]
  refine ⟨hi.plays, fresh_handle hi.fresh (.request _), ⟨fun S => ?_, hp.leased, hp.tried⟩⟩
  have hk := hp.keeps S
  have hover : (({ p with uplink := rest } : Duo).seat S).ended → (p.seat S).ended := by
    rintro ⟨e', he', ho⟩
    refine ⟨e', ?_, ho⟩
    rw [hu]
    exact List.mem_cons_of_mem _ he'
  refine ⟨fun hkn => hk.tried (hkn.imp id (Or.imp id hover)), hk.once, hk.running, fun ho => hk.ended (hover ho), fun ho => ?_⟩
  by_cases he : (p.seat S).runs ∧ Names S e
  · exact told_answered hi hu he.2 ha he.1 (online_iff.2 ⟨ho.1, hconn ho.2⟩)
  · refine (hk.told ho).imp id fun ht => ⟨ht.trailed, fun hr => (ht.running hr).imp id ?_⟩
    rintro ⟨e', he', hn⟩
    rw [hu] at he'
    rcases List.mem_cons.1 he' with rfl | he'
    · exact absurd ⟨hr, hn⟩ he
    · exact ⟨e', he', hn⟩

/-! ### Commands that reach the host -/

theorem view_carry (w : World) {packet : Packet} {rest : List Packet} (ho : w.outbox h = packet :: rest) (S : SessionId) :
    (w.carry h).view S = { w.view S with mail := Function.update (w.view S).mail h (rest.filterMap (Packet.mail S)) } := by
  refine View.ext rfl rfl rfl rfl ?_ rfl
  funext k
  unfold World.outbox at ho
  by_cases hk : k = h
  · subst hk
    cases hc : w.clients k with
    | none => rw [hc] at ho; cases ho
    | some s =>
      rw [hc] at ho
      have ho : s.outbox = packet :: rest := ho
      simp [World.view, World.outbox, World.carry, hc, ho]
  · simp [World.view, World.outbox, World.carry, hk]

theorem connected_carry (w : World) (h : HostId) : (w.carry h).connected = w.connected := by
  funext k
  by_cases hk : k = h
  · subst hk
    simp [World.connected, World.carry, Option.any_map]
  · simp [World.connected, World.carry, hk]

theorem fresh_carry {w : World} (hf : Fresh w) {packet : Packet} {rest : List Packet} (ho : w.outbox h = packet :: rest) :
    Fresh (w.carry h) := by
  intro S hu
  obtain ⟨hr, hl, hp, he, hm, hh⟩ := hf S hu
  rw [view_carry w ho]
  refine ⟨hr, hl, hp, he, fun k hmem => ?_, hh⟩
  by_cases hk : k = h
  · subst hk
    have hmail : (w.view S).mail k = (packet :: rest).filterMap (Packet.mail S) := congrArg _ ho
    refine hm k ?_
    rw [hmail, List.filterMap_cons]
    simp only [Function.update_self] at hmem
    split
    · exact hmem
    · exact List.mem_cons_of_mem _ hmem
  · exact hm k (by simpa [hk] using hmem)

/-- A prepare that is dropped is not on its way any more. -/
theorem Kept.drop {l l' : List Mail} (hk : Kept h st online record (l ++ .prepare :: l')) : Kept h st online record (l ++ l') := by
  have hmem : ∀ {m : Mail}, m ∈ l ++ l' → m ∈ l ++ .prepare :: l' := fun hm =>
    List.mem_append.2 ((List.mem_append.1 hm).imp id (List.mem_cons_of_mem _))
  refine ⟨fun hkn => hk.tried (hkn.imp id (Or.imp hmem id)), ?_, fun hr hq => hk.running hr (hmem hq),
    fun ho => ⟨(hk.ended ho).1, fun hq => (hk.ended ho).2 (hmem hq)⟩, fun ho => ?_⟩
  · have honce := hk.once
    rw [List.count_append, List.count_cons] at honce
    rw [List.count_append]
    omega
  · refine (hk.told ho).imp id fun ht => ⟨trailed_lost ht.trailed, fun hr => (ht.running hr).imp ?_ id⟩
    rintro ⟨m, hm, hne⟩
    refine ⟨m, ?_, hne⟩
    rcases List.mem_append.1 hm with hm | hm
    · exact List.mem_append_left _ hm
    · exact List.mem_append_right _ ((List.mem_cons.1 hm).resolve_left hne)

/-- Fewer than 64 commands wait, or what arrives is a prepare. -/
def Room (p : Duo) (packet : Packet) : Prop :=
  p.host.pendingMarketplaceCommands.length < 64 ∨ ∃ c S o r d t profile, packet = .command c (.prepare S o r d t profile)

theorem inv_receive (hi : Inv h p) {packet : Packet} {rest : List Packet} (ho : p.server.outbox h = packet :: rest)
    (hroom : Room p packet) :
    Inv h { p with server := p.server.carry h, host := p.host.receive (packetJson packet) } := by
  obtain ⟨active, pending, hplays⟩ := hi.plays
  have hplays' := plays_receive hplays packet
  have hview := fun S => view_carry p.server ho S
  refine ⟨⟨active, _, hplays'⟩, fresh_carry hi.fresh ho, ⟨fun S => ?_, fun S => ?_, fun S => ?_⟩⟩
  · have hk := hi.peace.keeps S
    rw [hview, connected_carry]
    unfold Keeps Seat.queue at hk ⊢
    dsimp only
    rw [Function.update_self, pending_seat hplays'] 
    have hmail : (p.server.view S).mail h = (packet :: rest).filterMap (Packet.mail S) := congrArg _ ho
    rw [pending_seat hplays, hmail] at hk
    have hseat : ∀ q, Kept h (p.seat S) (p.up = true ∧ p.server.connected h = true) (p.server.view S).record q →
        Kept h (({ p with server := p.server.carry h, host := p.host.receive (packetJson packet) } : Duo).seat S)
          (p.up = true ∧ p.server.connected h = true) (p.server.view S).record q := fun q hq => by
      refine hq.reseat ?_ id id
      rw [runs_seat hplays, runs_seat hplays']
    refine hseat _ ?_
    split
    · rwa [List.filterMap_append, List.append_assoc, ← List.filterMap_append, List.singleton_append]
    · rename_i hfull
      rcases hroom with hlt | ⟨c, S', o, r, d, t, profile, rfl⟩
      · rw [hplays.pending, List.length_map] at hlt
        exact absurd hlt hfull
      · rw [List.filterMap_cons] at hk
        split at hk
        · exact hk
        · rename_i hm
          obtain ⟨-, hm⟩ := Option.ite_none_right_eq_some.1 hm
          obtain rfl := Option.some.inj hm
          exact hk.drop
  · rw [hview]; exact hi.peace.leased S
  · rw [hview]; exact hi.peace.tried S

/-! ### What the host does and says -/

/-- The host handled something: it runs `active'`, the packets `pending'` wait, and it says `sent`. -/
theorem inv_say (hi : Inv h p) (hs : Says host active' pending' sent) (hk : ∀ S, Keeps h ((p.say host).seat S)
    (p.up = true ∧ p.server.connected h = true) (p.server.view S)) : Inv h (p.say host) :=
  ⟨⟨active', pending', hs.plays⟩, hi.fresh, hk, hi.peace.leased, hi.peace.tried⟩

theorem over_say (hs : Says host active' pending' sent) (S : SessionId) (h : ((p.say host).seat S).ended) :
    (p.seat S).ended ∨ ∃ e ∈ sent, Over S e := by
  obtain ⟨e, he, ho⟩ := h
  have he : e ∈ (if p.up then p.uplink ++ said host else p.uplink) ++ p.late := he
  rw [hs.said] at he
  rcases List.mem_append.1 he with he | he
  · split at he
    · rcases List.mem_append.1 he with he | he
      · exact .inl ⟨e, List.mem_append_left _ he, ho⟩
      · exact .inr ⟨e, he, ho⟩
    · exact .inl ⟨e, List.mem_append_left _ he, ho⟩
  · exact .inl ⟨e, List.mem_append_right _ he, ho⟩

theorem hello_say (S : SessionId) (h : (p.seat S).hello) : ((p.say host).seat S).hello := by
  obtain ⟨e, he, hn⟩ := h
  refine ⟨e, ?_, hn⟩
  change e ∈ if p.up then p.uplink ++ said host else p.uplink
  split
  · exact List.mem_append_left _ he
  · exact he

theorem hello_said (hs : Says host active' pending' sent) (hup : p.up = true) (S : SessionId) (h : ∃ e ∈ sent, Names S e) :
    ((p.say host).seat S).hello := by
  obtain ⟨e, he, hn⟩ := h
  refine ⟨e, ?_, hn⟩
  change e ∈ if p.up then p.uplink ++ said host else p.uplink
  rw [if_pos hup, hs.said]
  exact List.mem_append_right _ he

/-- The host says nothing of the end of a session, and runs what it did. -/
theorem inv_say_same (hi : Inv h p) (hp : Plays p.host active pending) (hs : Says host active pending sent)
    (hno : ∀ S, ∀ e ∈ sent, ¬Over S e) : Inv h (p.say host) := by
  refine inv_say hi hs fun S => ?_
  have hk := hi.peace.keeps S
  unfold Keeps Seat.queue at hk ⊢
  rw [pending_seat (p := p.say host) hs.plays, ← pending_seat hp]
  refine hk.reseat ?_ (fun ho => (over_say hs S ho).resolve_right fun ⟨e, he, ho'⟩ => hno S e he ho') (hello_say S)
  rw [runs_seat hp, runs_seat (p := p.say host) hs.plays]

theorem inv_tick (hi : Inv h p) (l : Runtime.Launch) : Inv h (p.say (p.host.handle (.runtime (.command l)))) := by
  obtain ⟨active, pending, hplays⟩ := hi.plays
  cases pending with
  | nil => exact inv_say_same hi hplays (says_idle hplays l) fun _ _ he => by cases he
  | cons packet pending =>
    obtain ⟨active', sent, hr, hs⟩ := says_command hplays l
    refine inv_say hi hs fun S => ?_
    have hk := hi.peace.keeps S
    unfold Keeps Seat.queue at hk ⊢
    rw [pending_seat (p := p.say _) hs.plays]
    rw [pending_seat hplays, show (packet :: pending).filterMap (Packet.mail S) =
      (Packet.mail S packet).toList ++ pending.filterMap (Packet.mail S) by
        rw [List.filterMap_cons]; cases Packet.mail S packet <;> rfl, List.append_assoc] at hk
    exact hk.reacts hr (runs_seat hplays S) (runs_seat (p := p.say _) hs.plays S) (hello_say S)
      (fun ho => hello_said hs ho.1 S) (over_say hs S)

theorem inv_cleanup (hi : Inv h p) (failed : Bool) (reason roomId : String) : Inv h (p.say (p.host.handle (.runtime
    (.cleanup (if failed then "session.failed" else "session.ended") reason roomId)))) := by
  obtain ⟨active, pending, hplays⟩ := hi.plays
  cases active with
  | none => exact inv_say_same hi hplays (says_cleanup_idle hplays _ reason roomId) fun _ _ he => by cases he
  | some S₀ =>
    have htype : readEventType (if failed then "session.failed" else "session.ended") =
        some (if failed then .failed else .ended) := by cases failed <;> rfl
    have hs := says_cleanup hplays htype reason roomId
    refine inv_say hi hs fun S => ?_
    have hk := hi.peace.keeps S
    unfold Keeps Seat.queue at hk ⊢
    rw [pending_seat (p := p.say _) hs.plays, ← pending_seat hplays]
    have hno : ¬((p.say (p.host.handle (.runtime (.cleanup (if failed then "session.failed" else "session.ended") reason
        roomId)))).seat S).runs := fun hr => by cases (runs_seat (p := p.say _) hs.plays S).1 hr
    by_cases hS : S₀ = S
    · have hrun : (p.seat S).runs := (runs_seat hplays S).2 (congrArg some hS)
      exact kept_idle (hk.tried (.inl hrun)) hno (hk.running hrun)
    · have hno' : ¬(p.seat S).runs := fun hr => hS (Option.some.inj ((runs_seat hplays S).1 hr))
      refine hk.reseat (iff_of_false hno hno') (fun ho => (over_say hs S ho).resolve_right ?_) (hello_say S)
      rintro ⟨e, he, ho'⟩
      rw [List.mem_singleton.1 he] at ho'
      exact hS (Option.some.inj ho'.1)

theorem inv_stream (hi : Inv h p) (peerConnected : Bool) : Inv h (p.say (p.host.reportStream peerConnected p.up)) := by
  obtain ⟨active, pending, hplays⟩ := hi.plays
  rcases says_stream hplays peerConnected p.up with hs | ⟨S, -, hs⟩
  · exact inv_say_same hi hplays hs fun _ _ he => by cases he
  · refine inv_say_same hi hplays hs fun S' e he ho => ?_
    rw [List.mem_singleton.1 he] at ho
    cases peerConnected <;> rcases ho.2 with ht | ht <;> cases ht

theorem inv_signaling (hi : Inv h p) (e : Runtime.SignalingEvent) : Inv h { p with host := p.host.handle (.signaling e) } := by
  obtain ⟨active, pending, hplays⟩ := hi.plays
  have hplays' := plays_signaling hplays e
  refine ⟨⟨active, pending, hplays'⟩, hi.fresh, ⟨fun S => ?_, hi.peace.leased, hi.peace.tried⟩⟩
  have hk := hi.peace.keeps S
  unfold Keeps Seat.queue at hk ⊢
  rw [pending_seat (p := { p with host := p.host.handle (.signaling e) }) hplays', ← pending_seat hplays]
  refine hk.reseat ?_ id id
  rw [runs_seat hplays, runs_seat (p := { p with host := p.host.handle (.signaling e) }) hplays']

end moves

/-! ## Every run -/

/-- No move gives up a session at the host behind its back: a hello without a session, a preparation that times out and an
orphan's hello leave what the host runs told; no greeting or stop is dropped, and no record the host knows expires. -/
def Considerate (h : HostId) (p : Duo) : Move → Prop
  | .matchmaker i => (i = .request .expirePreparations → Spared h p.seat (p.up = true) .expirePreparations p.server) ∧
      Remembers h p.seat p.server i
  | .hear => ∀ e ∈ p.uplink.head?, Owned h p e ∧ Answered h p e
  | .hearLate i => ∀ e ∈ p.late[i]?, Owned h p e
  | .receive => ∀ packet ∈ (p.server.outbox h).head?, Room p packet
  | .accept _ | .lose _ | .close _ | .tick _ | .cleanup .. | .stream _ | .signaling _ | .restart _ => True

/-- While the host runs a session over a live connection, the record of the session is live and names the host, or a
`control.ready`, a `session.stop`, a hello or the end of the session is on its way or waits. -/
def Accounted (h : HostId) (p : Duo) : Prop :=
  ∀ S, p.host.activeSessionId = spell S.uuid → p.online h = true →
    Mine h (p.server.session S) ∨
    (∃ packet, (packet.mail S = some .ready ∨ packet.mail S = some .stop) ∧
      (packet ∈ p.server.outbox h ∨ packetJson packet ∈ p.host.pendingMarketplaceCommands)) ∨
    ∃ e ∈ p.uplink, Over S e ∨ Names S e

section run
variable {h : HostId} {p : Duo}

theorem inv_init (config : Config) : Inv h { server := World.init config } := by
  refine ⟨⟨none, [], rfl, rfl, rfl⟩, fresh_init config, ⟨fun S => ?_, fun S k hk => absurd rfl hk, fun S s hs => by cases hs⟩⟩
  have hno : ¬("" : String) = spell S.uuid := fun he => spell_ne_empty _ he.symm
  have hover : ¬(({ server := World.init config } : Duo).seat S).ended := fun ⟨e, he, _⟩ => by cases he
  refine ⟨fun hkn => ?_, Nat.zero_le _, fun hr => absurd hr hno, fun ho => absurd ho hover, fun _ =>
    .inr (told_of_unknown hno nofun)⟩
  rcases hkn with hr | hq | ho
  · exact absurd hr hno
  · cases hq
  · exact absurd ho hover

/-- **A considerate move keeps the invariant.** -/
theorem inv_step (hi : Inv h p) {m : Move} (hok : Considerate h p m) : Inv h (p.step h m) := by
  cases m with
  | matchmaker i =>
    unfold Duo.step
    dsimp only
    split
    · exact hi
    · rename_i hc
      exact ⟨hi.plays, fresh_handle hi.fresh i, peace_handle hi.fresh hi.peace (by simpa using hc) hok.1 hok.2⟩
  | accept n => exact inv_accept hi n
  | lose n => exact inv_lose hi n
  | close n => exact inv_close hi n
  | hear =>
    unfold Duo.step
    dsimp only
    split
    · exact hi
    · rename_i hu
      obtain ⟨hown, ha⟩ := hok _ (by rw [hu]; rfl)
      exact inv_hear hi hu hown ha
  | hearLate i =>
    unfold Duo.step
    dsimp only
    split
    · exact hi
    · rename_i he
      exact inv_hearLate hi he (hok _ he)
  | receive =>
    unfold Duo.step
    dsimp only
    split
    · rename_i ho
      exact inv_receive hi ho (hok _ (by rw [ho]; rfl))
    · exact hi
  | tick l => exact inv_tick hi l
  | cleanup failed reason roomId => exact inv_cleanup hi failed reason roomId
  | stream peerConnected => exact inv_stream hi peerConnected
  | signaling e => exact inv_signaling hi e
  | restart n => exact inv_restart hi n

theorem mem_queue (hp : ∃ active pending, Plays p.host active pending) {S : SessionId} {m : Mail} (hm : m ∈ p.queue h S) :
    ∃ packet, packet.mail S = some m ∧
      (packet ∈ p.server.outbox h ∨ packetJson packet ∈ p.host.pendingMarketplaceCommands) := by
  obtain ⟨active, pending, hplays⟩ := hp
  unfold Duo.queue Seat.queue at hm
  rw [pending_seat hplays] at hm
  rcases List.mem_append.1 hm with hm | hm
  · obtain ⟨packet, hmem, hmail⟩ := List.mem_filterMap.1 hm
    exact ⟨packet, hmail, .inr (hplays.pending ▸ List.mem_map_of_mem hmem)⟩
  · obtain ⟨packet, hmem, hmail⟩ := List.mem_filterMap.1 hm
    exact ⟨packet, hmail, .inl hmem⟩

theorem accounted_of_inv (hi : Inv h p) : Accounted h p := by
  intro S hr ho
  refine ((hi.peace.keeps S).told (online_iff.1 ho)).imp id fun ht => ?_
  rcases ht.running hr with ⟨m, hm, hne⟩ | ⟨e, he, hn⟩
  · obtain ⟨packet, hmail, hmem⟩ := mem_queue hi.plays hm
    refine .inl ⟨packet, ?_, hmem⟩
    cases m with
    | prepare => exact absurd rfl hne
    | ready => exact .inl hmail
    | stop => exact .inr hmail
  · exact .inr ⟨e, he, .inr hn⟩

end run

/-- **No orphaned host session**, in every run of considerate moves. -/
theorem accounted_after (h : HostId) (config : Config) (moves : List Move)
    (hok : Meets h (Considerate h) { server := World.init config } moves) : Accounted h (Duo.after h config moves) :=
  accounted_of_inv (after_induction (inv_init config) (fun _ _ hi hm => inv_step hi hm) moves hok)

/-- Every launch succeeds. -/
def launches : Runtime.Launch := ⟨fun _ => .ok "steam:730", .ok (), ""⟩

/-- The host connects and is greeted, its hello is handled, and a session is posted and launched. -/
theorem accounted_greetedThenPosted : Accounted ⟨0⟩ (Duo.after ⟨0⟩ ⟨60⟩ [.accept 0, .receive, .tick launches, .hear,
    .matchmaker (.request (.presence (samplePresence ⟨0⟩ .idle))), .matchmaker (.request (.post ⟨"ada"⟩ sampleRequest)),
    .receive, .tick launches]) := by
  refine accounted_after ⟨0⟩ ⟨60⟩ _ ⟨trivial, fun _ _ => .inl (by decide +kernel), trivial, fun e he => ?_,
    ⟨fun h => (nomatch h), fun _ _ => trivial⟩, ⟨fun h => (nomatch h), fun _ _ => trivial⟩,
    fun _ _ => .inl (by decide +kernel), trivial, trivial⟩
  have hhello : ([Move.accept 0, .receive, .tick launches].foldl (Duo.step ⟨0⟩) { server := World.init ⟨60⟩ }).uplink.head? =
      some ⟨.hello, none, none⟩ := by decide +kernel
  have hfree : ([Move.accept 0, .receive, .tick launches].foldl (Duo.step ⟨0⟩) { server := World.init ⟨60⟩ }).server.lease ⟨0⟩ =
      none := by decide +kernel
  obtain rfl := Option.some.inj (hhello.symm.trans he)
  refine ⟨fun _ _ _ S s hl => ?_, fun S hn => ?_⟩
  · cases hfree.symm.trans hl
  · cases hn.1

/-- The session is posted before the hello of the idle host is handled. -/
def helloLate : List Move := [.accept 0, .receive, .tick launches,
  .matchmaker (.request (.presence (samplePresence ⟨0⟩ .idle))), .matchmaker (.request (.post ⟨"ada"⟩ sampleRequest)),
  .hear, .receive, .tick launches]

/-- **The hello of an idle host fails a session whose prepare is on its way**, and nobody stops the host that launches it. -/
theorem not_accounted : ¬∀ h config moves, Accounted h (Duo.after h config moves) := by
  intro hc
  have hc' := hc ⟨0⟩ ⟨60⟩ helloLate
  have hrun : (Duo.after ⟨0⟩ ⟨60⟩ helloLate).host.activeSessionId = spell 2 ∧
      (Duo.after ⟨0⟩ ⟨60⟩ helloLate).online ⟨0⟩ = true ∧
      ((Duo.after ⟨0⟩ ⟨60⟩ helloLate).server.session ⟨2⟩).map (·.state) = some .failed ∧
      ((Duo.after ⟨0⟩ ⟨60⟩ helloLate).server.outbox ⟨0⟩).length = 0 ∧
      (Duo.after ⟨0⟩ ⟨60⟩ helloLate).host.pendingMarketplaceCommands.length = 0 ∧
      (Duo.after ⟨0⟩ ⟨60⟩ helloLate).uplink = [⟨.launchAck, some ⟨2⟩, none⟩] := by decide +kernel
  generalize Duo.after ⟨0⟩ ⟨60⟩ helloLate = p at hc' hrun
  obtain ⟨hactive, honline, hstate, hout, hpend, hup⟩ := hrun
  rcases hc' ⟨2⟩ hactive honline with ⟨s, hs, -, hl⟩ | ⟨packet, -, hmem | hmem⟩ | ⟨e, he, ho⟩
  · rw [hs] at hstate
    have hs' : s.state = .failed := Option.some.inj hstate
    rw [hs'] at hl
    cases hl
  · rw [List.length_eq_zero_iff.1 hout] at hmem
    cases hmem
  · rw [List.length_eq_zero_iff.1 hpend] at hmem
    cases hmem
  · rw [hup] at he
    rw [List.mem_singleton.1 he] at ho
    rcases ho with ⟨-, ht | ht⟩ | ⟨-, ht⟩ <;> cases ht

end Control
end CloudGaming
