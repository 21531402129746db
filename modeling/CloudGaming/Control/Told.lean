import CloudGaming.Control.Duo
import CloudGaming.Market.Cleaning
/-!
# Told — one session between the matchmaker and a host

What the matchmaker's turns and the host's reactions keep of one session: its record is live and names the host, or the
host is told (`Kept`).  The commands on their way to the host and those that wait there are one queue.
-/
namespace CloudGaming
namespace Control

open Market Host Relation

/-! ## Queues -/

/-- Behind every prepare there is a greeting or a stop. -/
def Trailed : List Mail → Prop
  | [] => True
  | .prepare :: l => (∃ m ∈ l, m ≠ .prepare) ∧ Trailed l
  | .ready :: l | .stop :: l => Trailed l

theorem trailed_of_not_mem : ∀ {l : List Mail}, .prepare ∉ l → Trailed l
  | [], _ => trivial
  | .prepare :: _, h => absurd List.mem_cons_self h
  | .ready :: l, h | .stop :: l, h => trailed_of_not_mem (l := l) fun hm => h (List.mem_cons_of_mem _ hm)

theorem Trailed.tail : ∀ {m : Mail} {l : List Mail}, Trailed (m :: l) → Trailed l
  | .prepare, _, h => h.2
  | .ready, _, h | .stop, _, h => h

theorem trailed_concat {m : Mail} (hm : m ≠ .prepare) : ∀ l : List Mail, Trailed (l ++ [m])
  | [] => trailed_of_not_mem (by simpa using hm.symm)
  | .prepare :: l => ⟨⟨m, by simp, hm⟩, trailed_concat hm l⟩
  | .ready :: l | .stop :: l => trailed_concat hm l

/-- A prepare that is lost leaves the others trailed. -/
theorem trailed_lost : ∀ {l l' : List Mail}, Trailed (l ++ .prepare :: l') → Trailed (l ++ l')
  | [], _, h => h.2
  | .prepare :: l, _, h => by
    obtain ⟨⟨m, hmem, hm⟩, ht⟩ := h
    refine ⟨⟨m, ?_, hm⟩, trailed_lost ht⟩
    rcases List.mem_append.1 hmem with hmem | hmem
    · exact List.mem_append_left _ hmem
    · exact List.mem_append_right _ ((List.mem_cons.1 hmem).resolve_left hm)
  | .ready :: l, _, h | .stop :: l, _, h => trailed_lost (l := l) h

/-! ## One session at the host -/

/-- The record of the session is live and names host `h`. -/
def Mine (h : HostId) (record : Option Session) : Prop :=
  ∃ s, record = some s ∧ s.hostId = some h ∧ s.state.terminal = false

/-- A prepare of the session on its way is trailed, and where the host runs it a greeting, a stop or its hello is on its
way. -/
structure Told (st : Seat) (queue : List Mail) : Prop where
  trailed : Trailed queue
  running : st.runs → (∃ m ∈ queue, m ≠ .prepare) ∨ st.hello

/-- The host knows the session. -/
def Seat.Knows (st : Seat) (queue : List Mail) : Prop := st.runs ∨ .prepare ∈ queue ∨ st.ended

/-- What the commands about the session, on their way and waiting, are. -/
def Seat.queue (st : Seat) (mail : List Mail) : List Mail := st.pending ++ mail

/-- What holds of a session at host `h`; `queue` is what is on its way to it. -/
structure Kept (h : HostId) (st : Seat) (online : Prop) (record : Option Session) (queue : List Mail) : Prop where
  tried : st.Knows queue → ∃ s, record = some s ∧ h ∈ s.attemptedHostIds
  once : queue.count .prepare ≤ 1
  running : st.runs → .prepare ∉ queue
  ended : st.ended → ¬st.runs ∧ .prepare ∉ queue
  told : online → Mine h record ∨ Told st queue

section kept
variable {h : HostId} {st : Seat} {online : Prop} {record : Option Session} {queue : List Mail} {s s' : Session}

/-- A session the host does not run and is not told to prepare is no orphan. -/
theorem told_of_unknown (hr : ¬st.runs) (hq : .prepare ∉ queue) : Told st queue := ⟨trailed_of_not_mem hq, fun h => absurd h hr⟩

theorem told_concat {m : Mail} (hm : m ≠ .prepare) (st : Seat) (queue : List Mail) : Told st (queue ++ [m]) :=
  ⟨trailed_concat hm queue, fun _ => .inl ⟨m, by simp, hm⟩⟩

theorem Kept.offline {online' : Prop} (hk : Kept h st online record queue) (ho : online' → online) :
    Kept h st online' record queue := { hk with told := fun h => hk.told (ho h) }

/-- Another greeting or stop is on its way. -/
theorem Kept.concat (hk : Kept h st online record queue) {m : Mail} (hm : m ≠ .prepare) :
    Kept h st online record (queue ++ [m]) := by
  have hmem : .prepare ∈ queue ++ [m] ↔ .prepare ∈ queue := by simp [hm.symm]
  refine ⟨fun hs => hk.tried ?_, ?_, fun hr => ?_, fun ho => ?_, fun _ => .inr (told_concat hm st queue)⟩
  · unfold Seat.Knows at hs ⊢
    rwa [hmem] at hs
  · rw [List.count_append, List.count_singleton, if_neg (by simpa using hm)]
    exact hk.once
  · rw [hmem]; exact hk.running hr
  · rw [hmem]; exact hk.ended ho

/-- The record is stored again. -/
theorem Kept.store (hk : Kept h st online record queue) (hs : record = some s) (ha : ∀ k ∈ s.attemptedHostIds, k ∈ s'.attemptedHostIds)
    (hm : online → Mine h (some s) → Mine h (some s') ∨ Told st queue) : Kept h st online (some s') queue := by
  refine ⟨fun hkn => ?_, hk.once, hk.running, hk.ended, fun ho => ?_⟩
  · obtain ⟨t, ht, hmem⟩ := hk.tried hkn
    rw [hs] at ht
    obtain rfl := Option.some.inj ht
    exact ⟨s', rfl, ha h hmem⟩
  · rw [hs] at hk
    exact (hk.told ho).elim (hm ho) .inr

theorem Mine.store (hm : Mine h (some s)) (hh : s'.hostId = s.hostId) (hl : s.state.terminal = false → s'.state.terminal = false) :
    Mine h (some s') := by
  obtain ⟨t, ht, hth, htl⟩ := hm
  obtain rfl := Option.some.inj ht
  exact ⟨s', rfl, hh.trans hth, hl htl⟩

end kept

/-! ## The matchmaker's turns -/

/-- What holds of a session at host `h`, in terms of its view. -/
def Keeps (h : HostId) (st : Seat) (online : Prop) (v : View) : Prop :=
  Kept h st online v.record (st.queue (v.mail h))

section turns
variable {h : HostId} {st : Seat} {online : Prop} {w : World} {S : SessionId} {s : Session} {v v' : View} {code : String}
  {r : Request}

theorem mail_stop (v : View) (d : HostId → Bool) (k : Option HostId) :
    (v.stop d k).mail h = v.mail h ++ if k = some h ∧ d h = true then [.stop] else [] := by
  cases k with
  | none => simp [View.stop]
  | some k =>
    unfold View.stop
    dsimp only
    by_cases hk : h = k
    · subst hk
      split <;> simp_all
    · split <;> simp [hk, Ne.symm hk]

theorem record_stop (v : View) (d : HostId → Bool) (k : Option HostId) : (v.stop d k).record = v.record := by
  obtain ⟨mail, he⟩ := stop_eq v d k
  rw [he]

theorem keeps_stop (hk : Keeps h st online v) (d : HostId → Bool) (k : Option HostId) : Keeps h st online (v.stop d k) := by
  unfold Keeps at hk ⊢
  rw [record_stop, mail_stop]
  split
  · unfold Seat.queue at hk ⊢
    rw [← List.append_assoc]
    exact hk.concat (by decide)
  · rw [List.append_nil]
    exact hk

theorem told_stopped (v : View) {d : HostId → Bool} {k : Option HostId} (hk : k = some h) (hd : d h = true) :
    Told st (st.queue ((v.stop d k).mail h)) := by
  rw [mail_stop, if_pos ⟨hk, hd⟩]
  unfold Seat.queue
  rw [← List.append_assoc]
  exact told_concat (m := .stop) (by decide) _ _

theorem told_stop (ht : Told st (st.queue (v.mail h))) (d : HostId → Bool) (k : Option HostId) :
    Told st (st.queue ((v.stop d k).mail h)) := by
  by_cases hc : k = some h ∧ d h = true
  · exact told_stopped v hc.1 hc.2
  · rw [mail_stop, if_neg hc, List.append_nil]
    exact ht

/-- The session is delivered to a host; where it is `h`, the host does not know it yet. -/
theorem keeps_deliver (hk : Keeps h st online v) {attempted : List HostId} {k : HostId} (hmem : k ∈ attempted)
    (hsub : st.Knows (st.queue (v.mail h)) → h ∈ attempted ∧ k ≠ h) (htold : online → k ≠ h → Told st (st.queue (v.mail h)))
    (s : Session) (c : CommandId) (now : Nat) : Keeps h st online (v.deliver s attempted k c now) := by
  unfold Keeps at hk ⊢
  by_cases he : k = h
  · subst he
    have hnew : ¬st.Knows (st.queue (v.mail k)) := fun hkn => (hsub hkn).2 rfl
    have hq : .prepare ∉ st.queue (v.mail k) := fun hm => hnew (.inr (.inl hm))
    have hmail : st.queue ((v.deliver s attempted k c now).mail k) = st.queue (v.mail k) ++ [.prepare] := by
      simp [View.deliver, Seat.queue]
    rw [hmail]
    refine ⟨fun _ => ⟨_, rfl, hmem⟩, ?_, fun hr => absurd (.inl hr) hnew, fun ho => absurd (.inr (.inr ho)) hnew,
      fun _ => .inl ⟨_, rfl, rfl, rfl⟩⟩
    rw [List.count_append, List.count_eq_zero.2 hq]
    rfl
  · have hmail : (v.deliver s attempted k c now).mail h = v.mail h := by simp [View.deliver, Ne.symm he]
    rw [hmail]
    exact ⟨fun hkn => ⟨_, rfl, (hsub hkn).1⟩, hk.once, hk.running, hk.ended, fun ho => .inr (htold ho he)⟩

/-- A record that names another host, or none, leaves the host to what it is told. -/
theorem told_of_other (hk : Keeps h st online v) (hs : v.record = some s) (hne : s.hostId ≠ some h) (ho : online) :
    Told st (st.queue (v.mail h)) := by
  refine (hk.told ho).resolve_left ?_
  rintro ⟨t, ht, hth, -⟩
  rw [hs] at ht
  obtain rfl := Option.some.inj ht
  exact hne hth

theorem keeps_givenUp (hk : Keeps h st online v) (hs : v.record = some s)
    (htold : online → s.hostId = some h → Told st (st.queue (v.mail h))) (hg : GivenUp w s code v v') :
    Keeps h st online v' := by
  have htold' : online → Told st (st.queue (v.mail h)) := fun ho => by
    by_cases hh : s.hostId = some h
    · exact htold ho hh
    · exact told_of_other hk hs hh ho
  have hknows : st.Knows (st.queue (v.mail h)) → h ∈ s.attemptedHostIds := fun hkn => by
    obtain ⟨t, ht, hmem⟩ := hk.tried hkn
    rw [hs] at ht
    obtain rfl := Option.some.inj ht
    exact hmem
  cases hg with
  | failed => exact hk.store hs (fun _ h => h) fun ho _ => .inr (htold' ho)
  | moved _ attempted k c _ hnew hmem hsub =>
    have hdrop : Keeps h st online (v.drop s.hostId) := hk
    exact keeps_deliver hdrop hmem (fun hkn => ⟨hsub h (hknows hkn), fun he => hnew (he ▸ hknows hkn)⟩)
      (fun ho _ => htold' ho) _ c w.now

/-- **A turn leaves no orphan**, where the session it gives up on the host is told to stop. -/
theorem keeps_turn (hk : Keeps h st online (w.view S)) (ht : Turn w S r v)
    (hlost : ∀ s code, Lost w S s r code → s.hostId = some h → online → Told st (st.queue ((w.view S).mail h)) ∨
      r = .expirePreparations ∧ w.deliverable h = true)
    (hover : ∀ e, r = .event h e → Over S e → st.ended) : Keeps h st online v := by
  have hunborn : (w.view S).Unborn → ¬st.Knows (st.queue ((w.view S).mail h)) := fun hu hkn => by
    obtain ⟨s, hs, -⟩ := hk.tried hkn
    rw [hu.record] at hs
    cases hs
  have htold : ¬st.Knows (st.queue ((w.view S).mail h)) → Told st (st.queue ((w.view S).mail h)) := fun hkn =>
    told_of_unknown (fun hr => hkn (.inl hr)) fun hq => hkn (.inr (.inl hq))
  cases ht with
  | created _ hu attempted k c _ hmem =>
    exact keeps_deliver hk hmem (fun hkn => absurd hkn (hunborn hu)) (fun _ _ => htold (hunborn hu)) _ c w.now
  | unavailable _ hu =>
    exact ⟨fun hkn => absurd hkn (hunborn hu), hk.once, hk.running, hk.ended, fun _ => .inr (htold (hunborn hu))⟩
  | @deleted s hs hl =>
    refine (keeps_stop hk w.deliverable s.hostId).store ((record_stop _ _ _).trans hs) (fun _ h => h) fun _ hm => .inl ?_
    exact hm.store rfl fun _ => rfl
  | @acknowledged _ _ s hr =>
    refine hk.store hr.session ?_ fun _ hm => .inl (hm.store ?_ ?_)
    · unfold World.stamped; split <;> exact fun _ h => h
    · unfold World.stamped; split <;> rfl
    · unfold World.stamped; split
      · exact fun _ => rfl
      · exact id
  | ready hr => exact hk.store hr.session (fun _ h => h) fun _ hm => .inl (hm.store rfl fun _ => rfl)
  | connected hr => exact hk.store hr.session (fun _ h => h) fun _ hm => .inl (hm.store rfl fun _ => rfl)
  | kept hr => exact hk.store hr.session (fun _ h => h) fun _ hm => .inl (hm.store rfl id)
  | @ended k e s hr hte =>
    refine hk.store hr.session (fun _ h => h) fun ho _ => .inr ?_
    by_cases hkh : k = h
    · subst hkh
      have hover' := hk.ended (hover e rfl ⟨hr.event, .inl hte⟩)
      exact told_of_unknown hover'.1 hover'.2
    · exact told_of_other hk hr.session (by rw [hr.host]; simpa using hkh) ho
  | @lost _ s code _ hl hg =>
    have hwarned : Keeps h st online (w.warned S s r) ∧ (w.warned S s r).record = (w.view S).record := by
      unfold World.warned
      split
      · exact ⟨keeps_stop hk _ _, record_stop _ _ _⟩
      · exact ⟨hk, rfl⟩
    obtain ⟨hkw, hrec⟩ := hwarned
    refine keeps_givenUp hkw (hrec.trans hl.session) (fun ho hh => ?_) hg
    rcases hlost s code hl hh ho with hold | ⟨rfl, hd⟩
    · unfold World.warned
      split
      · exact told_stop hold _ _
      · exact hold
    · exact told_stopped _ hh hd
  | @orphaned k => exact keeps_stop hk w.deliverable (some k)
  | @expired s _ _ _ hs ha =>
    refine (keeps_stop hk w.deliverable s.hostId).store ((record_stop _ _ _).trans hs) (fun _ h => h) fun _ hm => .inl ?_
    exact hm.store rfl fun _ => rfl
  | overdue => exact hk
  | unwatched => exact hk

end turns

/-! ## Requests -/

section serving
variable {h : HostId} {seats : SessionId → Seat} {up : Prop} {r : Request} {w w' : World} {S : SessionId} {s : Session}
  {code : String}

/-- What a request gives up on the connected host is told to stop there, or is no orphan. -/
def Spared (h : HostId) (seats : SessionId → Seat) (up : Prop) (r : Request) (w : World) : Prop :=
  ∀ S s code, Lost w S s r code → s.hostId = some h → up ∧ w.connected h = true →
    Told (seats S) ((seats S).queue ((w.view S).mail h)) ∨ r = .expirePreparations ∧ w.deliverable h = true

/-- What holds at the matchmaker of all sessions. -/
structure Peace (h : HostId) (seats : SessionId → Seat) (up : Prop) (w : World) : Prop where
  keeps : ∀ S, Keeps h (seats S) (up ∧ w.connected h = true) (w.view S)
  leased : ∀ S, (w.view S).Leased
  tried : ∀ S, (w.view S).Tried

/-- While a request is served. -/
structure Serving (h : HostId) (seats : SessionId → Seat) (up : Prop) (r : Request) (w : World) : Prop
    extends Peace h seats up w where
  spared : Spared h seats up r w

/-- A session that its host disowned is leased to it no more. -/
theorem disowned_turn {k : HostId} {e : HostEvent} {v : View} (hl : (w.view S).Leased) (htr : (w.view S).Tried)
    (hl' : v.Leased) (ht : Turn w S (.event k e) v) (he : e.type = .hello) (hnone : e.sessionId = none) :
    v.lease k = none ∨ ∃ s, v.record = some s ∧ s.state.terminal = true := by
  cases ht with
  | acknowledged _ hte => rw [he] at hte; cases hte
  | ready _ hte => rw [he] at hte; cases hte
  | connected _ hte => rw [he] at hte; cases hte
  | kept _ hte => rw [he] at hte; rcases hte with ⟨hte, -⟩ | ⟨hte, -⟩ <;> cases hte
  | ended _ hte => rw [he] at hte; cases hte
  | orphaned _ hs => rw [hnone] at hs; cases hs
  | @lost _ s₀ _ _ hlost hg =>
    cases hlost with
    | failed _ hte => rw [he] at hte; cases hte
    | restarted _ _ hlease hs =>
      have hk : s₀.hostId = some k := (hl k (Option.ne_none_iff_isSome.2 (view_lease_eq.2 hlease)) s₀ hs).1
      cases hg with
      | failed => exact .inr ⟨_, rfl, rfl⟩
      | moved _ attempted k' _ _ hnew =>
        refine .inl ?_
        by_contra hne
        have hk' : some k' = some k := (hl' k hne _ rfl).1
        exact hnew (Option.some.inj hk' ▸ htr s₀ hs k hk)

theorem serving_act (hs : Serving h seats up r w) (hover : ∀ S e, r = .event h e → Over S e → (seats S).ended)
    (ha : Act r w w') : Serving h seats up r w' := by
  have hnet : w'.connected = w.connected ∧ w'.deliverable = w.deliverable := by
    cases ha with
    | still hst => exact ⟨hst.connected, hst.deliverable⟩
    | turn S hf => exact ⟨hf.connected, hf.deliverable⟩
  have hleased : ∀ S, (w'.view S).Leased := views_act (I := fun _ v => v.Leased) (fun _ _ hv ht => ht.leased hv) hs.leased ha
  have hkeeps : ∀ S, Keeps h (seats S) (up ∧ w'.connected h = true) (w'.view S) := by
    rw [hnet.1]
    refine views_act (I := fun S v => Keeps h (seats S) (up ∧ w.connected h = true) v) (fun S v hv ht => ?_) hs.keeps ha
    exact keeps_turn hv ht (hs.spared S) (hover S)
  refine ⟨⟨hkeeps, hleased, views_act (I := fun _ v => v.Tried) (fun _ _ hv ht => ht.tried hv) hs.tried ha⟩, ?_⟩
  intro S s code hlost hh ho
  have hold : w'.view S = w.view S → Told (seats S) ((seats S).queue ((w'.view S).mail h)) ∨
      r = .expirePreparations ∧ w'.deliverable h = true := fun hsame => by
    rw [hsame, hnet.2]
    exact hs.spared S s code (hlost.of_act ha hsame) hh (hnet.1 ▸ ho)
  cases ha with
  | still hst => exact hold (hst.view S)
  | turn S' hf ht =>
    by_cases hne : S = S'
    · subst hne
      cases hlost with
      | @failed k e hr hte =>
        -- the host does not run what it reports to have failed
        obtain rfl := Option.some.inj (hr.host.symm.trans hh)
        have hgone := (hkeeps S).ended (hover S e rfl ⟨hr.event, .inr hte⟩)
        exact .inl (told_of_unknown hgone.1 hgone.2)
      | @restarted k e hte hnone hlease hrec hlive =>
        have hsome : (w'.view S).lease k ≠ none := Option.ne_none_iff_isSome.2 (view_lease_eq.2 hlease)
        rcases disowned_turn (hs.leased S) (hs.tried S) (hleased S) ht hte hnone with hn | ⟨t, ht', hter⟩
        · exact absurd hn hsome
        · rw [show (w'.view S).record = some s from hrec] at ht'
          obtain rfl := Option.some.inj ht'
          rw [hlive] at hter
          cases hter
      | timedOut h₁ h₂ h₃ h₄ => exact absurd (.timedOut h₁ h₂ h₃ h₄) (Turn.settled (hs.leased S) ht hf (by simp))
      | disconnected h₁ h₂ h₃ h₄ h₅ =>
        exact absurd (.disconnected h₁ h₂ h₃ h₄ h₅) (Turn.settled (hs.leased S) ht hf (by simp))
    · exact hold (hf.view S hne)

theorem lost_arrived {r' : Request} (hl : Lost (w.arrived r') S s r code) : Lost w S s r code := by
  cases r' <;> cases hl with
  | failed hr ht => exact .failed ⟨hr.session, hr.event, hr.host, hr.live⟩ ht
  | restarted ht he hl hs hlive => exact .restarted ht he hl hs hlive
  | timedOut ht hn hs hl => exact .timedOut ht hn hs hl
  | disconnected hl hc hl' hs hlive => exact .disconnected hl hc hl' hs hlive

theorem connected_arrived (w : World) (r : Request) : (w.arrived r).connected = w.connected ∧
    (w.arrived r).deliverable = w.deliverable := by cases r <;> exact ⟨rfl, rfl⟩

theorem serving_of_peace (hp : Peace h seats up w) (hspare : Spared h seats up r w) : Serving h seats up r (w.arrived r) := by
  obtain ⟨hc, hd⟩ := connected_arrived w r
  refine ⟨⟨fun S => ?_, fun S => ?_, fun S => ?_⟩, fun S s code hl hh ho => ?_⟩
  · rw [view_arrived, hc]; exact hp.keeps S
  · rw [view_arrived]; exact hp.leased S
  · rw [view_arrived]; exact hp.tried S
  · rw [view_arrived, hd]
    exact hspare S s code (lost_arrived hl) hh (hc ▸ ho)

/-- **A request that spares the host keeps the peace.** -/
theorem peace_serve (hf : Fresh w) (hp : Peace h seats up w) (hspare : Spared h seats up r w)
    (hover : ∀ S e, r = .event h e → Over S e → (seats S).ended) : Peace h seats up (w.serve r) :=
  (serve_induction (P := Serving h seats up r) hf (serving_of_peace hp hspare)
    fun _ _ hs ha => serving_act hs hover ha).toPeace

theorem connected_serve (hf : Fresh w) (r : Request) : (w.serve r).connected = w.connected := by
  refine serve_induction (P := fun w' => w'.connected = w.connected) hf (connected_arrived w r).1 fun w₁ w₂ h₁ ha => ?_
  cases ha with
  | still hst => exact hst.connected.trans h₁
  | turn S hf => exact hf.connected.trans h₁

/-- A request that does not come from the host gives up nothing on the connected host, a preparation apart. -/
theorem spared_of_other (hp : Peace h seats up w) (hne : ∀ e, r ≠ .event h e) (hr : r ≠ .expirePreparations) :
    Spared h seats up r w := by
  intro S s code hl hh ho
  cases hl with
  | failed hr' =>
    obtain rfl := Option.some.inj (hr'.host.symm.trans hh)
    exact absurd rfl (hne _)
  | @restarted k e _ _ hlease hs =>
    have hk : s.hostId = some k := (hp.leased S k (Option.ne_none_iff_isSome.2 (view_lease_eq.2 hlease)) s hs).1
    obtain rfl := Option.some.inj (hk.symm.trans hh)
    exact absurd rfl (hne _)
  | timedOut => exact absurd rfl hr
  | @disconnected k _ hc hlease hs =>
    have hk : s.hostId = some k := (hp.leased S k (Option.ne_none_iff_isSome.2 (view_lease_eq.2 hlease)) s hs).1
    obtain rfl := Option.some.inj (hk.symm.trans hh)
    rw [ho.2] at hc
    cases hc

/-! ## What happens around the requests -/

theorem connected_ambient {a : Ambient} (hc : (Input.ambient a).concerns h = false) (ho : (w.ambient a).connected h = true) :
    w.connected h = true := by
  cases a with
  | accept k =>
    have hk : h ≠ k := fun he => by simp [Input.concerns, he] at hc
    simpa [World.ambient, World.connected, hk] using ho
  | closed k =>
    have hk : h ≠ k := fun he => by simp [Input.concerns, he] at hc
    simpa [World.ambient, World.connected, hk] using ho
  | closing k =>
    by_cases hk : h = k
    · subst hk
      cases hs : w.clients h <;> simp [World.ambient, World.connected, hs] at ho
    · simpa [World.ambient, World.connected, hk] using ho
  | congest k b =>
    by_cases hk : h = k
    · subst hk
      simpa [World.ambient, World.connected, Option.any_map] using ho
    · simpa [World.ambient, World.connected, hk] using ho
  | reorder g ids =>
    unfold World.ambient at ho
    dsimp only at ho
    split at ho <;> exact ho
  | _ => exact ho

/-- The record of no session that the host knows expires. -/
def Remembers (h : HostId) (seats : SessionId → Seat) (w : World) (i : Input) : Prop :=
  ∀ S, (seats S).Knows ((seats S).queue ((w.view S).mail h)) → match i with
    | .ambient (.expireSession S') => S ≠ S'
    | .elapse millis => (w.elapse millis).session S = w.session S
    | _ => True

theorem peace_ambient (hp : Peace h seats up w) {a : Ambient} (hc : (Input.ambient a).concerns h = false)
    (hok : Remembers h seats w (.ambient a)) : Peace h seats up (w.ambient a) where
  keeps S := by
    have hk : Keeps h (seats S) (up ∧ (w.ambient a).connected h = true) (w.view S) :=
      (hp.keeps S).offline fun ho => ⟨ho.1, connected_ambient hc ho.2⟩
    rw [view_ambient]
    cases a with
    | accept k =>
      have hne : h ≠ k := fun he => by simp [Input.concerns, he] at hc
      unfold Keeps View.ambient at *
      dsimp only at *
      rwa [Function.update_of_ne hne]
    | closed k =>
      have hne : h ≠ k := fun he => by simp [Input.concerns, he] at hc
      unfold Keeps View.ambient at *
      dsimp only at *
      rwa [Function.update_of_ne hne]
    | expireSession S' =>
      unfold View.ambient
      dsimp only
      split
      · rename_i he
        have hkn : ¬(seats S).Knows ((seats S).queue ((w.view S).mail h)) := fun hkn => hok S hkn he.symm
        exact ⟨fun hkn' => absurd hkn' hkn, hk.once, hk.running, hk.ended,
          fun _ => .inr (told_of_unknown (fun hr => hkn (.inl hr)) fun hq => hkn (.inr (.inl hq)))⟩
      · exact hk
    | _ => exact hk
  leased S := by rw [view_ambient]; exact leased_ambient (hp.leased S) a
  tried S := by rw [view_ambient]; exact tried_ambient (hp.tried S) a

theorem peace_elapse (hp : Peace h seats up w) {millis : Nat} (hok : Remembers h seats w (.elapse millis)) :
    Peace h seats up (w.elapse millis) where
  keeps S := by
    have hk : Keeps h (seats S) (up ∧ (w.elapse millis).connected h = true) (w.view S) := hp.keeps S
    obtain ⟨o, ho, he⟩ := view_elapse w S millis
    have hrec : (w.elapse millis).session S = o := congrArg View.record he
    rw [he]
    by_cases hkn : (seats S).Knows ((seats S).queue ((w.view S).mail h))
    · have hsame : o = (w.view S).record := hrec.symm.trans (hok S hkn)
      subst hsame
      exact hk
    · exact ⟨fun hkn' => absurd hkn' hkn, hk.once, hk.running, hk.ended,
        fun _ => .inr (told_of_unknown (fun hr => hkn (.inl hr)) fun hq => hkn (.inr (.inl hq)))⟩
  leased S := leased_elapse (hp.leased S) millis
  tried S := by
    obtain ⟨o, ho, he⟩ := view_elapse w S millis
    rw [he]
    rcases ho with rfl | rfl
    · exact fun _ hs => by cases hs
    · exact hp.tried S

/-- **What the matchmaker does apart from the host keeps the peace.** -/
theorem peace_handle (hf : Fresh w) (hp : Peace h seats up w) {i : Input} (hc : i.concerns h = false)
    (hspare : i = .request .expirePreparations → Spared h seats up .expirePreparations w) (hok : Remembers h seats w i) :
    Peace h seats up (w.handle i) := by
  have hother : ∀ w r, Fresh w → Peace h seats up w → (Input.request r).concerns h = false → r ≠ .expirePreparations →
      Peace h seats up (w.serve r) := fun w r hf hp hc hr => by
    have hne : ∀ e, r ≠ .event h e := fun e he => by rw [he] at hc; simp [Input.concerns] at hc
    exact peace_serve hf hp (spared_of_other hp hne hr) fun _ e he => absurd he (hne e)
  cases i with
  | request r =>
    by_cases hr : r = .expirePreparations
    · subst hr
      exact peace_serve hf hp (hspare rfl) fun _ e he => by cases he
    · exact hother w r hf hp hc hr
  | connect k =>
    exact hother _ _ (fresh_ambient hf _) (peace_ambient (a := .accept k) hp hc fun _ _ => trivial) hc (by simp)
  | disconnect k =>
    simp only [World.handle]
    split
    · exact hother _ _ (fresh_ambient hf _) (peace_ambient (a := .closed k) hp hc fun _ _ => trivial) hc (by simp)
    · exact hp
  | ambient a => exact peace_ambient hp hc hok
  | elapse millis => exact peace_elapse hp hok

end serving

/-! ## The host's reactions -/

section reactions
variable {h : HostId} {online : Prop} {record : Option Session} {S : SessionId} {packet : Packet}
  {active active' : Option SessionId} {sent : List HostEvent} {st st' : Seat} {rest : List Mail}

theorem not_over {e : HostEvent} (he : e.type ≠ .ended) (hf : e.type ≠ .failed) : ∀ e' ∈ [e], ¬Over S e' := by
  intro e' hm ho
  rw [List.mem_singleton.1 hm] at ho
  exact ho.2.elim he hf

/-- A packet about another session leaves this one as it is. -/
theorem Reacts.other (hr : Reacts active packet active' sent) (hm : Packet.mail S packet = none) :
    (active' = some S → active = some S) ∧ (active = some S → active' = some S) ∧ ∀ e ∈ sent, ¬Over S e := by
  cases hr with
  | greeted => cases hm
  | @stopped S' c reason =>
    have hne : S' ≠ S := fun he => by simp [Packet.mail, he] at hm
    refine ⟨fun he => (by cases he), fun he => absurd (Option.some.inj he) hne, fun e he ho => ?_⟩
    rw [List.mem_singleton.1 he] at ho
    exact hne (Option.some.inj ho.1)
  | elsewhere => exact ⟨id, id, fun e he => by cases he⟩
  | @repeated S' => exact ⟨id, id, not_over (by simp) (by simp)⟩
  | @refused _ S' =>
    have hne : S' ≠ S := fun he => by simp [Packet.mail, he] at hm
    refine ⟨id, id, fun e he ho => ?_⟩
    rw [List.mem_singleton.1 he] at ho
    exact hne (Option.some.inj ho.1)
  | @launched S' =>
    have hne : S' ≠ S := fun he => by simp [Packet.mail, he] at hm
    refine ⟨fun he => absurd (Option.some.inj he) hne, fun he => (by cases he), fun e he ho => ?_⟩
    rw [List.mem_singleton.1 he] at ho
    exact hne (Option.some.inj ho.1)

/-- The host does not run the session, and will not be told to prepare it. -/
theorem kept_idle (ht : ∃ s, record = some s ∧ h ∈ s.attemptedHostIds) (hr : ¬st'.runs) (hq : .prepare ∉ rest) :
    Kept h st' online record rest :=
  ⟨fun _ => ht, by rw [List.count_eq_zero.2 hq]; exact Nat.zero_le _, fun h => absurd h hr, fun _ => ⟨hr, hq⟩,
    fun _ => .inr (told_of_unknown hr hq)⟩

theorem not_mem_of_once {l : List Mail} (h : (Mail.prepare :: l).count .prepare ≤ 1) : .prepare ∉ l := fun hm => by
  have := List.count_pos_iff.2 hm
  rw [List.count_cons_self] at h
  omega

/-- What was not sent now was sent before. -/
theorem ended_before (hover : st'.ended → st.ended ∨ ∃ e ∈ sent, Over S e) (hno : ∀ e ∈ sent, ¬Over S e) (h : st'.ended) :
    st.ended := by
  refine (hover h).resolve_right fun hs => ?_
  obtain ⟨e, he, ho⟩ := hs
  exact hno e he ho

/-- **A host that takes a packet as an agent does runs no orphan.** -/
theorem Kept.reacts (hk : Kept h st online record ((Packet.mail S packet).toList ++ rest))
    (hr : Reacts active packet active' sent) (hruns : st.runs ↔ active = some S) (hruns' : st'.runs ↔ active' = some S)
    (hhello : st.hello → st'.hello) (hsent : online → (∃ e ∈ sent, Names S e) → st'.hello)
    (hover : st'.ended → st.ended ∨ ∃ e ∈ sent, Over S e) : Kept h st' online record rest := by
  cases hm : Packet.mail S packet with
  | none =>
    obtain ⟨hback, hforth, hno⟩ := hr.other hm
    have hback' : st'.runs → st.runs := fun h => hruns.2 (hback (hruns'.1 h))
    have hover' : st'.ended → st.ended := ended_before hover hno
    rw [hm] at hk
    refine ⟨fun hkn => hk.tried (hkn.imp hback' (Or.imp id hover')), hk.once, fun hr' => hk.running (hback' hr'),
      fun ho => ⟨fun hr' => (hk.ended (hover' ho)).1 (hback' hr'), (hk.ended (hover' ho)).2⟩, fun ho => ?_⟩
    exact (hk.told ho).imp id fun ht => ⟨ht.trailed, fun hr' => (ht.running (hback' hr')).imp id hhello⟩
  | some m =>
    rw [hm] at hk
    have hcount : rest.count .prepare ≤ 1 := Nat.le_trans (List.count_le_count_cons ..) hk.once
    cases hr with
    | @greeted _ k =>
      obtain rfl : Mail.ready = m := by simpa [Packet.mail] using hm
      have hback : st'.runs → st.runs := fun h => hruns.2 (hruns'.1 h)
      have hover' : st'.ended → st.ended := ended_before hover (not_over (by simp) (by simp))
      have hmem : ∀ {l : List Mail}, .prepare ∈ l → .prepare ∈ Mail.ready :: l := List.mem_cons_of_mem _
      refine ⟨fun hkn => hk.tried (hkn.imp hback (Or.imp hmem hover')), hcount, fun hr' hq => hk.running (hback hr') (hmem hq),
        fun ho => ⟨fun hr' => (hk.ended (hover' ho)).1 (hback hr'), fun hq => (hk.ended (hover' ho)).2 (hmem hq)⟩, fun ho => ?_⟩
      refine (hk.told ho).imp id fun ht => ⟨ht.trailed.tail, fun hr' => .inr ?_⟩
      exact hsent ho ⟨_, List.mem_singleton_self _, hruns'.1 hr', rfl⟩
    | @stopped S' c reason =>
      obtain ⟨rfl, rfl⟩ : S' = S ∧ Mail.stop = m := by simpa [Packet.mail] using hm
      have hrun : st.runs := hruns.2 rfl
      exact kept_idle (hk.tried (.inl hrun)) (fun hr' => by cases hruns'.1 hr') fun hq => hk.running hrun (List.mem_cons_of_mem _ hq)
    | @elsewhere _ S' c reason hne =>
      obtain ⟨rfl, rfl⟩ : S' = S ∧ Mail.stop = m := by simpa [Packet.mail] using hm
      have hno : ¬st'.runs := fun hr' => hne (hruns'.1 hr')
      have hover' : st'.ended → st.ended := ended_before hover fun e he => by cases he
      refine ⟨fun hkn => hk.tried (hkn.imp (fun hr' => absurd hr' hno) (Or.imp (List.mem_cons_of_mem _) hover')), hcount,
        fun hr' => absurd hr' hno, fun ho => ⟨hno, fun hq => (hk.ended (hover' ho)).2 (List.mem_cons_of_mem _ hq)⟩, fun ho => ?_⟩
      exact (hk.told ho).imp id fun ht => ⟨ht.trailed.tail, fun hr' => absurd hr' hno⟩
    | @repeated S' =>
      -- a session is not prepared twice
      obtain ⟨rfl, rfl⟩ : S' = S ∧ Mail.prepare = m := by simpa [Packet.mail] using hm
      exact absurd List.mem_cons_self (hk.running (hruns.2 rfl))
    | @refused _ S' c code o r d t p hne =>
      obtain ⟨rfl, rfl⟩ : S' = S ∧ Mail.prepare = m := by simpa [Packet.mail] using hm
      exact kept_idle (hk.tried (.inr (.inl List.mem_cons_self))) (fun hr' => hne (hruns'.1 hr')) (not_mem_of_once hk.once)
    | @launched S' c o r d t p =>
      obtain ⟨rfl, rfl⟩ : S' = S ∧ Mail.prepare = m := by simpa [Packet.mail] using hm
      have hq : .prepare ∉ rest := not_mem_of_once hk.once
      have hover' : ¬st'.ended := fun h =>
        (hk.ended (ended_before hover (not_over (by simp) (by simp)) h)).2 List.mem_cons_self
      refine ⟨fun _ => hk.tried (.inr (.inl List.mem_cons_self)), hcount, fun _ => hq, fun ho => absurd ho hover', fun ho => ?_⟩
      exact (hk.told ho).imp id fun ht => ⟨ht.trailed.tail, fun _ => .inl ht.trailed.1⟩

end reactions

end Control
end CloudGaming
