import CloudGaming.Market.Runs
/-!
# Leases — whom a host lease names, and how long it lasts

Handlers run one at a time and no command fails.  A lease never points at a session that is over or that names another
host (`consistent_after`).  It outlives the stream it was taken for as long as the stream connects within the two minutes
after the prepare deadline (`outlives_after`).
-/
namespace CloudGaming
namespace Market

open Async Redis Relation

/-- The states in which a session may hold a host. -/
def SessionState.holding : SessionState → Bool
  | reserved | preparing | ready | active | ending => true
  | allocating | ended | failed => false

/-- The hosts that lease the session are the one its record names, and it is not over. -/
def View.Leased (v : View) : Prop :=
  ∀ h, v.lease h ≠ none → ∀ s, v.record = some s → s.hostId = some h ∧ s.state.holding = true

section turns
variable {w : World} {S : SessionId} {s s' : Session} {v v' : View} {code : String} {r : Request}

theorem View.Leased.store (hv : v.Leased) (hs : v.record = some s) (hl : v'.lease = v.lease) (hs' : v'.record = some s')
    (hh : s'.hostId = s.hostId) (hst : s.state.holding = true → s'.state.holding = true) : v'.Leased := by
  intro k hk t ht
  obtain rfl : s' = t := by rw [hs'] at ht; exact Option.some.inj ht
  rw [hl] at hk
  obtain ⟨hk', hk''⟩ := hv k hk s hs
  exact ⟨hh.trans hk', hst hk''⟩

/-- Once its host is released a session has no lease left. -/
theorem View.Leased.drop (hv : v.Leased) (hs : v.record = some s) (k : HostId) : (v.drop s.hostId).lease k = none := by
  change (if s.hostId = some k then none else v.lease k) = none
  split
  · rfl
  · rename_i hne
    by_contra hk
    exact hne (hv k hk s hs).1

theorem leased_deliver (hn : ∀ k, v.lease k = none) (s : Session) (attempted : List HostId) (h : HostId) (c : CommandId)
    (now : Nat) : (v.deliver s attempted h c now).Leased := by
  intro k hk t ht
  obtain rfl := Option.some.inj ht
  by_cases he : k = h
  · subst he; exact ⟨rfl, rfl⟩
  · exact absurd (by simp [View.deliver, he, hn]) hk

theorem GivenUp.leased (hv : v.Leased) (hs : v.record = some s) (hg : GivenUp w s code v v') : v'.Leased := by
  cases hg with
  | failed => exact fun k hk => absurd (hv.drop hs k) hk
  | moved hst attempted h c hd hnew hmem hsub => exact leased_deliver (hv.drop hs) _ attempted h c w.now

theorem View.Leased.stop (hv : v.Leased) (d : HostId → Bool) (h : Option HostId) : (v.stop d h).Leased := by
  obtain ⟨mail, he⟩ := stop_eq v d h
  rw [he]
  exact hv

theorem lease_stop (v : View) (d : HostId → Bool) (h : Option HostId) : (v.stop d h).lease = v.lease := by
  obtain ⟨mail, he⟩ := stop_eq v d h
  rw [he]

theorem Turn.leased (hv : (w.view S).Leased) (ht : Turn w S r v) : v.Leased := by
  cases ht with
  | created _ hu attempted h c => exact leased_deliver hu.lease _ attempted h c w.now
  | unavailable _ hu => exact fun k hk => absurd (hu.lease k) hk
  | deleted hs => exact hv.store hs (lease_stop _ _ _) rfl rfl fun _ => rfl
  | @acknowledged _ _ s hr =>
    refine hv.store hr.session rfl rfl ?_ ?_
    · unfold World.stamped; split <;> rfl
    · unfold World.stamped; split
      · exact fun _ => rfl
      · exact id
  | ready hr => exact hv.store hr.session rfl rfl rfl fun _ => rfl
  | connected hr => exact hv.store hr.session rfl rfl rfl fun _ => rfl
  | kept hr => exact hv.store hr.session rfl rfl rfl id
  | ended hr _ =>
    intro k hk
    rw [← hr.host] at hk
    exact absurd (hv.drop hr.session k) hk
  | @lost _ s _ _ hl hg =>
    obtain ⟨mail, he⟩ := warned_eq w S s r
    rw [he] at hg
    exact hg.leased (v := { w.view S with mail := mail }) hv hl.session
  | orphaned => exact hv.stop _ _
  | expired _ _ hs => exact hv.store hs (lease_stop _ _ _) rfl rfl fun _ => rfl
  | overdue => exact hv
  | unwatched => exact hv

end turns

/-! ## Lease and session agree -/

/-- A lease never points at a session that is over, nor at one that names another host. -/
def Consistent (w : World) : Prop :=
  ∀ h S s, w.lease h = some S → w.session S = some s →
    s.hostId = some h ∧ s.state ∈ [.reserved, .preparing, .ready, .active, .ending]

theorem SessionState.holding_iff {x : SessionState} :
    x.holding = true ↔ x ∈ [SessionState.reserved, .preparing, .ready, .active, .ending] := by
  cases x <;> decide

theorem consistent_iff {w : World} : Consistent w ↔ ∀ S, (w.view S).Leased := by
  constructor
  · intro hw S h hl s hs
    have hl' : w.lease h = some S := by rw [← view_lease_eq]; exact Option.ne_none_iff_isSome.1 hl
    exact ⟨(hw h S s hl' hs).1, SessionState.holding_iff.2 (hw h S s hl' hs).2⟩
  · intro hv h S s hl hs
    obtain ⟨hh, hst⟩ := hv S h (Option.ne_none_iff_isSome.2 (view_lease_eq.2 hl)) s hs
    exact ⟨hh, SessionState.holding_iff.1 hst⟩

theorem leased_ambient {S : SessionId} {v : View} (hv : v.Leased) (a : Ambient) : (v.ambient S a).Leased := by
  cases a with
  | expireLease h =>
    intro k hk
    by_cases he : k = h
    · subst he; simp [View.ambient] at hk
    · exact hv k (by simpa [View.ambient, he] using hk)
  | expireSession id =>
    unfold View.ambient
    dsimp only
    split
    · exact fun _ _ _ hs => by cases hs
    · exact hv
  | _ => exact hv

theorem leased_elapse {w : World} {S : SessionId} (hv : (w.view S).Leased) (millis : Nat) :
    ((w.elapse millis).view S).Leased := by
  obtain ⟨o, ho, he⟩ := view_elapse w S millis
  rw [he]
  intro k hk s hs
  refine hv k (fun hn => hk ?_) s ?_
  · simp [hn]
  · rcases ho with rfl | rfl
    · cases hs
    · exact hs

theorem leased_handle {w : World} (hf : Fresh w) (hw : ∀ S, (w.view S).Leased) (i : Input) (S : SessionId) :
    ((w.handle i).view S).Leased :=
  handle_induction (P := fun w => ∀ S, (w.view S).Leased) (fun w r h S => by rw [view_arrived]; exact h S)
    (fun _ _ _ h ha S => views_act (I := fun _ v => v.Leased) (fun _ _ hv ht => ht.leased hv) h ha S)
    (fun w a h S => by rw [view_ambient]; exact leased_ambient (h S) a)
    (fun _ m h S => leased_elapse (h S) m) hf hw i S

/-- **Lease and session agree**: after any sequence of inputs, each served to completion, and of expiries, a lease points
at a session that names the leased host and is not over. -/
theorem consistent_after (config : Config) (inputs : List Input) : Consistent (World.after config inputs) :=
  consistent_iff.2 (after_induction (P := fun w => ∀ S, (w.view S).Leased) (fun _ _ hk => absurd rfl hk)
    (fun _ i hf hw _ => leased_handle hf hw i) inputs (meets_of_forall (fun _ _ => trivial) inputs _))

/-! ## The lease outlives the stream -/

/-- `CLAIM_SCRIPT` leases the host for 300 seconds and the duration, 180 of which are up at the prepare deadline. -/
def graceMillis : Nat := 120000

/-- While a session may still connect its lease ends the grace and the duration after its prepare deadline; an active one
is leased to its end. -/
def View.Covered (v : View) (now : Nat) : Prop :=
  ∀ s, v.record = some s →
    (s.state.connectable = true → ∀ d h, s.prepareDeadlineAt = some d → s.hostId = some h →
      now < d + graceMillis + s.durationSeconds * 1000 → v.lease h = some (d + graceMillis + s.durationSeconds * 1000)) ∧
    (s.state = .active → ∃ h e, s.hostId = some h ∧ s.endsAt = some e ∧ (now < e → ∃ t, v.lease h = some t ∧ e ≤ t))

/-- A `session.stream_connected` that makes its session active comes within the grace of the prepare deadline. -/
def ConnectsInTime (w : World) : Request → Prop
  | .event h e => e.type = .streamConnected → ∀ s ∈ e.sessionId.bind w.session, s.hostId = some h →
      s.state.connectable = true → ∃ d ∈ s.prepareDeadlineAt, w.now ≤ d + graceMillis
  | _ => True

instance (w : World) : (r : Request) → Decidable (ConnectsInTime w r)
  | .event h e => inferInstanceAs (Decidable (e.type = .streamConnected → ∀ s ∈ e.sessionId.bind w.session,
      s.hostId = some h → s.state.connectable = true → ∃ d ∈ s.prepareDeadlineAt, w.now ≤ d + graceMillis))
  | .post .. | .delete .. | .presence _ | .control .. | .expireSessions | .expirePreparations
  | .expireDisconnectedHosts => isTrue trivial

/-- The surroundings act, but no time passes and no key expires. -/
def Ambient.timeless : Ambient → Bool
  | .accept _ | .closing _ | .closed _ | .congest .. | .reorder .. => true
  | .advance _ | .expireHost _ | .expireLease _ | .expireSession _ | .expirePlayer _ => false

/-- Time passes, and keys disappear, by `elapse` alone. -/
def Input.timed : Input → Bool
  | .ambient a => a.timeless
  | _ => true

/-- An input of a timed run; a stream connects in time. -/
def Timely (w : World) (i : Input) : Prop :=
  i.timed = true ∧ match i with
    | .request r => ConnectsInTime w r
    | _ => True

instance (w : World) : (i : Input) → Decidable (Timely w i)
  | .request r => inferInstanceAs (Decidable (_ ∧ ConnectsInTime w r))
  | .ambient _ | .connect _ | .disconnect _ | .elapse _ => inferInstanceAs (Decidable (_ ∧ True))

section turns
variable {w : World} {S : SessionId} {s : Session} {v v' : View} {code : String} {r : Request} {now : Nat}

theorem covered_iff (v : View) (now : Nat) {s : Session} (hs : v.record = some s) : v.Covered now ↔
    (s.state.connectable = true → ∀ d h, s.prepareDeadlineAt = some d → s.hostId = some h →
      now < d + graceMillis + s.durationSeconds * 1000 → v.lease h = some (d + graceMillis + s.durationSeconds * 1000)) ∧
    (s.state = .active → ∃ h e, s.hostId = some h ∧ s.endsAt = some e ∧ (now < e → ∃ t, v.lease h = some t ∧ e ≤ t)) := by
  constructor
  · exact fun h => h s hs
  · intro h t ht
    rw [hs] at ht
    obtain rfl := Option.some.inj ht
    exact h

theorem covered_idle (hs : v.record = some s) (hc : s.state.connectable = false) (ha : s.state ≠ .active) :
    v.Covered now :=
  (covered_iff v now hs).2 ⟨fun h => absurd h (by simp [hc]), fun h => absurd h ha⟩

theorem covered_deliver (v : View) (s : Session) (attempted : List HostId) (h : HostId) (c : CommandId) (now : Nat) :
    (v.deliver s attempted h c now).Covered now := by
  refine (covered_iff _ now rfl).2 ⟨fun _ d k hd hk _ => ?_, fun h => by cases h⟩
  obtain rfl : now + prepareMillis = d := Option.some.inj hd
  obtain rfl : h = k := Option.some.inj hk
  have hd' : now + prepareMillis + graceMillis + s.durationSeconds * 1000 = now + (s.durationSeconds + 300) * 1000 := by
    simp only [prepareMillis, graceMillis]; omega
  change Function.update v.lease h (some _) h = some (now + prepareMillis + graceMillis + s.durationSeconds * 1000)
  rw [Function.update_self, hd']

theorem GivenUp.covered (hg : GivenUp w s code v v') : v'.Covered w.now := by
  cases hg with
  | failed => exact covered_idle rfl rfl (fun h => by cases h)
  | moved hst attempted h c => exact covered_deliver _ _ attempted h c w.now

/-- The record is stored again and may still connect if it could. -/
theorem View.Covered.store {s' : Session} (hv : v.Covered now) (hs : v.record = some s) (hs' : v'.record = some s')
    (hl : v'.lease = v.lease)
    (hd : s'.prepareDeadlineAt = s.prepareDeadlineAt ∧ s'.hostId = s.hostId ∧ s'.endsAt = s.endsAt ∧
      s'.durationSeconds = s.durationSeconds)
    (hc : s'.state.connectable = true → s.state.connectable = true) (ha : s'.state = .active → s.state = .active) :
    v'.Covered now := by
  obtain ⟨h₁, h₂⟩ := hv s hs
  obtain ⟨hd₁, hd₂, hd₃, hd₄⟩ := hd
  refine (covered_iff v' now hs').2 ⟨fun h => ?_, fun h => ?_⟩
  · rw [hl, hd₁, hd₂, hd₄]; exact h₁ (hc h)
  · rw [hl, hd₂, hd₃]; exact h₂ (ha h)

theorem launching_connectable {x : SessionState} (h : x.launching = true) : x.connectable = true := by
  cases x <;> first | rfl | cases h

theorem Turn.covered (hv : (w.view S).Covered w.now) (hok : ConnectsInTime w r) (ht : Turn w S r v) : v.Covered w.now := by
  cases ht with
  | created _ _ attempted h c => exact covered_deliver _ _ attempted h c w.now
  | unavailable =>
    exact (covered_iff _ _ rfl).2 ⟨fun _ _ _ hd => absurd hd (by simp [allocatedTo, newSession]), fun h => by cases h⟩
  | deleted => exact covered_idle rfl rfl (fun h => by cases h)
  | @acknowledged _ _ s hr =>
    by_cases hl : s.state.launching = true
    · rw [if_pos hl]
      exact hv.store hr.session rfl rfl ⟨rfl, rfl, rfl, rfl⟩ (fun _ => launching_connectable hl) fun h => by cases h
    · rw [if_neg hl]
      exact hv.store hr.session rfl rfl ⟨rfl, rfl, rfl, rfl⟩ id id
  | ready hr _ hl =>
    exact hv.store hr.session rfl rfl ⟨rfl, rfl, rfl, rfl⟩ (fun _ => launching_connectable hl) fun h => by cases h
  | @connected h e s hr ht hc =>
    refine (covered_iff _ _ rfl).2 ⟨(fun h => by cases h), fun _ => ⟨h, w.now + s.durationSeconds * 1000, hr.host, rfl, fun hn => ?_⟩⟩
    -- the lease ends the grace and the duration after the deadline, the stream its duration after now
    obtain ⟨d, hd, hle⟩ := hok ht s (by simp [hr.event, hr.session]) hr.host hc
    refine ⟨d + graceMillis + s.durationSeconds * 1000, ?_, by omega⟩
    exact (hv s hr.session).1 hc d h hd hr.host (by omega)
  | kept hr => exact hv.store hr.session rfl rfl ⟨rfl, rfl, rfl, rfl⟩ id id
  | ended => exact covered_idle rfl rfl (fun h => by cases h)
  | lost _ hg => exact hg.covered
  | @orphaned h =>
    obtain ⟨mail, he⟩ := stop_eq (w.view S) w.deliverable (some h)
    rw [he]
    exact hv
  | expired => exact covered_idle rfl rfl (fun h => by cases h)
  | overdue => exact hv
  | unwatched => exact hv

/-- A `session.stream_connected` leaves no session that could connect. -/
theorem Turn.connectable {h : HostId} {e : HostEvent} (ht : e.type = .streamConnected) (hturn : Turn w S (.event h e) v)
    (hs : v.record = some s) : s.state.connectable = false := by
  cases hturn with
  | connected => obtain rfl := Option.some.inj hs; rfl
  | kept _ hk =>
    obtain rfl := Option.some.inj hs
    rcases hk with ⟨ht', -⟩ | ⟨-, hc⟩
    · rw [ht] at ht'; cases ht'
    · exact hc
  | acknowledged _ ht' => rw [ht] at ht'; cases ht'
  | ready _ ht' => rw [ht] at ht'; cases ht'
  | ended _ ht' => rw [ht] at ht'; cases ht'
  | lost hl =>
    cases hl with
    | failed _ ht' => rw [ht] at ht'; cases ht'
    | restarted ht' => rw [ht] at ht'; cases ht'
  | orphaned ht' => rw [ht] at ht'; cases ht'

theorem connectsInTime_act {w' : World} (hok : ConnectsInTime w r) (ha : Act r w w') : ConnectsInTime w' r := by
  cases r with
  | event h e =>
    intro ht s hs hh hc
    obtain ⟨S, he, hs⟩ := Option.bind_eq_some_iff.1 hs
    have hold : w.session S = some s → ∃ d ∈ s.prepareDeadlineAt, w.now ≤ d + graceMillis :=
      fun hs' => hok ht s (by simp [he, hs']) hh hc
    cases ha with
    | still hst => rw [hst.now]; exact hold ((congrArg View.record (hst.view S)).symm.trans hs)
    | turn S' hf hturn =>
      rw [hf.now]
      by_cases hne : S = S'
      · subst hne
        exact absurd hc (by simp [hturn.connectable ht hs])
      · exact hold ((congrArg View.record (hf.view S hne)).symm.trans hs)
  | _ => trivial

end turns

/-! The run -/

section runs
variable {w : World}

theorem covered_timeless {S : SessionId} {v : View} {now : Nat} (hv : v.Covered now) {a : Ambient}
    (ha : a.timeless = true) : (v.ambient S a).Covered now := by
  cases a with
  | accept | closing | closed | congest | reorder => exact hv
  | advance | expireHost | expireLease | expireSession | expirePlayer => cases ha

theorem now_timeless {a : Ambient} (ha : a.timeless = true) : (w.ambient a).now = w.now := by
  cases a with
  | accept | closing | closed | congest => rfl
  | reorder => simp only [World.ambient]; split <;> rfl
  | advance | expireHost | expireLease | expireSession | expirePlayer => cases ha

theorem covered_elapse {S : SessionId} (hv : (w.view S).Covered w.now) (millis : Nat) :
    ((w.elapse millis).view S).Covered (w.elapse millis).now := by
  obtain ⟨o, ho, he⟩ := view_elapse w S millis
  rw [he, show (w.elapse millis).now = w.now + millis from rfl]
  intro s hs
  have hs' : (w.view S).record = some s := by
    rcases ho with rfl | rfl
    · cases hs
    · exact hs
  obtain ⟨h₁, h₂⟩ := hv s hs'
  refine ⟨fun hc d h hd hh hn => ?_, fun ha => ?_⟩
  · simp [h₁ hc d h hd hh (by omega), hn]
  · obtain ⟨h, e, hh, he', hl⟩ := h₂ ha
    refine ⟨h, e, hh, he', fun hn => ?_⟩
    obtain ⟨t, ht, hle⟩ := hl (by omega)
    refine ⟨t, ?_, hle⟩
    simp [ht, Nat.lt_of_lt_of_le hn hle]

theorem covered_serve (hf : Fresh w) (hw : ∀ S, (w.view S).Covered w.now) {r : Request} (hok : ConnectsInTime w r) (S : SessionId) :
    ((w.serve r).view S).Covered (w.serve r).now := by
  have hserve := serve_induction (P := fun w => (∀ S, (w.view S).Covered w.now) ∧ ConnectsInTime w r) (r := r) hf ?_ ?_
  · exact hserve.1 S
  · refine ⟨fun S => ?_, by cases r <;> exact hok⟩
    have hn : (w.arrived r).now = w.now := by cases r <;> rfl
    rw [view_arrived, hn]
    exact hw S
  · rintro w w' ⟨h, hc⟩ ha
    refine ⟨fun S => ?_, connectsInTime_act hc ha⟩
    have hn : w'.now = w.now := by
      cases ha with
      | still hst => exact hst.now
      | turn S' hf => exact hf.now
    rw [hn]
    exact views_act (I := fun _ v => v.Covered w.now) (fun _ _ hv ht => ht.covered hv hc) h ha S

theorem covered_handle (hf : Fresh w) (hw : ∀ S, (w.view S).Covered w.now) {i : Input} (hok : Timely w i) (S : SessionId) :
    ((w.handle i).view S).Covered (w.handle i).now := by
  obtain ⟨htimed, hok⟩ := hok
  -- the connections change no record, no lease and not the clock
  have hambient : ∀ a : Ambient, a.timeless = true → ∀ S, ((w.ambient a).view S).Covered (w.ambient a).now := fun a ha S => by
    rw [view_ambient, now_timeless ha]
    exact covered_timeless (hw S) ha
  cases i with
  | request r => exact covered_serve hf hw hok S
  | connect h => exact covered_serve (r := .control h true) (fresh_ambient hf _) (hambient (.accept h) rfl) trivial S
  | disconnect h =>
    simp only [World.handle]
    split
    · exact covered_serve (r := .control h false) (fresh_ambient hf _) (hambient (.closed h) rfl) trivial S
    · exact hw S
  | ambient a => exact hambient a htimed S
  | elapse millis => exact covered_elapse (hw S) millis

/-- An active session is leased until it ends. -/
def Outlives (w : World) : Prop :=
  ∀ S s, w.session S = some s → s.state = .active →
    ∃ h e, s.hostId = some h ∧ s.endsAt = some e ∧ (w.now < e → w.lease h = some S)

theorem outlives_of_views (hw : ∀ S, (w.view S).Covered w.now) : Outlives w := by
  intro S s hs ha
  obtain ⟨h, e, hh, he, hl⟩ := (hw S s hs).2 ha
  refine ⟨h, e, hh, he, fun hn => ?_⟩
  obtain ⟨t, ht, -⟩ := hl hn
  rw [← view_lease_eq, ht]
  rfl

end runs

/-- **A lease outlives its stream** in every timed run in which each stream connects within two minutes of the prepare
deadline of its session. -/
theorem outlives_after (config : Config) (inputs : List Input) (hok : Meets Timely (World.init config) inputs) :
    Outlives (World.after config inputs) :=
  outlives_of_views (after_induction (P := fun w => ∀ S, (w.view S).Covered w.now) (fun _ _ hs => by cases hs)
    (fun _ _ hf hw hok => covered_handle hf hw hok) inputs hok)

/-- A host comes up, a session is prepared on it, the game is ready after `wait` milliseconds and the stream connects
`more` later. -/
def streamed (wait more : Nat) : List Input :=
  [.connect ⟨0⟩, .request (.presence (samplePresence ⟨0⟩ .idle)), .request (.post ⟨"ada"⟩ sampleRequest), .elapse wait,
    .request (.event ⟨0⟩ { type := .gameReady, sessionId := some ⟨2⟩ }), .elapse more,
    .request (.event ⟨0⟩ { type := .streamConnected, sessionId := some ⟨2⟩ })]

theorem outlives_streamed : Outlives (World.after ⟨60⟩ (streamed 150000 60000)) :=
  outlives_after ⟨60⟩ (streamed 150000 60000) (by decide +kernel)

/-- **A lease may end first**: a player who opens the stream 301 seconds after the prepare, which the host allows, loses
the lease in the last second. -/
theorem not_outlives : ¬∀ config inputs, (∀ i ∈ inputs, Input.timed i = true) → Outlives (World.after config inputs) := by
  intro ho
  obtain ⟨w, hw⟩ : ∃ w, w = World.after ⟨60⟩ (streamed 150000 151000 ++ [.elapse 299500]) := ⟨_, rfl⟩
  have hrec : (w.session ⟨2⟩).map (fun s => (s.state, s.hostId, s.endsAt)) = some (.active, some ⟨0⟩, some 601000) := by
    rw [hw]; decide +kernel
  have hnow : w.now = 600500 ∧ w.lease ⟨0⟩ = none := by rw [hw]; decide +kernel
  obtain ⟨s, hs, he⟩ := Option.map_eq_some_iff.1 hrec
  obtain ⟨hst, hh, he⟩ : s.state = .active ∧ s.hostId = some ⟨0⟩ ∧ s.endsAt = some 601000 := by simpa using he
  obtain ⟨h, e, hh', he', hl⟩ := ho ⟨60⟩ _ (by decide) ⟨2⟩ s (hw ▸ hs) hst
  rw [hh] at hh'
  rw [he] at he'
  obtain rfl := Option.some.inj hh'
  obtain rfl := Option.some.inj he'
  rw [← hw] at hl
  have := hl (by rw [hnow.1]; decide)
  rw [hnow.2] at this
  cases this

end Market
end CloudGaming
