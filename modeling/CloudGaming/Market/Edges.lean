import CloudGaming.Market.Alone
import CloudGaming.Market.Interleaved
import CloudGaming.Market.Runs
/-!
# Edges — the states a session record goes through

Every handler reads a session record, changes its copy and stores the copy.  `Permits` is what may be stored of a session
next, given all that was stored before; with handlers one at a time every record is permitted (`lawful_after`).  The
proof follows the handlers command by command, so it does not depend on which commands Redis rejects.
-/
namespace CloudGaming
namespace Market

open Async Redis

/-- The states a stored session may be taken to. -/
def SessionState.leadsTo : SessionState → SessionState → Bool
  | reserved, reserved | reserved, preparing | reserved, ready | reserved, active | reserved, ending | reserved, failed
  | reserved, ended => true
  | preparing, reserved | preparing, ready | preparing, active | preparing, ending | preparing, failed
  | preparing, ended => true
  | ready, reserved | ready, active | ready, ending | ready, failed | ready, ended => true
  | active, ending | active, failed | active, ended => true
  | ending, failed | ending, ended => true
  | _, _ => false

/-- A session that is taken to another state: it is reserved on another host, and prepared, run and stopped on its own. -/
structure Edge (o s : Session) : Prop where
  leads : o.state.leadsTo s.state = true
  moved : s.state = .reserved → s.hostId ≠ o.hostId
  hosted : s.state = .preparing ∨ s.state = .ready ∨ s.state = .active ∨ s.state = .ending → s.hostId = o.hostId

/-- The history allows the record to be stored: it keeps its state or follows an edge, no record in a final state is
replaced, a session that was active does not wait for a stream again, and its times are set once and together. -/
structure Permits (tr : List Obs) (s : Session) : Prop where
  first : newest tr s.id = none → s.state = .reserved
  edge : ∀ o, newest tr s.id = some o → s.state = o.state ∧ s.hostId = o.hostId ∨ Edge o s
  final : ∀ o ∈ records tr, o.id = s.id → o.state.terminal = false
  begun : ∀ o ∈ records tr, o.id = s.id → o.state = .active → s.state.connectable = false
  once : ∀ o ∈ records tr, o.id = s.id → o.startsAt ≠ none → s.startsAt = o.startsAt ∧ s.endsAt = o.endsAt
  times : s.endsAt = s.startsAt.map (· + 1000 * s.durationSeconds)

/-- Newest first: every record was permitted when it was stored. -/
def Lawful : List Obs → Prop
  | [] => True
  | .wrote s :: tr => Permits tr s ∧ Lawful tr
  | _ :: tr => Lawful tr

/-! ## Storing a record -/

/-- What holds of every record that is stored: a session that waits for its stream has no times yet, and its host is
among those it was tried on. -/
structure Session.Sound (s : Session) : Prop where
  state : s.state ≠ .allocating
  waiting : s.state.connectable = true → s.startsAt = none ∧ ∃ h ∈ s.attemptedHostIds, s.hostId = some h
  times : s.endsAt = s.startsAt.map (· + 1000 * s.durationSeconds)

/-- Record `s` may replace record `o`. -/
structure Succeeds (o s : Session) : Prop where
  id : s.id = o.id
  live : o.state.terminal = false
  edge : s.state = o.state ∧ s.hostId = o.hostId ∨ Edge o s
  once : o.startsAt ≠ none → s.startsAt = o.startsAt ∧ s.endsAt = o.endsAt

/-- Only a session that waits for its stream is taken to a state in which it waits. -/
theorem Succeeds.connectable {o s : Session} (h : Succeeds o s) (hs : s.state.connectable = true) :
    o.state.connectable = true := by
  rcases h.edge with ⟨he, -⟩ | he
  · rwa [← he]
  · have hl := he.leads
    revert hs hl
    cases o.state <;> cases s.state <;> simp [SessionState.leadsTo, SessionState.connectable]

/-- The stamp of `saveSession` makes no difference. -/
theorem Succeeds.stamped {o s : Session} (h : Succeeds o s) (n : Nat) : Succeeds o { s with updatedAt := n } :=
  ⟨h.id, h.live, h.edge.imp (fun h => h) fun he => ⟨he.leads, he.moved, he.hosted⟩, h.once⟩

theorem Session.Sound.stamped {s : Session} (h : s.Sound) (n : Nat) : ({ s with updatedAt := n } : Session).Sound :=
  ⟨h.state, h.waiting, h.times⟩

theorem lawful_append {ext tr : List Obs} (hw : ∀ id, written ext id = 0) : Lawful (ext ++ tr) ↔ Lawful tr := by
  induction ext with
  | nil => rfl
  | cons o ext ih =>
    cases o with
    | wrote s => have := hw s.id; simp [written] at this
    | _ => exact ih hw

theorem records_append {ext tr : List Obs} (hw : ∀ id, written ext id = 0) : records (ext ++ tr) = records tr := by
  induction ext with
  | nil => rfl
  | cons o ext ih =>
    cases o with
    | wrote s => have := hw s.id; simp [written] at this
    | _ => exact ih hw

theorem permits_append {ext tr : List Obs} {s : Session} (hw : ∀ id, written ext id = 0) (h : Permits tr s) :
    Permits (ext ++ tr) s := by
  have hn : newest (ext ++ tr) s.id = newest tr s.id := newest_append (hw s.id)
  have hr : records (ext ++ tr) = records tr := records_append hw
  exact ⟨by rw [hn]; exact h.first, by rw [hn]; exact h.edge, by rw [hr]; exact h.final, by rw [hr]; exact h.begun,
    by rw [hr]; exact h.once, h.times⟩

/-- **What a lawful history says of an older record**, `o` being the newest of its session. -/
theorem Lawful.older {tr : List Obs} (h : Lawful tr) {o r : Session} (ho : newest tr o.id = some o) (hr : r ∈ records tr)
    (hid : r.id = o.id) : r = o ∨ r.state.terminal = false ∧ (r.state = .active → o.state.connectable = false) ∧
      (r.startsAt ≠ none → o.startsAt = r.startsAt ∧ o.endsAt = r.endsAt) := by
  induction tr with
  | nil => cases hr
  | cons x tr ih =>
    cases x with
    | wrote s =>
      unfold newest at ho
      have hr' : r = s ∨ r ∈ records tr := List.mem_cons.1 hr
      by_cases hs : s.id = o.id
      · rw [if_pos hs] at ho
        obtain rfl := Option.some.inj ho
        rcases hr' with rfl | hr'
        · exact .inl rfl
        · exact .inr ⟨h.1.final r hr' hid, h.1.begun r hr' hid, h.1.once r hr' hid⟩
      · rw [if_neg hs] at ho
        rcases hr' with rfl | hr'
        · exact absurd hid hs
        · exact ih h.2 ho hr'
    | _ => exact ih h ho hr

/-- **A record that may replace the newest one is permitted.** -/
theorem Succeeds.permits {tr : List Obs} {o s : Session} (h : Succeeds o s) (hl : Lawful tr)
    (ho : newest tr s.id = some o) (hs : s.Sound) : Permits tr s := by
  have ho' : newest tr o.id = some o := by rw [← h.id]; exact ho
  have older : ∀ r ∈ records tr, r.id = s.id → _ := fun r hr hid => hl.older ho' hr (hid.trans h.id)
  refine ⟨fun hn => ?_, fun o' h' => ?_, fun r hr hid => ?_, fun r hr hid ha => ?_, fun r hr hid ht => ?_, hs.times⟩
  · rw [hn] at ho; cases ho
  · obtain rfl := Option.some.inj (ho.symm.trans h')
    exact h.edge
  · rcases older r hr hid with rfl | ⟨ht, -⟩
    · exact h.live
    · exact ht
  · -- where the session waited again, so did the newest record
    by_contra hc
    have hwait := h.connectable (by simpa using hc)
    rcases older r hr hid with rfl | ⟨-, hb, -⟩
    · rw [ha] at hwait; cases hwait
    · rw [hb ha] at hwait; cases hwait
  · rcases older r hr hid with rfl | ⟨-, -, hsame⟩
    · exact h.once ht
    · obtain ⟨he, he'⟩ := hsame ht
      rw [← he, ← he']
      exact h.once (by rw [he]; exact ht)

theorem written_of_mem {tr : List Obs} {r : Session} (h : r ∈ records tr) : 0 < written tr r.id := by
  induction tr with
  | nil => cases h
  | cons x tr ih =>
    cases x with
    | wrote s =>
      unfold written
      rcases List.mem_cons.1 (show r ∈ s :: records tr from h) with rfl | h
      · rw [if_pos rfl]; omega
      · have := ih h
        omega
    | _ => exact ih h

theorem permits_first {tr : List Obs} {s : Session} (hn : newest tr s.id = none) (hs : s.Sound) (hst : s.state = .reserved) :
    Permits tr s := by
  have hno : ∀ r ∈ records tr, r.id ≠ s.id := fun r hr hid => by
    have := written_of_mem hr
    rw [hid, newest_eq_none.1 hn] at this
    exact Nat.lt_irrefl 0 this
  refine ⟨fun _ => hst, fun o ho => ?_, fun r hr hid => absurd hid (hno r hr), fun r hr hid => absurd hid (hno r hr),
    fun r hr hid => absurd hid (hno r hr), hs.times⟩
  rw [hn] at ho; cases ho

/-! ## The invariant -/

/-- What handlers one at a time keep. -/
structure Ruled (w : World) : Prop where
  stored : ∀ id s, w.session id = some s → newest w.trace id = some s
  sound : ∀ id s, newest w.trace id = some s → s.Sound
  drawn : ∀ id, newest w.trace id ≠ none → id.uuid < w.nextUuid
  listed : ∀ g, (w.idle g).Nodup
  lawful : Lawful w.trace

/-- A change that stores no record. -/
structure Silent (w w' : World) : Prop where
  trace : ∃ ext, w'.trace = ext ++ w.trace ∧ ∀ id, written ext id = 0
  session : ∀ id s, w'.session id = some s → w.session id = some s
  nextUuid : w.nextUuid ≤ w'.nextUuid
  listed : (∀ g, (w.idle g).Nodup) → ∀ g, (w'.idle g).Nodup

section silent
variable {w w' : World}

theorem Silent.newest_eq (h : Silent w w') (id : SessionId) : newest w'.trace id = newest w.trace id := by
  obtain ⟨ext, he, hw⟩ := h.trace
  rw [he, newest_append (hw id)]

theorem Silent.ruled (h : Silent w w') (hI : Ruled w) : Ruled w' where
  stored id s hs := by rw [h.newest_eq]; exact hI.stored id s (h.session id s hs)
  sound id s hs := hI.sound id s (by rwa [h.newest_eq] at hs)
  drawn id hn := Nat.lt_of_lt_of_le (hI.drawn id (by rwa [h.newest_eq] at hn)) h.nextUuid
  listed := h.listed hI.listed
  lawful := by
    obtain ⟨ext, he, hw⟩ := h.trace
    rw [he]
    exact (lawful_append hw).2 hI.lawful

/-- A change of neither the history nor the idle sets. -/
theorem Silent.of_eq (ht : w'.trace = w.trace) (hs : ∀ id s, w'.session id = some s → w.session id = some s)
    (hu : w.nextUuid ≤ w'.nextUuid) (hi : w'.idle = w.idle) : Silent w w' :=
  ⟨⟨[], ht, fun _ => rfl⟩, hs, hu, fun h => by rwa [hi]⟩

/-- **A permitted record is stored.** -/
theorem Stores.ruled {s : Session} (h : Stores w s w') (hI : Ruled w) (hp : Permits w.trace s) (hs : s.Sound)
    (hd : s.id.uuid < w.nextUuid) (hu : w'.nextUuid = w.nextUuid) (hi : ∀ g, (w'.idle g).Nodup) : Ruled w' where
  stored id s₁ h₁ := by
    rw [h.session] at h₁
    rw [h.newest_eq]
    by_cases he : id = s.id
    · rw [if_pos he] at h₁
      rwa [if_pos he.symm]
    · rw [if_neg he] at h₁
      rw [if_neg (Ne.symm he)]
      exact hI.stored id s₁ h₁
  sound id s₁ h₁ := by
    rw [h.newest_eq] at h₁
    split at h₁
    · cases h₁; exact hs
    · exact hI.sound id s₁ h₁
  drawn id hn := by
    rw [hu]
    rw [h.newest_eq] at hn
    split at hn
    · rename_i he; rwa [← he]
    · exact hI.drawn id hn
  listed := hi
  lawful := by
    obtain ⟨ext, he, hw, -⟩ := h.trace
    rw [he, List.cons_append]
    exact ⟨permits_append hw hp, (lawful_append hw).2 hI.lawful⟩

end silent

/-! ## What stores no record -/

/-- Whether a command may store a record. -/
def Cmd.storing : Cmd → Bool
  | setSession _ | claim .. => true
  | _ => false

section commands
variable (w : World)

theorem silent_release (h : HostId) (id : SessionId) : Silent w (w.release h id) where
  trace := by
    rcases trace_release w (S := id) h with ht | ht
    · exact ⟨[], ht, fun _ => rfl⟩
    · exact ⟨[.released h id], ht, fun _ => rfl⟩
  session id' s hs := by rwa [World.session, (release_frame w h id).1] at hs
  nextUuid := Nat.le_of_eq (release_frame w h id).2.2.2.2.2.2.2.2.symm
  listed hi := by
    unfold World.release
    split
    · split
      · exact hi
      · exact nodup_enlist hi h _
    · exact hi

theorem silent_presence (p : Presence) (lastSeenAt : Nat) : Silent w (w.presence p lastSeenAt) where
  trace := ⟨[], rfl, fun _ => rfl⟩
  session _ _ hs := hs
  nextUuid := Nat.le_refl _
  listed hi := by
    have henlist : ∀ {idle : GameId → List HostId}, (∀ g, (idle g).Nodup) → ∀ g,
        ((if (w.lease p.hostId).isNone ∧ p.state = .idle then World.enlist idle p.hostId p.games else idle) g).Nodup := by
      intro idle hidle g
      split
      · exact nodup_enlist hidle p.hostId p.games g
      · exact hidle g
    unfold World.presence
    cases hr : w.hosts.get p.hostId with
    | none => exact henlist hi
    | some r => exact henlist (nodup_delist w hi p.hostId r.1.games)

theorem silent_exec {c : Cmd} (hc : c.storing = false) : Silent w (exec c w).2 := by
  cases c with
  | setSession | claim => cases hc
  | release h id =>
    cases h with
    | none => exact .of_eq rfl (fun _ _ h => h) (Nat.le_refl _) rfl
    | some h => exact silent_release w h id
  | presence p now => exact silent_presence w p now
  | lockPlayer p id seconds =>
    simp only [exec, World.lockPlayer]
    split <;> exact .of_eq rfl (fun _ _ h => h) (Nat.le_refl _) rfl
  | _ => exact .of_eq rfl (fun _ _ h => h) (Nat.le_refl _) rfl

theorem silent_call (o : Call) : Silent w (call o w).2 := by
  cases o with
  | dateNow | connected => exact .of_eq rfl (fun _ _ h => h) (Nat.le_refl _) rfl
  | send h c =>
    cases h with
    | none => exact .of_eq rfl (fun _ _ h => h) (Nat.le_refl _) rfl
    | some h =>
      simp only [call]
      split
      · cases c with
        | prepare id => exact ⟨⟨[.prepared h id], rfl, fun _ => rfl⟩, fun _ _ h => h, Nat.le_succ _, fun h => h⟩
        | stop => exact .of_eq rfl (fun _ _ h => h) (Nat.le_succ _) rfl
      · exact .of_eq rfl (fun _ _ h => h) (Nat.le_refl _) rfl

theorem silent_ambient (a : Ambient) : Silent w (w.ambient a) := by
  cases a with
  | expireSession id =>
    refine .of_eq rfl (fun id' s hs => ?_) (Nat.le_refl _) rfl
    rw [session_expireSession] at hs
    split at hs
    · cases hs
    · exact hs
  | reorder g ids =>
    unfold World.ambient
    dsimp only
    split
    · rename_i hp
      refine ⟨⟨[], rfl, fun _ => rfl⟩, fun _ _ h => h, Nat.le_refl _, fun hi k => ?_⟩
      by_cases hk : k = g
      · subst hk; simpa using hp.nodup_iff.2 (hi k)
      · simpa [hk] using hi k
    · exact .of_eq rfl (fun _ _ h => h) (Nat.le_refl _) rfl
  | _ => exact .of_eq rfl (fun _ _ h => h) (Nat.le_refl _) rfl

theorem silent_elapse (millis : Nat) : Silent w (w.elapse millis) := by
  refine .of_eq rfl (fun id s hs => ?_) (Nat.le_refl _) rfl
  obtain ⟨s', hs', rfl⟩ := Option.map_eq_some_iff.1 hs
  exact Option.map_eq_some_iff.2 ⟨s', Keys.get_sweep_of_some (m := w.sessions) (t := w.now + millis) hs', rfl⟩

theorem silent_arrived (r : Request) : Silent w (w.arrived r) := by
  cases r with
  | event h e => exact ⟨⟨[.heard h e], rfl, fun _ => rfl⟩, fun _ _ h => h, Nat.le_succ _, fun h => h⟩
  | presence p => exact ⟨⟨[.presence p.hostId p.state], rfl, fun _ => rfl⟩, fun _ _ h => h, Nat.le_succ _, fun h => h⟩
  | _ => exact .of_eq rfl (fun _ _ h => h) (Nat.le_succ _) rfl

end commands

/-! ## Handlers alone -/

/-- The program, alone, keeps the invariant and returns with `P`, whatever commands are rejected. -/
abbrev Obeys {α : Type} (p : Js α) (P : α → World → Prop) (w : World) : Prop :=
  Safe alone anyCommand Ruled (fun u w w' => u = 0 → w' = w) 0 p (Returns fun a _ => P a) () w

/-- What changes that store no record leave true. -/
def Lasting (P : World → Prop) : Prop := ∀ w w', Silent w w' → P w → P w'

/-- `s` is the newest record of its session. -/
def Last (s : Session) (w : World) : Prop := newest w.trace s.id = some s

theorem lasting_last (s : Session) : Lasting (Last s) := fun _ _ h hl => (h.newest_eq s.id).trans hl

/-- The newest record of a live session, as its handler read it. -/
structure Held (s : Session) (w : World) : Prop where
  last : Last s w
  drawn : s.id.uuid < w.nextUuid
  sound : s.Sound
  live : s.state.terminal = false

theorem lasting_held (s : Session) : Lasting (Held s) := fun w w' hq h =>
  ⟨lasting_last s w w' hq h.last, Nat.lt_of_lt_of_le h.drawn hq.nextUuid, h.sound, h.live⟩

/-- The watch over what is stored. -/
def ruling : Watch where
  Inv := Ruled
  Quiet := Silent
  Live := Held
  inv_quiet h hI := h.ruled hI
  quiet_exec w c hc := silent_exec w (by cases c <;> first | rfl | cases hc)
  quiet_call := silent_call
  live_quiet s := lasting_held s
  live_session {s w} hI hs hl := by
    have hn := hI.stored s.id s hs
    exact ⟨hn, hI.drawn _ (by rw [hn]; nofun), hI.sound _ s hn, hl⟩

section obeys
variable {w : World} {s : Session}

theorem obeys_setSession (s : Session) {o : Session} (ho : newest w.trace s.id = some o) (h : Succeeds o s) (hs : s.Sound) :
    Obeys (await (.setSession s)) (fun _ => Last s) w := by
  refine safe_send fun w' hr hI => ⟨trivial, fun _ => ?_⟩
  obtain rfl := hr rfl
  have hst := stores_write w' s
  have hd : s.id.uuid < w'.nextUuid := hI.drawn s.id (by rw [ho]; nofun)
  refine ⟨hst.ruled hI (h.permits hI.lawful ho hs) hs hd rfl hI.listed, fun u hu h0 => absurd h0 hu, ?_, trivial⟩
  exact (hst.newest_eq s.id).trans (if_pos rfl)

theorem obeys_saveSession (s : Session) {o : Session} (ho : Last o w) (h : Succeeds o s) (hs : s.Sound) :
    Obeys (saveSession s) (fun _ _ => True) w := by
  have ho' : newest w.trace s.id = some o := by rw [h.id]; exact ho
  unfold saveSession
  refine (ruling.invoked .dateNow (P := fun w => newest w.trace s.id = some o)
    (fun _ _ hq hl => (hq.newest_eq s.id).trans hl) ho').seq fun n _ w₁ h₁ => ?_
  dsimp only
  refine (obeys_setSession { s with updatedAt := n } h₁ (h.stamped n) (hs.stamped n)).seq fun _ _ w₂ _ => ?_
  refine (ruling.quiet rfl ruling.stable_true trivial).seq fun _ _ w₃ _ => ?_
  exact (ruling.quiet rfl ruling.stable_true trivial).seq fun _ _ _ _ => trivial

/-! ## Allocation -/

/-- Session `s` is to be tried on hosts: its newest record, if there is one, waits for its stream on a host among those
`attempted`; there is one if `known` says so. -/
structure Waits (s : Session) (attempted : List HostId) (known : Prop) (w : World) : Prop where
  drawn : s.id.uuid < w.nextUuid
  times : s.startsAt = none ∧ s.endsAt = none
  known : known → newest w.trace s.id ≠ none
  last : ∀ o, newest w.trace s.id = some o →
    o.state.connectable = true ∧ o.startsAt = none ∧ ∀ h, o.hostId = some h → h ∈ attempted

theorem lasting_waits (s : Session) (attempted : List HostId) (known : Prop) : Lasting (Waits s attempted known) :=
  fun _ _ hq h => ⟨Nat.lt_of_lt_of_le h.drawn hq.nextUuid, h.times, by rw [hq.newest_eq]; exact h.known,
    by rw [hq.newest_eq]; exact h.last⟩

theorem Waits.mono {attempted attempted' : List HostId} {known : Prop} (h : Waits s attempted known w)
    (hsub : ∀ k ∈ attempted, k ∈ attempted') : Waits s attempted' known w := by
  refine ⟨h.drawn, h.times, h.known, fun o ho => ?_⟩
  obtain ⟨hc, hst, hhost⟩ := h.last o ho
  exact ⟨hc, hst, fun k hk => hsub k (hhost k hk)⟩

/-- Once it is reserved on a host, the session waits there. -/
theorem Waits.reserved {attempted : List HostId} {known : Prop} {h : HostId} (hd : s.id.uuid < w.nextUuid)
    (ht : s.startsAt = none ∧ s.endsAt = none) (hl : Last (allocatedTo s attempted h) w) (hmem : h ∈ attempted) :
    Waits s attempted known w := by
  have hl' : newest w.trace s.id = some (allocatedTo s attempted h) := hl
  refine ⟨hd, ht, fun _ => by rw [hl']; nofun, fun o ho => ?_⟩
  obtain rfl := Option.some.inj (hl'.symm.trans ho)
  exact ⟨rfl, ht.1, fun k hk => by cases hk; exact hmem⟩

theorem sound_allocatedTo {attempted : List HostId} {h : HostId} (ht : s.startsAt = none ∧ s.endsAt = none)
    (hmem : h ∈ attempted) : (allocatedTo s attempted h).Sound :=
  ⟨nofun, fun _ => ⟨ht.1, h, hmem, rfl⟩, by simp [allocatedTo, ht.1, ht.2]⟩

/-- **A session may be reserved on a host it was not tried on.** -/
theorem Waits.permits {attempted : List HostId} {known : Prop} {h : HostId} (hw : Waits s attempted known w) (hI : Ruled w)
    (hnew : h ∉ attempted) : Permits w.trace (allocatedTo s (sadd attempted h) h) := by
  have hsound : (allocatedTo s (sadd attempted h) h).Sound := sound_allocatedTo hw.times (mem_sadd.2 (.inr rfl))
  cases hn : newest w.trace s.id with
  | none => exact permits_first hn hsound rfl
  | some o =>
    obtain ⟨hc, hst, hhost⟩ := hw.last o hn
    have hid : o.id = s.id := newest_id hn
    refine Succeeds.permits ⟨hid.symm, ?_, .inr ⟨?_, fun _ he => ?_, nofun⟩, fun ht => ?_⟩ hI.lawful hn hsound
    · revert hc; cases o.state <;> simp [SessionState.connectable, SessionState.terminal]
    · revert hc
      cases o.state <;> simp [SessionState.connectable, SessionState.leadsTo, allocatedTo]
    · exact hnew (hhost h he.symm)
    · exact absurd hst ht

theorem obeys_claim {attempted : List HostId} {known : Prop} {h : HostId} (hw : Waits s attempted known w)
    (hnew : h ∉ attempted) :
    Obeys (await (.claim h (allocatedTo s (sadd attempted h) h))) (fun r w' =>
      if r.isNone = true then Waits s (sadd attempted h) known w'
      else s.id.uuid < w'.nextUuid ∧ Last (allocatedTo s (sadd attempted h) h) w') w := by
  refine safe_send fun w' hr hI => ⟨trivial, fun _ => ?_⟩
  obtain rfl := hr rfl
  obtain ⟨a, ha⟩ : ∃ a, a = allocatedTo s (sadd attempted h) h := ⟨_, rfl⟩
  rw [← ha]
  change Ruled (exec (.claim h a) w').2 ∧ _
  cases hc : w'.claimable h a.gameId with
  | none =>
    rw [show alone.machine.exec (.claim h a) w' = _ from exec_claim_none hc, exec_claim_none hc]
    exact ⟨hI, fun u hu h0 => absurd h0 hu, hw.mono fun k hk => mem_sadd.2 (.inl hk), trivial⟩
  | some r =>
    have hst : Stores w' a (w'.reserve h r a) := stores_reserve w' h r a (by rw [ha]; rfl)
    have hp : Permits w'.trace a := by rw [ha]; exact hw.permits hI hnew
    have hs : a.Sound := by rw [ha]; exact sound_allocatedTo hw.times (mem_sadd.2 (.inr rfl))
    have hid : a.id = s.id := by rw [ha]; rfl
    rw [show alone.machine.exec (.claim h a) w' = _ from exec_claim_some hc, exec_claim_some hc]
    refine ⟨hst.ruled hI hp hs (by rw [hid]; exact hw.drawn) rfl fun g => nodup_delist w' hI.listed h r.1.games g,
      fun u hu h0 => absurd h0 hu, ⟨hw.drawn, ?_⟩, trivial⟩
    exact (hst.newest_eq a.id).trans (if_pos rfl)

/-- The host the session was reserved on is prepared, or is released again and the session waits on. -/
theorem obeys_prepareOn {attempted : List HostId} {known : Prop} (host : HostRecord) (hd : s.id.uuid < w.nextUuid)
    (ht : s.startsAt = none ∧ s.endsAt = none) (hl : Last (allocatedTo s attempted host.hostId) w)
    (hmem : host.hostId ∈ attempted) :
    Obeys (prepareOn s attempted host) (fun r w' => r = none → Waits s attempted known w') w := by
  have hP : Lasting fun w => s.id.uuid < w.nextUuid ∧ Last (allocatedTo s attempted host.hostId) w :=
    fun w w' hq h => ⟨Nat.lt_of_lt_of_le h.1 hq.nextUuid, lasting_last _ w w' hq h.2⟩
  unfold prepareOn
  refine (ruling.invoked .dateNow hP ⟨hd, hl⟩).seq fun now _ w₁ h₁ => ?_
  dsimp only
  refine (ruling.invoked _ hP h₁).seq fun commandId _ w₂ h₂ => ?_
  split
  · refine (ruling.quiet rfl hP h₂).seq fun _ _ w₃ h₃ => ?_
    exact fun _ => .reserved h₃.1 ht h₃.2 hmem
  · refine (obeys_saveSession { allocatedTo s attempted host.hostId with
        state := .preparing, commandId := commandId, prepareDeadlineAt := some (now + prepareMillis) } h₂.2
      ⟨rfl, rfl, .inr ⟨rfl, nofun, fun _ => rfl⟩, fun h => absurd ht.1 h⟩ ⟨nofun, fun _ => ⟨ht.1, host.hostId, hmem, rfl⟩, ?_⟩).seq fun r _ w₃ _ => ?_
    · simp [allocatedTo, ht.1, ht.2]
    · exact (ruling.quiet rfl ruling.stable_true trivial).seq fun _ _ _ _ h => by cases h

/-- Once the first candidate is tried, the others are untried still. -/
theorem untried_of_cons {host : HostRecord} {candidates : List HostRecord} {attempted : List HostId}
    (hfirst : host.hostId ∉ candidates.map HostRecord.hostId) (hnew : ∀ x ∈ host :: candidates, x.hostId ∉ attempted) :
    ∀ x ∈ candidates, x.hostId ∉ sadd attempted host.hostId := by
  intro x hx hmem
  rcases mem_sadd.1 hmem with h | h
  · exact hnew x (List.mem_cons_of_mem _ hx) h
  · exact hfirst (h ▸ List.mem_map_of_mem hx)

/-- **The candidate loop**: every candidate is another host than those before it. -/
theorem obeys_claimFirst {known : Prop} : ∀ (candidates : List HostRecord) (attempted : List HostId) {w : World},
    (candidates.map HostRecord.hostId).Nodup → (∀ x ∈ candidates, x.hostId ∉ attempted) → Waits s attempted known w →
    Obeys (claimFirst s attempted candidates) (fun r w' => r = none → ∃ attempted', Waits s attempted' known w') w
  | [], attempted, _, _, _, hw => fun _ => ⟨attempted, hw⟩
  | host :: candidates, attempted, w, hnd, hnew, hw => by
    obtain ⟨hfirst, hnd⟩ := List.nodup_cons.1 hnd
    have hnew' := untried_of_cons hfirst hnew
    unfold claimFirst
    dsimp only
    refine (obeys_claim hw (hnew host List.mem_cons_self)).seq fun claimed _ w₁ h₁ => ?_
    dsimp only at h₁
    by_cases hc : claimed.isNone = true
    · rw [if_pos hc] at h₁ ⊢
      exact obeys_claimFirst candidates _ hnd hnew' h₁
    · rw [if_neg hc] at h₁ ⊢
      have hprepared : Obeys (prepareOn s (sadd attempted host.hostId) host)
          (fun r w' => r = none → Waits s (sadd attempted host.hostId) known w') w₁ :=
        obeys_prepareOn host h₁.1 hw.times h₁.2 (mem_sadd.2 (.inr rfl))
      refine hprepared.seq fun r _ w₂ h₂ => ?_
      cases r with
      | some a => exact fun h => absurd h (Option.some_ne_none a)
      | none => exact obeys_claimFirst candidates _ hnd hnew' (h₂ rfl)

/-- The candidates are different hosts, none of which the session was tried on. -/
theorem rankCandidates_hosts {records : List (Option HostRecord)} {ids : List HostId} (connected : HostId → Bool)
    (hr : records = ids.map w.host) (hnd : ids.Nodup) (hids : ∀ h ∈ ids, h ∉ s.attemptedHostIds) :
    ((rankCandidates s records connected).map HostRecord.hostId).Nodup ∧
      ∀ x ∈ rankCandidates s records connected, x.hostId ∉ s.attemptedHostIds := by
  have hsub : ((records.filterMap id).map HostRecord.hostId).Sublist ids := by
    subst hr
    clear hnd hids
    induction ids with
    | nil => exact List.Sublist.slnil
    | cons h ids ih =>
      cases hh : w.host h with
      | none => simpa [hh] using ih.cons h
      | some r => simpa [hh, host_id hh] using ih
  have hfilter := (List.filter_sublist (p := fun host : HostRecord => connected host.hostId)
    (l := records.filterMap id)).map HostRecord.hostId
  have hperm : (rankCandidates s records connected).Perm ((records.filterMap id).filter fun host => connected host.hostId) :=
    List.perm_insertionSort _ _
  refine ⟨(hperm.map HostRecord.hostId).nodup_iff.2 (hnd.sublist (hfilter.trans hsub)), fun x hx => hids _ ?_⟩
  exact (hfilter.trans hsub).subset (List.mem_map_of_mem (hperm.mem_iff.1 hx))

theorem obeys_allocateSession {known : Prop} (hw : Waits s s.attemptedHostIds known w) :
    Obeys (allocateSession s) (fun r w' => r = none → ∃ attempted, Waits s attempted known w') w := by
  unfold allocateSession
  refine Safe.seq (P := fun ids _ w' => ids.Nodup ∧ Waits s s.attemptedHostIds known w')
    (safe_send fun w' hr hI => ⟨trivial, fun _ => ?_⟩) fun ids _ w₁ h₁ => ?_
  · obtain rfl := hr rfl
    exact ⟨hI, fun u hu h0 => absurd h0 hu, ⟨hI.listed s.gameId, hw⟩, trivial⟩
  · dsimp only
    split
    · exact fun _ => ⟨_, h₁.2⟩
    · obtain ⟨eligible, he⟩ : ∃ eligible, eligible = ids.filter (· ∉ s.attemptedHostIds) := ⟨_, rfl⟩
      rw [← he]
      refine Safe.seq (P := fun records _ w' => (∃ w'' : World, records = eligible.map w''.host) ∧
          Waits s s.attemptedHostIds known w')
        (safe_send fun w' hr hI => ⟨trivial, fun _ => ?_⟩) fun records _ w₂ h₂ => ?_
      · obtain rfl := hr rfl
        exact ⟨hI, fun u hu h0 => absurd h0 hu, ⟨⟨w', rfl⟩, h₁.2⟩, trivial⟩
      · obtain ⟨⟨w₀, hrec⟩, hw₂⟩ := h₂
        refine (ruling.invoked .connected (lasting_waits s _ known) hw₂).seq fun connected _ w₃ h₃ => ?_
        obtain ⟨hnd, hnew⟩ := rankCandidates_hosts (s := s) connected hrec (by rw [he]; exact h₁.1.filter _)
          fun h hh => by rw [he] at hh; simpa using (List.mem_filter.1 hh).2
        exact obeys_claimFirst _ _ hnd hnew h₃

/-! ## The other writes -/

/-- A record on the same host that keeps its state or follows an edge. -/
theorem obeys_saveHeld (s' : Session) (h : Held s w) (hid : s'.id = s.id) (hh : s'.hostId = s.hostId)
    (hst : s'.state = s.state ∨ s.state.leadsTo s'.state = true ∧ s'.state ≠ .reserved)
    (hs : s'.Sound) (ht : s.startsAt ≠ none → s'.startsAt = s.startsAt ∧ s'.endsAt = s.endsAt) :
    Obeys (saveSession s') (fun _ _ => True) w := by
  refine obeys_saveSession s' h.last ⟨hid, h.live, ?_, ht⟩ hs
  rcases hst with hst | ⟨hst, hr⟩
  · exact .inl ⟨hst, hh⟩
  · exact .inr ⟨hst, fun he => absurd he hr, fun _ => hh⟩

/-- A live session may be ended in any of the three ways. -/
theorem leadsTo_over {x y : SessionState} (ha : x ≠ .allocating) (hl : x.terminal = false)
    (hy : y = .ending ∨ y = .ended ∨ y = .failed) : y = x ∨ x.leadsTo y = true ∧ y ≠ .reserved := by
  rcases hy with rfl | rfl | rfl <;> revert ha hl <;> cases x <;>
    simp [SessionState.terminal, SessionState.leadsTo]

theorem obeys_saveOver (s' : Session) (h : Held s w) (hid : s'.id = s.id) (hh : s'.hostId = s.hostId)
    (ht : s'.startsAt = s.startsAt ∧ s'.endsAt = s.endsAt ∧ s'.durationSeconds = s.durationSeconds)
    (hy : s'.state = .ending ∨ s'.state = .ended ∨ s'.state = .failed) :
    Obeys (saveSession s') (fun _ _ => True) w := by
  refine obeys_saveHeld s' h hid hh (leadsTo_over h.sound.state h.live hy) ⟨?_, fun hc => ?_, ?_⟩ fun _ => ⟨ht.1, ht.2.1⟩
  · rcases hy with hy | hy | hy <;> rw [hy] <;> nofun
  · rcases hy with hy | hy | hy <;> rw [hy] at hc <;> cases hc
  · rw [ht.1, ht.2.1, ht.2.2]; exact h.sound.times

/-- A session that is given up: it is the record the handler read, or one it was reserved as meanwhile. -/
theorem obeys_failSession {o : Session} (ho : newest w.trace s.id = some o) (ha : o.state ≠ .allocating)
    (hl : o.state.terminal = false) (hto : o.startsAt ≠ none → s.startsAt = o.startsAt ∧ s.endsAt = o.endsAt)
    (hts : s.endsAt = s.startsAt.map (· + 1000 * s.durationSeconds)) (code : String) :
    Obeys (failSession s code) (fun _ _ => True) w := by
  have hid : s.id = o.id := (newest_id ho).symm
  have hlast : Last o w := by unfold Last; rw [← hid]; exact ho
  unfold failSession
  refine (ruling.invoked .dateNow (lasting_last o) hlast).seq fun now _ w₁ h₁ => ?_
  dsimp only
  refine (ruling.released (lasting_last o) h₁).seq fun _ _ w₂ h₂ => ?_
  refine obeys_saveSession { s with state := .failed, failureCode := some code, endedAt := some now } h₂
    ⟨hid, hl, .inr ⟨?_, nofun, nofun⟩, hto⟩ ⟨nofun, nofun, hts⟩
  revert ha hl
  cases o.state <;> simp [SessionState.leadsTo, SessionState.terminal]

theorem obeys_failOrRetrySession (h : Held s w) (code : String) :
    Obeys (failOrRetrySession s code) (fun _ _ => True) w := by
  unfold failOrRetrySession
  refine (ruling.quiet rfl (lasting_held s) h).seq fun _ _ w₁ h₁ => ?_
  refine (ruling.quiet rfl (lasting_held s) h₁).seq fun _ _ w₂ h₂ => ?_
  refine (ruling.quiet rfl (lasting_held s) h₂).seq fun _ _ w₃ h₃ => ?_
  split
  · exact obeys_failSession h₃.last h₃.sound.state h₃.live (fun _ => ⟨rfl, rfl⟩) h₃.sound.times code
  · -- a session that has not started waits for its stream
    rename_i hst
    have hc : s.state.connectable = true := by
      have ha := h.sound.state
      have hl := h.live
      revert ha hl hst
      cases s.state <;> simp [SessionState.terminal, SessionState.started, SessionState.connectable]
    obtain ⟨hstart, k, hk, hhost⟩ := h.sound.waiting hc
    have hend : s.endsAt = none := by rw [h.sound.times, hstart]; rfl
    have hlast : newest w₃.trace (s.retried code).id = some s := h₃.last
    have hw : Waits (s.retried code) (s.retried code).attemptedHostIds True w₃ := by
      refine ⟨h₃.drawn, ⟨hstart, hend⟩, fun _ => by rw [hlast]; exact Option.some_ne_none s, fun o ho => ?_⟩
      obtain rfl := Option.some.inj (hlast.symm.trans ho)
      exact ⟨hc, hstart, fun k' hk' => by rw [hhost] at hk'; cases hk'; exact hk⟩
    refine (obeys_allocateSession hw).seq fun r _ w₄ h₄ => ?_
    cases r with
    | some a => trivial
    | none =>
      obtain ⟨attempted, hw'⟩ := h₄ rfl
      obtain ⟨o, ho⟩ := Option.ne_none_iff_exists'.1 (hw'.known trivial)
      obtain ⟨hco, hso, -⟩ := hw'.last o ho
      refine obeys_failSession (s := s.retried code) ho ?_ ?_ (fun ht => absurd hso ht) h.sound.times code <;> revert hco <;>
        cases o.state <;> simp [SessionState.connectable, SessionState.terminal]

/-! ## The handlers -/

/-- A record that waits for its stream may keep waiting on its host. -/
theorem obeys_saveWaiting (h : Held s w) {y : SessionState} (hl : s.state.launching = true)
    (hy : y = .preparing ∨ y = .ready) : Obeys (saveSession { s with state := y }) (fun _ _ => True) w := by
  have hc : s.state.connectable = true := by
    revert hl
    cases s.state <;> simp [SessionState.launching, SessionState.connectable]
  refine obeys_saveHeld { s with state := y } h rfl rfl ?_ ⟨?_, fun _ => h.sound.waiting hc, h.sound.times⟩
    fun _ => ⟨rfl, rfl⟩
  · rcases hy with rfl | rfl <;> revert hl <;> cases s.state <;>
      simp [SessionState.launching, SessionState.leadsTo]
  · intro h
    rcases hy with rfl | rfl <;> cases h

theorem obeys_saveActive (h : Held s w) (startsAt : Nat) (hc : s.state.connectable = true) :
    Obeys (saveSession { s with
      state := .active, startsAt := some startsAt, endsAt := some (startsAt + s.durationSeconds * 1000) })
      (fun _ _ => True) w := by
  refine obeys_saveHeld _ h rfl rfl ?_ ⟨fun h => (by cases h), fun h => (by cases h), ?_⟩
    fun ht => absurd (h.sound.waiting hc).1 ht
  · revert hc
    cases s.state <;> simp [SessionState.connectable, SessionState.leadsTo]
  · simp [Nat.mul_comm]

theorem passes_ruling : ruling.Passes where
  copy {s s' w} h hc := by
    have h : Held s w := h
    cases hc with
    | same => exact obeys_saveHeld s h rfl rfl (.inl rfl) h.sound fun _ => ⟨rfl, rfl⟩
    | waiting y hl hy => exact obeys_saveWaiting h hl hy
    | active startsAt hc => exact obeys_saveActive h startsAt hc
    | ended endedAt =>
      exact obeys_saveOver { s with state := .ended, endedAt := some endedAt } h rfl rfl ⟨rfl, rfl, rfl⟩ (.inr (.inl rfl))
    | ending => exact obeys_saveOver { s with state := .ending } h rfl rfl ⟨rfl, rfl, rfl⟩ (.inl rfl)
  retry code h := obeys_failOrRetrySession h code

theorem obeys_postSessions {n : Nat} (hn : newest w.trace ⟨n⟩ = none) (hu : n < w.nextUuid) (playerId : PlayerId)
    (request : SessionRequest) : Obeys (postSessions ⟨n⟩ ⟨n⟩ playerId request) (fun _ _ => True) w := by
  refine ruling.postSessions_keeps (P := fun w => newest w.trace ⟨n⟩ = none ∧ n < w.nextUuid)
    (fun w w' hq h => ⟨(hq.newest_eq _).trans h.1, Nat.lt_of_lt_of_le h.2 hq.nextUuid⟩) ⟨hn, hu⟩ playerId request ?_
  rintro createdAt w₁ h₁
  have hw : Waits (newSession ⟨n⟩ ⟨n⟩ createdAt playerId request) [] False w₁ := by
    refine ⟨h₁.2, ⟨rfl, rfl⟩, nofun, fun o ho => ?_⟩
    rw [show newest w₁.trace (newSession ⟨n⟩ ⟨n⟩ createdAt playerId request).id = none from h₁.1] at ho
    cases ho
  exact (obeys_allocateSession hw).returns fun _ _ _ _ => trivial

/-- A presence stores no session. -/
theorem obeys_presence (presence : Presence) (now : Nat) : Obeys (await (.presence presence now)) (fun _ _ => True) w := by
  refine safe_send fun w' hr hI => ⟨trivial, fun _ => ?_⟩
  obtain rfl := hr rfl
  exact ⟨(silent_presence w' presence now).ruled hI, fun u hu h0 => absurd h0 hu, trivial, trivial⟩

/-- **Every handler stores permitted records only**, when no other runs. -/
theorem obeys_program {n : Nat} (hn : newest w.trace ⟨n⟩ = none) (hu : n < w.nextUuid) (r : Request) :
    Obeys (r.program n) (fun _ _ => True) w :=
  passes_ruling.program r (fun playerId request _ => obeys_postSessions hn hu playerId request)
    fun p _ => ruling.postPresence_keeps ruling.stable_true trivial p fun now _ _ => obeys_presence p now

end obeys

/-! ## Runs -/

/-- **A handler that Redis fails midway** leaves permitted records, too. -/
theorem ruled_faulty {w : World} (hI : Ruled w) (r : Request) (plan : Nat → Fate) :
    Ruled ((r.program w.nextUuid).runFaulty machine plan 0 (w.arrived r)).world := by
  have hn : newest (w.arrived r).trace ⟨w.nextUuid⟩ = none := by
    rw [(silent_arrived w r).newest_eq]
    by_contra hc
    exact Nat.lt_irrefl _ (hI.drawn ⟨w.nextUuid⟩ hc)
  have hu : w.nextUuid < (w.arrived r).nextUuid := by rw [nextUuid_arrived]; exact Nat.lt_succ_self _
  exact ((obeys_program hn hu r).runFaulty (fun _ _ => rfl) (fun _ _ _ => trivial) plan 0
    ((silent_arrived w r).ruled hI)).1

theorem ruled_serve {w : World} (hI : Ruled w) (r : Request) : Ruled (w.serve r) := by
  have h := ruled_faulty hI r fun _ => .answered
  rwa [(Prog.runFaulty_answered machine (r.program w.nextUuid) 0 (w.arrived r)).2] at h

theorem ruled_handle {w : World} (hI : Ruled w) (i : Input) : Ruled (w.handle i) := by
  have ambient : ∀ a, Ruled (w.ambient a) := fun a => (silent_ambient w a).ruled hI
  cases i with
  | request r => exact ruled_serve hI r
  | connect h => exact ruled_serve (ambient _) _
  | disconnect h =>
    simp only [World.handle]
    split
    · exact ruled_serve (ambient _) _
    · exact hI
  | ambient a => exact ambient a
  | elapse millis => exact (silent_elapse w millis).ruled hI

/-- **The state machine of a session**: with handlers one at a time, whatever arrives and in whatever order, every record
that is stored is permitted by those before it. -/
theorem lawful_after (config : Config) (inputs : List Input) : Lawful (World.after config inputs).trace := by
  have hrun : ∀ (inputs : List Input) (w : World), Ruled w → Ruled (inputs.foldl World.handle w) := by
    intro inputs
    induction inputs with
    | nil => exact fun _ hI => hI
    | cons i inputs ih => exact fun w hI => ih _ (ruled_handle hI i)
  have hinit : Ruled (World.init config) := by
    refine ⟨?_, ?_, ?_, fun _ => List.nodup_nil, trivial⟩ <;> simp [World.init, World.session, Keys.get, newest]
  exact (hrun inputs _ hinit).lawful

end Market
end CloudGaming
