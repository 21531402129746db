import CloudGaming.Market.Cleaning
/-!
# Deadlines — which sessions the pollers watch

A session that waits for its host is in the prepare-deadline set, one whose stream runs is in the session-deadline set,
each with the score its record states (`scheduled_after`).  A ready or an ending session is watched by its host alone:
`session.game_ready` takes it out of the first set, and only the stream puts it into the second (`not_monitored`).
-/
namespace CloudGaming
namespace Market

open Async Redis Relation

def View.Scheduled (v : View) : Prop :=
  ∀ s, v.record = some s →
    (s.state.launching = true → ∀ d, s.prepareDeadlineAt = some d → v.prepareAt = some d) ∧
    (s.state = .active → ∃ t, s.startsAt = some t ∧ s.endsAt = some (t + s.durationSeconds * 1000) ∧ v.endsAt = s.endsAt)

section turns
variable {w : World} {S : SessionId} {s : Session} {v v' : View} {code : String} {r : Request}

theorem scheduled_iff (v : View) {s : Session} (hs : v.record = some s) : v.Scheduled ↔
    (s.state.launching = true → ∀ d, s.prepareDeadlineAt = some d → v.prepareAt = some d) ∧
    (s.state = .active → ∃ t, s.startsAt = some t ∧ s.endsAt = some (t + s.durationSeconds * 1000) ∧ v.endsAt = s.endsAt) := by
  constructor
  · exact fun h => h s hs
  · intro h t ht
    rw [hs] at ht
    obtain rfl := Option.some.inj ht
    exact h

/-- A record in a state that no poller watches. -/
theorem scheduled_idle (hs : v.record = some s) (hl : s.state.launching = false) (ha : s.state ≠ .active) : v.Scheduled :=
  (scheduled_iff v hs).2 ⟨fun h => absurd h (by simp [hl]), fun h => absurd h ha⟩

theorem scheduled_deliver (v : View) (s : Session) (attempted : List HostId) (h : HostId) (c : CommandId) (now : Nat) :
    (v.deliver s attempted h c now).Scheduled :=
  (scheduled_iff _ rfl).2 ⟨fun _ _ hd => hd, fun h => by cases h⟩

theorem GivenUp.scheduled (hg : GivenUp w s code v v') : v'.Scheduled := by
  cases hg with
  | failed => exact scheduled_idle rfl rfl (fun h => by cases h)
  | moved hst attempted h c => exact scheduled_deliver _ _ attempted h c w.now

/-- The record keeps its state and its deadlines, and so do the sets. -/
theorem View.Scheduled.store {s' : Session} (hv : v.Scheduled) (hs : v.record = some s) (hs' : v'.record = some s')
    (hp : v'.prepareAt = v.prepareAt) (he : v'.endsAt = v.endsAt)
    (hd : s'.prepareDeadlineAt = s.prepareDeadlineAt ∧ s'.startsAt = s.startsAt ∧ s'.endsAt = s.endsAt ∧
      s'.durationSeconds = s.durationSeconds)
    (hl : s'.state.launching = true → s.state.launching = true) (ha : s'.state = .active → s.state = .active) :
    v'.Scheduled := by
  obtain ⟨h₁, h₂⟩ := hv s hs
  obtain ⟨hd₁, hd₂, hd₃, hd₄⟩ := hd
  refine (scheduled_iff v' hs').2 ⟨fun h d hd' => ?_, fun h => ?_⟩
  · rw [hp]; exact h₁ (hl h) d (hd₁ ▸ hd')
  · rw [hd₂, hd₃, hd₄, he]; exact h₂ (ha h)

theorem Turn.scheduled (hv : (w.view S).Scheduled) (ht : Turn w S r v) : v.Scheduled := by
  cases ht with
  | created _ _ attempted h c => exact scheduled_deliver _ _ attempted h c w.now
  | unavailable => exact (scheduled_iff _ rfl).2 ⟨fun _ _ hd => absurd hd (by simp [allocatedTo, newSession]), fun h => by cases h⟩
  | deleted => exact scheduled_idle rfl rfl (fun h => by cases h)
  | @acknowledged _ _ s hr =>
    by_cases hl : s.state.launching = true
    · rw [if_pos hl]
      exact hv.store hr.session rfl rfl rfl ⟨rfl, rfl, rfl, rfl⟩ (fun _ => hl) fun h => by cases h
    · rw [if_neg hl]
      exact hv.store hr.session rfl rfl rfl ⟨rfl, rfl, rfl, rfl⟩ id id
  | ready => exact scheduled_idle rfl rfl (fun h => by cases h)
  | connected => exact (scheduled_iff _ rfl).2 ⟨(fun h => by cases h), fun _ => ⟨w.now, rfl, rfl, rfl⟩⟩
  | kept hr => exact hv.store hr.session rfl rfl rfl ⟨rfl, rfl, rfl, rfl⟩ id id
  | ended => exact scheduled_idle rfl rfl (fun h => by cases h)
  | lost _ hg => exact hg.scheduled
  | @orphaned h =>
    obtain ⟨mail, he⟩ := stop_eq (w.view S) w.deliverable (some h)
    rw [he]
    exact hv
  | expired => exact scheduled_idle rfl rfl (fun h => by cases h)
  | overdue _ _ hs => exact fun s hs' => ⟨(hv s hs').1, fun ha => absurd ha (hs s hs')⟩
  | unwatched _ _ hs => exact fun s hs' => ⟨fun hl => absurd hl (by simp [hs s hs']), (hv s hs').2⟩

end turns

/-- A reserved or preparing session is in the prepare-deadline set with the deadline its record states; an active one is
in the session-deadline set with the end its record states, its duration after its start. -/
def Scheduled (w : World) : Prop :=
  ∀ S s, w.session S = some s →
    (s.state = .reserved ∨ s.state = .preparing → ∀ d, s.prepareDeadlineAt = some d → w.prepareDeadlines.score S = some d) ∧
    (s.state = .active → ∃ t, s.startsAt = some t ∧ s.endsAt = some (t + s.durationSeconds * 1000) ∧
      w.sessionDeadlines.score S = some (t + s.durationSeconds * 1000))

theorem scheduled_of_views {w : World} (hv : ∀ S, (w.view S).Scheduled) : Scheduled w := by
  intro S s hs
  obtain ⟨h₁, h₂⟩ := hv S s hs
  refine ⟨fun hst => h₁ ?_, fun ha => ?_⟩
  · rcases hst with hst | hst <;> rw [hst] <;> rfl
  · obtain ⟨t, ht, he, hd⟩ := h₂ ha
    exact ⟨t, ht, he, hd.trans he⟩

theorem scheduled_ambient {S : SessionId} {v : View} (hv : v.Scheduled) (a : Ambient) : (v.ambient S a).Scheduled := by
  cases a with
  | expireSession id =>
    unfold View.ambient
    dsimp only
    split
    · exact fun _ hs => by cases hs
    · exact hv
  | _ => exact hv

theorem scheduled_elapse {w : World} {S : SessionId} (hv : (w.view S).Scheduled) (millis : Nat) :
    ((w.elapse millis).view S).Scheduled := by
  obtain ⟨o, ho, he⟩ := view_elapse w S millis
  rw [he]
  rcases ho with rfl | rfl
  · exact fun _ hs => by cases hs
  · exact hv

/-- **The pollers watch every session that waits for its host and every one that streams**, after any sequence of inputs
served to completion, whatever the sockets refuse. -/
theorem scheduled_after (config : Config) (inputs : List Input) : Scheduled (World.after config inputs) :=
  scheduled_of_views (after_induction (P := fun w => ∀ S, (w.view S).Scheduled) (fun _ _ hs => by cases hs)
    (fun _ i hf hw _ => handle_induction (P := fun w => ∀ S, (w.view S).Scheduled)
      (fun w r h S => by rw [view_arrived]; exact h S)
      (fun _ _ _ h ha S => views_act (I := fun _ v => v.Scheduled) (fun _ _ hv ht => ht.scheduled hv) h ha S)
      (fun w a h S => by rw [view_ambient]; exact scheduled_ambient (h S) a)
      (fun _ m h S => scheduled_elapse (h S) m) hf hw i)
    inputs (meets_of_forall (fun _ _ => trivial) inputs _))

/-! ## Ready and ending sessions -/

/-- Every live session of a connected host has a timer. -/
def Monitored (w : World) : Prop :=
  ∀ S s h, w.session S = some s → s.hostId = some h → w.connected h = true →
    match s.state with
    | .reserved | .preparing => w.prepareDeadlines.score S ≠ none
    | .active => s.endsAt ≠ none ∧ w.sessionDeadlines.score S = s.endsAt
    | .ready | .ending => w.prepareDeadlines.score S ≠ none ∨ w.sessionDeadlines.score S ≠ none
    | _ => True

/-- A host comes up, a session is prepared on it, and the host reports the game ready. -/
def readied : List Input :=
  [.connect ⟨0⟩, .request (.presence (samplePresence ⟨0⟩ .idle)), .request (.post ⟨"ada"⟩ sampleRequest),
    .request (.event ⟨0⟩ { type := .gameReady, sessionId := some ⟨2⟩ })]

/-- **A ready session has no timer**: its prepare deadline went with `session.game_ready`. -/
theorem not_monitored : ¬∀ config inputs, Monitored (World.after config inputs) := by
  intro hm
  have hrec : ((World.after ⟨60⟩ readied).session ⟨2⟩).map (fun s => (s.state, s.hostId)) = some (.ready, some ⟨0⟩) := by
    decide +kernel
  have hset : (World.after ⟨60⟩ readied).connected ⟨0⟩ = true ∧
      (World.after ⟨60⟩ readied).prepareDeadlines.score ⟨2⟩ = none ∧
      (World.after ⟨60⟩ readied).sessionDeadlines.score ⟨2⟩ = none := by decide +kernel
  obtain ⟨s, hs, he⟩ := Option.map_eq_some_iff.1 hrec
  obtain ⟨hst, hh⟩ := Prod.mk.inj he
  have := hm ⟨60⟩ readied ⟨2⟩ s ⟨0⟩ hs hh hset.1
  rw [hst] at this
  exact this.elim (fun h => h hset.2.1) fun h => h hset.2.2

end Market
end CloudGaming
