import CloudGaming.Host.Tick
/-!
# Heartbeats — the room a heartbeat names

`Start` sends its heartbeats before it starts the signaling client; the loop names the room it was started with for as
long as it runs, and no prepare that passes its checks leaves the client with that room.
-/
namespace CloudGaming
namespace Host

open Async

/-- The client is started with the room the heartbeat names, and no session is active. -/
def SentHeartbeat.Agrees (x : SentHeartbeat) : Prop := x.client = some x.heartbeat.roomId ∧ x.activeSessionId = ""

/-- An idle heartbeat agrees with the host. -/
def SentHeartbeat.Honest (x : SentHeartbeat) : Prop := x.heartbeat.status = "idle" → x.Agrees

/-- The loop sent it before any prepare passed its checks. -/
def SentHeartbeat.Early (x : SentHeartbeat) : Prop := x.fromLoop ∧ x.launches = 0

namespace Link

variable {room : String} {l : Link}

/-- **A heartbeat agrees with the host exactly where the loop sent it before the first launch**: until then the client
is started with the room of the loop, and later only while a session is active. -/
structure Told (room : String) (l : Link) : Prop where
  started : l.client.isSome → l.websocketStarted
  before : l.launches = 0 → l.activeSessionId = "" ∧ l.client = some room
  later : l.launches ≠ 0 → l.client.isSome → l.activeSessionId ≠ ""
  loop : ∀ x ∈ l.heartbeat, x.roomId = room
  told : ∀ x ∈ l.heartbeats, x.Agrees ↔ x.Early

theorem Told.launches_ne_zero (h : l.Told room) (ha : l.activeSessionId ≠ "") : l.launches ≠ 0 :=
  fun hn => ha (h.before hn).1

theorem Told.client_eq_none (h : l.Told room) : (if l.websocketStarted then none else l.client) = none := by
  split
  · rfl
  · rename_i hw
    exact Option.not_isSome_iff_eq_none.1 (mt h.started hw)

theorem Told.cleaned (h : l.Told room) (ha : l.activeSessionId ≠ "") : l.cleaned.Told room := by
  have hnone : l.cleaned.client = none := h.client_eq_none
  refine ⟨fun hs => ?_, fun hn => absurd hn (h.launches_ne_zero ha), fun _ hs => ?_, h.loop, h.told⟩
  · rw [hnone] at hs
    cases hs
  · rw [hnone] at hs
    cases hs

theorem Told.launching (h : l.Told room) : l.launching.Told room := by
  have hnone : l.launching.client = none := h.client_eq_none
  refine ⟨fun hs => ?_, fun hn => absurd hn (Nat.succ_ne_zero _), fun _ hs => ?_, h.loop, h.told⟩
  · rw [hnone] at hs
    cases hs
  · rw [hnone] at hs
    cases hs

theorem Told.launched (h : l.Told room) (hl : l.launches ≠ 0) {id : String} (hid : id ≠ "") (roomId : String) :
    (l.launched id roomId).Told room :=
  ⟨fun _ => rfl, fun hn => absurd hn hl, fun _ _ => hid, h.loop, h.told⟩

/-- A heartbeat of the loop. -/
theorem Told.agrees_iff (h : l.Told room) {x : SentHeartbeat} (hr : x.heartbeat.roomId = room)
    (hc : x.client = l.client) (ha : x.activeSessionId = l.activeSessionId) (hl : x.launches = l.launches) (hf : x.fromLoop) :
    x.Agrees ↔ x.Early := by
  unfold SentHeartbeat.Agrees SentHeartbeat.Early
  rw [hr, hc, ha, hl]
  constructor
  · rintro ⟨hclient, hactive⟩
    refine ⟨hf, by_contra fun hn => h.later hn ?_ hactive⟩
    rw [hclient]
    rfl
  · rintro ⟨-, hn⟩
    exact (h.before hn).symm

end Link

namespace HostRuntime

variable {s t : HostRuntime} {o : Outside} {room : String}

theorem told_of_link (h : s.link.Told room) (hlink : t.link = s.link) : t.link.Told room := hlink ▸ h

theorem told_tick (h : s.link.Told room) (ht : s.tick o = some t) : t.link.Told room := by
  obtain ⟨s₁, hs₁, rfl⟩ := Option.map_eq_some_iff.1 ht
  have h₁ : s₁.link.Told room := by
    rcases command_cases s o hs₁ with ⟨hlink, -⟩ | ⟨ha, hlink, -⟩ | ⟨-, hlink, -⟩ | ⟨-, -, id, roomId, hid, hlink⟩
    · exact told_of_link h hlink
    · exact hlink ▸ h.cleaned ha
    · exact hlink ▸ h.launching
    · exact hlink ▸ h.launching.launched (Nat.succ_ne_zero _) hid roomId
  have h₂ : ((s₁.applyPendingTargetSelection o).refreshPresence o).link.Told room := told_of_link h₁ (by simp)
  rcases advance_cases ((s₁.applyPendingTargetSelection o).refreshPresence o) o with hlink | ⟨ha, hlink⟩
  · exact told_of_link h₂ hlink
  · exact hlink ▸ h₂.cleaned ha

theorem told_sendHeartbeat (h : s.link.Told room) (hostId pairingCode : String) :
    (s.sendHeartbeat true hostId room pairingCode).link.Told room := by
  refine ⟨h.started, h.before, h.later, h.loop, ?_⟩
  rintro x (_ | ⟨_, hx⟩)
  · exact h.agrees_iff rfl rfl rfl rfl rfl
  · exact h.told x hx

theorem told_beat (h : s.link.Told room) {loop : HeartbeatLoop} (hl : loop ∈ s.heartbeat) (b : Beat) :
    (s.beat loop b).link.Told room := by
  have hroom : loop.roomId = room := h.loop loop hl
  have hfirst : (s.sendHeartbeat true loop.hostId loop.roomId loop.pairingCode).link.Told room :=
    hroom ▸ told_sendHeartbeat (hroom ▸ h) loop.hostId loop.pairingCode
  unfold beat
  dsimp only
  split
  · have hrotated : { s.sendHeartbeat true loop.hostId loop.roomId loop.pairingCode with
        pairingCode := b.nextCode
        heartbeat := some { loop with pairingCode := b.nextCode } }.link.Told room := by
      refine ⟨h.started, h.before, h.later, ?_, hfirst.told⟩
      rintro x ⟨⟩
      exact hroom
    rw [hroom] at hrotated ⊢
    exact told_sendHeartbeat hrotated loop.hostId b.nextCode
  · exact hfirst

theorem told_step {m : RuntimeMove} (h : s.link.Told room) (ht : s.step m = some t) : t.link.Told room := by
  cases m with
  | tick o => exact told_tick h ht
  | queueTargetSelection processName preferredTitle =>
    obtain rfl := Option.some.inj ht
    exact told_of_link h (queueTargetSelection_same s processName preferredTitle).1
  | requestPresenceRefresh =>
    obtain rfl := Option.some.inj ht
    exact h
  | handleMarketplaceCommand command =>
    obtain rfl := Option.some.inj ht
    exact told_of_link h (handleMarketplaceCommand_same s command).1
  | beat b =>
    obtain ⟨loop, hl, rfl⟩ := Option.map_eq_some_iff.1 ht
    exact told_beat h hl b
  | peer state =>
    obtain rfl := Option.some.inj ht
    exact ⟨h.started, h.before, h.later, h.loop, h.told⟩

theorem told_start {b : Boot} (h : s.Stopped) (hs : s.start b = some t) : t.link.Told b.roomId := by
  have hstarted := start_spec s h hs
  refine ⟨fun _ => hstarted.websocket, fun _ => ⟨hstarted.session, hstarted.client⟩,
    fun hn => absurd hstarted.launches hn, hstarted.heartbeat, fun x hx => ?_⟩
  obtain ⟨hf, hc, -⟩ := hstarted.heartbeats x hx
  refine iff_of_false (fun ha => ?_) fun he => ?_
  · cases hc.symm.trans ha.1
  · cases hf.symm.trans he.1

/-- **The registration is never honest.** -/
theorem not_honest_start {b : Boot} (h : s.Stopped) (hs : s.start b = some t)
    (hc : ∃ c ∈ b.config, c.matchmakerEnabled) : ∃ x ∈ t.heartbeats, ¬x.Honest := by
  have hstarted := start_spec s h hs
  obtain ⟨x, hx⟩ := List.exists_mem_of_ne_nil _ (hstarted.registered hc)
  obtain ⟨-, hclient, hidle⟩ := hstarted.heartbeats x hx
  exact ⟨x, hx, fun hn => by cases hclient.symm.trans (hn hidle).1⟩

/-- **In every run a heartbeat is honest exactly where, if it says idle, the loop sent it before any prepare had passed
its checks**, so the ones of `Start` never are. -/
theorem honest_iff_early (s s₀ : HostRuntime) (b : Boot) (ms : List RuntimeMove) (h : s.Stopped)
    (hs : s.start b = some s₀) : Throughout step
      (fun t => ∀ x ∈ t.heartbeats, x.Honest ↔ (x.heartbeat.status = "idle" → x.Early)) s₀ ms := by
  have hall : Along step (fun _ _ => True) s₀ ms := along_true
  have htold : Throughout step (fun t => t.link.Told b.roomId) s₀ ms :=
    .of_along (fun _ _ _ h _ => told_step h) (told_start h hs) hall
  exact htold.mono fun t ht x hx => forall_congr' fun _ => ht.told x hx

/-- A session is prepared and stopped, and then the loop sends a heartbeat. -/
def stopping : List RuntimeMove :=
  [.handleMarketplaceCommand (prepareCommand "0123456789abcdef0123456789abcdef0123" "0123456789abcdef0123456789abcdef"),
    .tick { inventory := installed },
    .handleMarketplaceCommand
      (.obj [("sessionId", .str "0123456789abcdef0123456789abcdef0123"), ("type", .str "session.stop")]),
    .tick { roomId := "next" }, .beat {}]

theorem honest_iff_early_stopping : ∃ s₀, ({} : HostRuntime).start aBoot = some s₀ ∧ Throughout step
    (fun t => ∀ x ∈ t.heartbeats, x.Honest ↔ (x.heartbeat.status = "idle" → x.Early)) s₀ stopping :=
  ⟨_, rfl, honest_iff_early {} _ aBoot stopping stopped_new rfl⟩

/-- **After a session the loop names a room the client is not in.** -/
theorem not_honest_stopping : ¬∀ (s s₀ : HostRuntime) (b : Boot) (ms : List RuntimeMove), s.Stopped →
    (∃ c ∈ b.config, c.matchmakerEnabled) → s.start b = some s₀ →
      Throughout step (fun t => ∀ x ∈ t.heartbeats, x.Honest) s₀ ms := by
  intro h
  obtain ⟨s₀, hs₀⟩ : ∃ s₀, ({} : HostRuntime).start aBoot = some s₀ := ⟨_, rfl⟩
  have hhonest := h {} s₀ aBoot stopping stopped_new ⟨_, rfl, rfl⟩ hs₀
  obtain ⟨t, ht, x, hx, -, hidle, hc⟩ : ∃ t, after step s₀ stopping = some t ∧ ∃ x ∈ t.heartbeats,
      x.fromLoop ∧ x.heartbeat.status = "idle" ∧ x.client = none := by
    obtain rfl := Option.some.inj hs₀
    exact ⟨_, rfl, _, List.mem_cons_self, rfl, rfl, rfl⟩
  cases hc.symm.trans (hhonest.after ht x hx hidle).1

end HostRuntime
end Host
end CloudGaming
