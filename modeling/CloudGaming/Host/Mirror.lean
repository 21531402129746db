import CloudGaming.Host.Tick
/-!
# Mirror — the tick and the handlers of the runtime thread are the same code

`Tick` gives the runtime thread as functions of its state, `Runtime` as programs over the sections it shares with the
websocket thread.  What both have (the session, the commands, the reports, the state) they change in the same way.
-/
namespace CloudGaming
namespace Host

open Async
open CloudGaming.Host.Runtime (HostState Report World Thread machine)

/-- What both have. -/
structure Mirror where
  session : SessionManager
  state : HostState
  websocketStarted : Bool
  activeSessionId : String
  activeGameId : String
  activeCommandId : String
  roomId : String
  connected : Bool
  commands : List Json
  reports : List Report

def Runtime.World.mirror (w : World) : Mirror :=
  ⟨w.session, w.state, w.websocketStarted, w.activeSessionId, w.activeGameId, w.activeCommandId, w.roomId,
    w.sessionConnectedReported, w.pendingMarketplaceCommands, w.reports⟩

namespace HostRuntime

def mirror (s : HostRuntime) : Mirror :=
  ⟨s.session, s.state, s.websocketStarted, s.activeSessionId, s.activeGameId, s.activeCommandId, s.roomId,
    s.sessionConnectedReported, s.pendingMarketplaceCommands, s.reports⟩

variable {m n k : Mirror}

/-- The program ends, and takes what it shares from the one to the other. -/
def Takes (p : Thread Unit) (m n : Mirror) : Prop :=
  ∀ w : World, w.mirror = m → ∃ w', p.run machine w = (some (), w') ∧ w'.mirror = n

theorem takes_pure : Takes (pure ()) m m := fun w hw => ⟨w, rfl, hw⟩

theorem Takes.bind {p : Thread Unit} {f : Unit → Thread Unit} (hp : Takes p m n) (hf : Takes (f ()) n k) :
    Takes (p >>= f) m k := by
  intro w hw
  obtain ⟨w₁, hrun, hw₁⟩ := hp w hw
  rw [Prog.run_bind_some machine hrun]
  exact hf w₁ hw₁

/-- A section, with its answer. -/
theorem Takes.ask {c : Runtime.Section} {f : c.Reply → Thread Unit} (a : c.Reply)
    (ha : ∀ w : World, w.mirror = m → w.answer c = a ∧ (w.after c).mirror = n) (hf : Takes (f a) n k) :
    Takes (Runtime.step c >>= f) m k := by
  intro w hw
  obtain ⟨hanswer, hafter⟩ := ha w hw
  obtain ⟨w', hrun, hw'⟩ := hf _ hafter
  refine ⟨w', ?_, hw'⟩
  rw [Runtime.step, Prog.run_send_bind]
  change (f (w.answer c)).run machine (w.after c) = _
  rw [hanswer, hrun]

theorem Takes.tryCatch {p q : Thread Unit} (hp : Takes p m n) : Takes (p.tryCatch q) m n := by
  intro w hw
  obtain ⟨w', hrun, hw'⟩ := hp w hw
  exact ⟨w', Prog.run_tryCatch_some machine hrun q, hw'⟩

variable (s : HostRuntime) (o : Outside)

theorem takes_stopIfStarted : Takes Runtime.stopIfStarted s.mirror s.stopIfStarted.mirror := by
  unfold Runtime.stopIfStarted Runtime.stopWebsocket
  refine .ask s.websocketStarted (fun w hw => ⟨congrArg Mirror.websocketStarted hw, hw⟩) ?_
  unfold stopIfStarted
  cases s.websocketStarted with
  | false => exact takes_pure
  | true => exact fun w hw => ⟨_, rfl, congrArg (fun m => { m with websocketStarted := false }) hw⟩

theorem takes_cleanupSession (e r roomId : String) :
    Takes (Runtime.cleanupSession e r roomId) s.mirror (s.cleanupSession e r roomId).mirror := by
  unfold Runtime.cleanupSession
  refine .tryCatch (.ask s.activeSessionId (fun w hw => ⟨congrArg Mirror.activeSessionId hw, hw⟩) ?_)
  by_cases ha : s.activeSessionId = ""
  · rw [cleanupSession_of_free s ha, if_neg (not_not.2 ha)]
    exact takes_pure
  · rw [if_pos ha]
    unfold cleanupSession
    rw [if_neg ha]
    have hcleaning : ∀ w : World, w.mirror = s.mirror →
        (w.after (.setState .cleaning)).mirror = (s.setState .cleaning).detachTarget.mirror :=
      fun w hw => congrArg (fun m => { m with state := HostState.cleaning }) hw
    refine .ask () (fun w hw => ⟨rfl, hcleaning w hw⟩) (.ask () (fun w hw => ⟨rfl, hw⟩)
      ((takes_stopIfStarted _).bind fun w hw => ?_))
    refine ⟨_, rfl, ?_⟩
    exact congrArg (fun m => { m with
      session := m.session.terminate r
      state := HostState.idle
      activeSessionId := ""
      activeGameId := ""
      activeCommandId := ""
      roomId := roomId
      connected := false
      reports := ⟨e, s.activeSessionId, "", [("code", r)]⟩ :: m.reports }) hw

/-- What the handlers get of what a tick finds. -/
def Outside.launch (o : Outside) : Runtime.Launch :=
  ⟨fun localManifestId => (o.inventory.find localManifestId).map (·.id), o.start, o.roomId⟩

theorem takes_launch (c : Runtime.MarketplaceCommand) (prepare : Runtime.Prepare) (gameId : String) :
    Takes (Runtime.launch (Outside.launch o) c prepare gameId) s.mirror
      (s.launch o c.sessionId c.commandId gameId prepare.roomId prepare.durationSeconds.toNat).mirror := by
  unfold Runtime.launch launch
  refine (takes_stopIfStarted s).bind ?_
  cases hstart : o.start with
  | error e =>
    simp only [Outside.launch, hstart]
    exact fun _ hw => ⟨_, rfl, congrArg (fun m => { m with
      reports := ⟨"session.failed", c.sessionId, c.commandId, [("code", "launch_failed"), ("detail", e)]⟩ :: m.reports })
      hw⟩
  | ok u =>
    simp only [Outside.launch, hstart]
    exact fun w hw => ⟨_, rfl, congrArg (fun m => { m with
      session := (m.session.authorize c.sessionId).2
      state := HostState.preparing
      websocketStarted := true
      activeSessionId := c.sessionId
      activeGameId := gameId
      activeCommandId := c.commandId
      roomId := prepare.roomId
      connected := false
      reports := ⟨"session.launch_ack", c.sessionId, c.commandId, []⟩ :: m.reports }) hw⟩

theorem takes_report (r : Report) : Takes (Runtime.step (.report r)) s.mirror (s.report r).mirror :=
  fun _ hw => ⟨_, rfl, congrArg (fun m => { m with reports := r :: m.reports }) hw⟩

variable {s o} {t : HostRuntime}

theorem takes_applyPrepare (c : Runtime.MarketplaceCommand)
    (h : s.applyPrepare o c.sessionId c.commandId c.payload = some t) :
    Takes (Runtime.applyPrepare (Outside.launch o) c) s.mirror t.mirror := by
  unfold Runtime.applyPrepare
  unfold applyPrepare at h
  refine .ask s.activeSessionId (fun w hw => ⟨congrArg Mirror.activeSessionId hw, hw⟩) ?_
  by_cases ha : s.activeSessionId = c.sessionId
  · rw [if_pos ha] at h ⊢
    cases h
    exact takes_report s _
  · rw [if_neg ha] at h ⊢
    by_cases hbusy : s.activeSessionId ≠ ""
    · rw [if_pos hbusy] at h ⊢
      cases h
      exact takes_report s _
    · rw [if_neg hbusy] at h ⊢
      obtain ⟨prepare, hprepare, rfl⟩ := Option.map_eq_some_iff.1 h
      simp only [hprepare, Outside.launch]
      cases hfind : o.inventory.find prepare.localManifestId with
      | error e => exact takes_report s _
      | ok game =>
        dsimp only [Except.map]
        split
        · exact takes_report s _
        · exact takes_launch s o c prepare game.id

theorem takes_applyCommand {c : Runtime.MarketplaceCommand} (h : s.applyCommand o c = some t) :
    Takes (Runtime.applyCommand (Outside.launch o) c) s.mirror t.mirror := by
  have hactive : ∀ w : World, w.mirror = s.mirror → w.activeSessionId = s.activeSessionId ∧ w.mirror = s.mirror :=
    fun w hw => ⟨congrArg Mirror.activeSessionId hw, hw⟩
  unfold Runtime.applyCommand
  unfold applyCommand at h
  by_cases hready : c.type = "control.ready"
  · rw [if_pos hready] at h ⊢
    cases h
    exact .ask _ hactive (.ask s.state (fun w hw => ⟨congrArg Mirror.state hw, hw⟩) (takes_report s _))
  · rw [if_neg hready] at h ⊢
    by_cases hstop : c.type = "session.stop"
    · rw [if_pos hstop] at h ⊢
      refine .ask _ hactive ?_
      by_cases hid : c.sessionId = s.activeSessionId
      · rw [if_pos hid] at h ⊢
        obtain ⟨reason, hreason, rfl⟩ := Option.map_eq_some_iff.1 h
        simp only [hreason]
        exact takes_cleanupSession s "session.ended" reason o.roomId
      · rw [if_neg hid] at h ⊢
        cases h
        exact takes_pure
    · rw [if_neg hstop] at h ⊢
      exact takes_applyPrepare c h

/-- **The command of a tick is the handler of the runtime thread.** -/
theorem takes_applyMarketplaceCommand (h : s.applyMarketplaceCommand o = some t) :
    Takes (Runtime.applyMarketplaceCommand (Outside.launch o)) s.mirror t.mirror := by
  have hpop : ∀ w : World, w.mirror = s.mirror → w.answer .popCommand = s.pendingMarketplaceCommands.head? ∧
      (w.after .popCommand).mirror = { s.mirror with commands := s.pendingMarketplaceCommands.tail } :=
    fun w hw => ⟨congrArg (fun m => m.commands.head?) hw,
      congrArg (fun m => { m with commands := m.commands.tail }) hw⟩
  unfold Runtime.applyMarketplaceCommand
  unfold applyMarketplaceCommand at h
  refine .ask _ hpop ?_
  cases hq : s.pendingMarketplaceCommands with
  | nil =>
    simp only [hq, Option.some.injEq] at h
    subst h
    have hsame : { s.mirror with commands := [] } = s.mirror := by rw [← hq]; rfl
    exact hsame ▸ takes_pure
  | cons j rest =>
    simp only [hq] at h
    obtain ⟨c, hc, h⟩ := Option.bind_eq_some_iff.1 h
    simp only [List.head?_cons, List.tail_cons, hc]
    exact takes_applyCommand (s := { s with pendingMarketplaceCommands := rest }) h

end HostRuntime
end Host
end CloudGaming
