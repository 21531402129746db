import Mathlib.Data.List.Count
import CloudGaming.Host.Tick
/-!
# Sessions — every session of the host ends, and ends once

A run of the host from `Start`, watched session by session: when its prepare was accepted, when its stream was first
reported as connected, and since when every tick has found its window gone.  It is due at the deadline of the launch
without a capture, at the end of its duration, and once its window has been gone for the grace of the configuration.
-/
namespace CloudGaming
namespace Host

open Async
open CloudGaming.Host.Runtime (Report readCommand readPrepare stopReason)

/-- The reports that only `CleanupSession` sends. -/
def Terminal (r : Report) : Prop :=
  r.eventType = "session.ended" ∨
    r.eventType = "session.failed" ∧
      (r.payload = [("code", "launch_timeout")] ∨ r.payload = [("code", "game_exited")])

instance (r : Report) : Decidable (Terminal r) := inferInstanceAs (Decidable (_ ∨ _))

/-- The terminal events of a session among the reports. -/
def terminals (sessionId : String) (reports : List Report) : Nat :=
  reports.countP fun r => r.sessionId = sessionId ∧ Terminal r

namespace HostRuntime

/-- What a tick deals with before it reads its clock, its command apart. -/
def settle (s : HostRuntime) (o : Outside) : HostRuntime := (s.applyPendingTargetSelection o).refreshPresence o

theorem tick_eq (s : HostRuntime) (o : Outside) :
    s.tick o = (s.applyMarketplaceCommand o).map fun told => (told.settle o).advance o := rfl

end HostRuntime

/-! ## The sessions of a run -/

/-- An accepted prepare, and what the ticks have shown of its session: history.  `due` tells that one of them ought to
have ended it. -/
structure WatchedSession where
  sessionId : String
  durationSeconds : Nat
  acceptedAt : Nat
  connectedAt : Option Nat := none
  goneSince : Option Nat := none
  due : Bool := false

/-- The session of the prepare that the command of a tick is, where it is accepted. -/
def acceptedSession (s told : HostRuntime) (o : Outside) : Option WatchedSession :=
  if s.activeSessionId = "" ∧ told.activeSessionId ≠ "" then
    s.pendingMarketplaceCommands.head?.bind fun j =>
      (readCommand j).bind fun c =>
        (readPrepare c.payload).map fun prepare =>
          { sessionId := c.sessionId, durationSeconds := prepare.durationSeconds.toNat, acceptedAt := o.commandTime }
  else none

namespace WatchedSession

variable (x : WatchedSession) (found left : HostRuntime) (o : Outside)

/-- Since when every tick has found the window gone. -/
def goneNow : Option Nat := if found.captureStarted && found.windowGone o then some (x.goneSince.getD o.now) else none

/-- The window has been gone for the grace. -/
def Gone : Prop := ∃ t ∈ x.goneNow found o, t + found.windowReattachGraceMs ≤ o.now

instance : Decidable (x.Gone found o) :=
  match h : x.goneNow found o with
  | none => .isFalse fun hg => by simp [Gone, h] at hg
  | some t => decidable_of_iff (t + found.windowReattachGraceMs ≤ o.now) (by simp [Gone, h])

/-- The end of the duration: it counts from the deadline of the launch, and from the first report that the stream is
connected. -/
def expiry : Nat :=
  max (x.acceptedAt + 180000 + x.durationSeconds * 1000) (x.connectedAt.elim 0 (· + x.durationSeconds * 1000))

/-- The tick ought to end the session. -/
def Overdue : Prop :=
  (found.captureStarted = false ∧ x.acceptedAt + 180000 ≤ o.now) ∨ x.Gone found o ∨ x.expiry ≤ o.now

instance : Decidable (x.Overdue found o) := inferInstanceAs (Decidable (_ ∨ _))

/-- The tick reports that the stream is connected. -/
def toldConnected : Bool :=
  o.sent && (left.reports.take (left.reports.length - found.reports.length)).any
    fun r => r.eventType = "session.stream_connected"

/-- What a tick shows of the session; it finds the host as `found` and leaves it as `left`. -/
def observe : WatchedSession :=
  { x with
    goneSince := x.goneNow found o
    connectedAt := x.connectedAt <|> if toldConnected found left o then some o.now else none
    due := x.due || x.Overdue found o }

end WatchedSession

/-- The host with the last session it accepted, the ids of all it accepted, and the time: history. -/
structure Life where
  host : HostRuntime
  last : Option WatchedSession
  accepted : List String
  clock : Nat

namespace Life

/-- What the clock has been read as before lies in the past, and 0 is not a time. -/
def start (host : HostRuntime) : Life := ⟨host, none, [], max 1 host.invalidWindowSince⟩

variable (l : Life) (o : Outside)

/-- The session that a tick finds once its command is dealt with. -/
def current (told : HostRuntime) : Option WatchedSession := acceptedSession l.host told o <|> l.last

/-- The times of a run do not decrease. -/
def tick : Option Life :=
  if l.clock ≤ o.commandTime ∧ o.commandTime ≤ o.selectionTime ∧ o.selectionTime ≤ o.now then
    (l.host.applyMarketplaceCommand o).map fun told =>
      let found := told.settle o
      let left := found.advance o
      { host := left
        last := (l.current o told).map fun x => x.observe found left o
        accepted := (acceptedSession l.host told o).toList.map WatchedSession.sessionId ++ l.accepted
        clock := o.now }
  else none

def step : RuntimeMove → Option Life
  | .tick o => l.tick o
  | m => (l.host.step m).map fun host => { l with host }

/-- **What is to hold of every session**: one that is due is not active any more, and `CleanupSession` has attempted one
terminal event for each accepted prepare whose session is not active; `earlier` are the reports before the run. -/
structure Ends (earlier : List Report) (l : Life) : Prop where
  ended : ∀ x ∈ l.last, x.due → l.host.activeSessionId ≠ x.sessionId
  once : ∀ id ≠ "", terminals id l.host.reports + (if l.host.activeSessionId = id then 1 else 0) =
    l.accepted.count id + terminals id earlier

/-- The configuration lets a gone window end the session, or the tick does not come to need it: there is no session, its
deadline ends it, or its window has not been gone for the grace. -/
def Exits (l : Life) : RuntimeMove → Prop
  | .tick o => ∀ told ∈ l.host.applyMarketplaceCommand o,
      let found := told.settle o
      found.windowReattachEnabled ∨ found.activeSessionId = "" ∨ found.sessionDeadline ≤ o.now ∨
        ∀ x ∈ l.current o told, ¬x.Gone found o
  | _ => True

end Life

/-- **A life is a run of the host.** -/
theorem Life.step_host {l l' : Life} {m : RuntimeMove} (h : l.step m = some l') : l.host.step m = some l'.host := by
  cases m with
  | tick o =>
    have ht : l.tick o = some l' := h
    unfold Life.tick at ht
    split at ht
    · obtain ⟨told, htold, rfl⟩ := Option.map_eq_some_iff.1 ht
      change l.host.tick o = _
      rw [HostRuntime.tick_eq, htold]
      rfl
    · cases ht
  | _ =>
    simp only [Life.step] at h
    obtain ⟨host, hhost, rfl⟩ := Option.map_eq_some_iff.1 h
    exact hhost

/-! ## What the moves do to the course of a session -/

/-- The deadlines of the session, with the configuration and the reports. -/
structure Course where
  activeSessionId : String
  launchDeadline : Nat
  sessionDeadline : Nat
  sessionDurationSeconds : Nat
  sessionConnectedReported : Bool
  invalidWindowSince : Nat
  windowReattachEnabled : Bool
  windowReattachGraceMs : Nat
  reports : List Report

/-- The session is over. -/
def Course.cleaned (c : Course) (terminalEvent reason : String) : Course :=
  { c with
    activeSessionId := ""
    launchDeadline := 0
    sessionDeadline := 0
    sessionDurationSeconds := 0
    sessionConnectedReported := false
    reports := ⟨terminalEvent, c.activeSessionId, "", [("code", reason)]⟩ :: c.reports }

/-- A prepare is accepted at a time. -/
def Course.launched (c : Course) (sessionId commandId : String) (duration time : Nat) : Course :=
  { c with
    activeSessionId := sessionId
    launchDeadline := time + 180000
    sessionDeadline := time + 180000 + duration * 1000
    sessionDurationSeconds := duration
    sessionConnectedReported := false
    reports := ⟨"session.launch_ack", sessionId, commandId, []⟩ :: c.reports }

def Course.since (c : Course) (n : Nat) : Course := { c with invalidWindowSince := n }

def Course.told (c : Course) (r : Report) : Course := { c with reports := r :: c.reports }

namespace HostRuntime

variable (s : HostRuntime) (o : Outside)

def course : Course :=
  ⟨s.activeSessionId, s.launchDeadline, s.sessionDeadline, s.sessionDurationSeconds, s.sessionConnectedReported,
    s.invalidWindowSince, s.windowReattachEnabled, s.windowReattachGraceMs, s.reports⟩

theorem course_stopIfStarted : s.stopIfStarted.course = s.course := by
  unfold stopIfStarted
  split <;> rfl

theorem course_cleanupSession (h : s.activeSessionId ≠ "") (e r roomId : String) :
    (s.cleanupSession e r roomId).course = s.course.cleaned e r := by
  unfold cleanupSession
  rw [if_neg h]
  have hstop := course_stopIfStarted (s.setState .cleaning).detachTarget
  simp only [course, Course.mk.injEq] at hstop
  obtain ⟨-, -, -, -, -, hsince, henabled, hgrace, hreports⟩ := hstop
  simp only [course, Course.cleaned, Course.mk.injEq]
  exact ⟨rfl, rfl, rfl, rfl, rfl, hsince, henabled, hgrace, congrArg (List.cons _) hreports⟩

@[simp] theorem course_settle : (s.settle o).course = s.course := by
  have hselect : (s.applyPendingTargetSelection o).course = s.course := by
    unfold applyPendingTargetSelection
    split <;> rfl
  unfold settle refreshPresence
  split <;> exact hselect

/-! ### Commands -/

theorem launch_course (sessionId commandId gameId roomId : String) (duration : Nat) :
    let t := s.launch o sessionId commandId gameId roomId duration
    (∃ r, ¬Terminal r ∧ t.course = s.course.told r) ∨
      t.course = s.course.launched sessionId commandId duration o.commandTime := by
  have hstop := course_stopIfStarted s
  simp only [course, Course.mk.injEq] at hstop
  obtain ⟨ha, hl, hd, hn, hc, hi, he, hg, hr⟩ := hstop
  unfold launch
  cases o.start with
  | error e =>
    refine .inl ⟨⟨"session.failed", sessionId, commandId, [("code", "launch_failed"), ("detail", e)]⟩, ?_, ?_⟩
    · simp [Terminal]
    · simp only [course, Course.told, report, detachTarget, ha, hl, hd, hn, hc, hi, he, hg, hr]
  | ok u =>
    refine .inr ?_
    simp only [course, Course.launched, report, setState, initWebsocket, detachTarget, hi, he, hg, hr]

/-- **What the command of a tick does to the sessions**: nothing but a report, a cleanup, or an accepted prepare. -/
theorem command_course {t : HostRuntime} (h : s.applyMarketplaceCommand o = some t) :
    ((t.course = s.course ∨ ∃ r, ¬Terminal r ∧ t.course = s.course.told r) ∧ acceptedSession s t o = none) ∨
      (s.activeSessionId ≠ "" ∧ acceptedSession s t o = none ∧
        ∃ reason, t.course = s.course.cleaned "session.ended" reason) ∨
      s.activeSessionId = "" ∧ ∃ x commandId, acceptedSession s t o = some x ∧ x.sessionId ≠ "" ∧
        x.acceptedAt = o.commandTime ∧ x.connectedAt = none ∧ x.goneSince = none ∧ x.due = false ∧
        t.course = s.course.launched x.sessionId commandId x.durationSeconds o.commandTime := by
  have hsame : ∀ t : HostRuntime, (t.course = s.course ∨ ∃ r, ¬Terminal r ∧ t.course = s.course.told r) →
      (t.course = s.course ∨ ∃ r, ¬Terminal r ∧ t.course = s.course.told r) ∧ acceptedSession s t o = none := by
    intro t ht
    have hactive : t.activeSessionId = s.activeSessionId := by
      rcases ht with hc | ⟨r, -, hc⟩ <;> exact congrArg Course.activeSessionId hc
    exact ⟨ht, if_neg fun hn => hn.2 (hactive.trans hn.1)⟩
  unfold applyMarketplaceCommand at h
  split at h
  · cases h
    exact .inl (hsame s (.inl rfl))
  · rename_i j rest hpending
    obtain ⟨c, hread, h⟩ := Option.bind_eq_some_iff.1 h
    unfold applyCommand at h
    split at h
    · cases h
      exact .inl (hsame _ (.inr ⟨⟨"host.hello", s.activeSessionId, "", [("state", s.state.name)]⟩,
        by simp [Terminal], rfl⟩))
    · split at h
      · split at h
        · obtain ⟨reason, -, rfl⟩ := Option.map_eq_some_iff.1 h
          by_cases ha : s.activeSessionId = ""
          · rw [cleanupSession_of_free { s with pendingMarketplaceCommands := rest } ha]
            exact .inl (hsame _ (.inl rfl))
          · exact .inr (.inl ⟨ha, if_neg fun hn => ha hn.1, reason,
              course_cleanupSession { s with pendingMarketplaceCommands := rest } ha ..⟩)
        · cases h
          exact .inl (hsame _ (.inl rfl))
      · unfold applyPrepare at h
        split at h
        · cases h
          exact .inl (hsame _ (.inr ⟨⟨"session.launch_ack", c.sessionId, c.commandId, []⟩, by simp [Terminal], rfl⟩))
        · split at h
          · cases h
            exact .inl (hsame _ (.inr ⟨⟨"session.failed", c.sessionId, c.commandId, [("code", "host_busy")]⟩,
              by simp [Terminal], rfl⟩))
          · rename_i hactive
            have ha : s.activeSessionId = "" := not_not.1 hactive
            obtain ⟨prepare, hprepare, rfl⟩ := Option.map_eq_some_iff.1 h
            split
            · rename_i e _
              exact .inl (hsame _ (.inr ⟨⟨"session.failed", c.sessionId, c.commandId,
                [("code", "invalid_launch"), ("detail", e)]⟩, by simp [Terminal], rfl⟩))
            · split
              · exact .inl (hsame _ (.inr ⟨⟨"session.failed", c.sessionId, c.commandId,
                  [("code", "invalid_launch"), ("detail", "")]⟩, by simp [Terminal], rfl⟩))
              · rename_i game _ hchecks
                have hid : c.sessionId ≠ "" := ne_empty_of_size (not_not.1 (not_or.1 hchecks).1)
                rcases launch_course { s with pendingMarketplaceCommands := rest } o c.sessionId c.commandId game.id
                  prepare.roomId prepare.durationSeconds.toNat with hl | hl
                · exact .inl (hsame _ (.inr hl))
                · refine .inr (.inr ⟨ha,
                    ⟨c.sessionId, prepare.durationSeconds.toNat, o.commandTime, none, none, false⟩, c.commandId, ?_, ?_,
                    rfl, rfl, rfl, rfl, hl⟩)
                  · unfold acceptedSession
                    rw [if_pos ⟨ha, fun hn => hid ((congrArg Course.activeSessionId hl).symm.trans hn)⟩, hpending]
                    simp only [List.head?_cons, Option.bind_some, hread, hprepare, Option.map_some]
                  · exact hid

/-! ### The rest of a tick -/

/-- What becomes of `invalidWindowSince` in a tick that does not end the session. -/
def SinceNow (found : HostRuntime) (o : Outside) (n : Nat) : Prop :=
  if found.captureStarted then n = if found.windowGone o then found.lostSince o else 0
  else n = found.invalidWindowSince ∨ n = 0

/-- What a tick that does not end the session does to it: nothing, a report, or the one that the stream is connected. -/
def Told (o : Outside) (c c' : Course) : Prop :=
  c' = c ∨ (∃ r, ¬Terminal r ∧ ¬(o.sent ∧ r.eventType = "session.stream_connected") ∧ c' = c.told r) ∨
    (c.activeSessionId ≠ "" ∧ c.sessionConnectedReported = false ∧ o.sent ∧
      c' = { c.told ⟨"session.stream_connected", c.activeSessionId, "", []⟩ with
        sessionConnectedReported := true
        sessionDeadline := o.now + c.sessionDurationSeconds * 1000 })

/-- A tick that does not end the session finds none, or none of its ends. -/
structure Stays (found left : HostRuntime) (o : Outside) : Prop where
  session : found.activeSessionId ≠ "" → o.now < found.sessionDeadline
  launch : found.activeSessionId ≠ "" → found.captureStarted = false → o.now < found.launchDeadline
  window : found.activeSessionId ≠ "" → found.captureStarted → found.windowGone o → ¬found.Lost o
  course : ∃ n, SinceNow found o n ∧ Told o (found.course.since n) left.course

/-- A tick that ends the session finds its deadline, no capture, or a window that is gone in a configuration that lets
it end the session. -/
structure Cleans (found left : HostRuntime) (o : Outside) : Prop where
  active : found.activeSessionId ≠ ""
  reason : found.sessionDeadline ≤ o.now ∨ found.captureStarted = false ∨ found.windowReattachEnabled
  course : ∃ n e r, (n = found.invalidWindowSince ∨ n = found.lostSince o) ∧
    Terminal ⟨e, found.activeSessionId, "", [("code", r)]⟩ ∧ left.course = (found.course.since n).cleaned e r

theorem course_attachTarget (w : Window) :
    (s.attachTarget o w).1.course = s.course ∨ (s.attachTarget o w).1.course = s.course.since 0 := by
  unfold attachTarget
  dsimp only
  split
  · exact .inl rfl
  · split
    · exact .inr rfl
    · exact .inl rfl

theorem course_pollLaunched :
    (s.pollLaunched o).course = s.course ∨ (s.pollLaunched o).course = s.course.since 0 := by
  unfold pollLaunched
  split
  · exact .inl rfl
  · rename_i target _
    have h := course_attachTarget
      { s with targetProcessName := target.processName, wideTargetProcessName := target.processName } o target.window
    dsimp only
    split <;> exact h

theorem course_tryAttachTarget :
    (s.tryAttachTarget o).1.course = s.course ∨ (s.tryAttachTarget o).1.course = s.course.since 0 := by
  unfold tryAttachTarget
  split
  · exact .inl rfl
  · exact course_attachTarget ..

theorem course_followPeer : s.followPeer.course = s.course := by
  unfold followPeer
  split
  · rfl
  · dsimp only
    split
    · rfl
    · split
      · rfl
      · split <;> rfl

theorem told_reportSession : Told o s.course (s.reportSession o).course := by
  unfold reportSession
  split
  · rename_i h
    obtain ⟨ha, hr, -⟩ := h
    have hr : s.sessionConnectedReported = false := by simpa using hr
    dsimp only
    by_cases hp : s.peerConnected
    · cases hs : o.sent with
      | true => exact .inr (.inr ⟨ha, hr, hs, by simp [hp, course, Course.told, report]⟩)
      | false =>
        refine .inr (.inl ⟨⟨"session.stream_connected", s.activeSessionId, "", []⟩, ?_, fun hn => ?_, ?_⟩)
        · simp [Terminal]
        · simp [hs] at hn
        · simp [hp, course, Course.told, report]
    · refine .inr (.inl ⟨⟨"session.game_ready", s.activeSessionId, "", []⟩, ?_, fun hn => ?_, ?_⟩)
      · simp [Terminal]
      · simp at hn
      · simp [hp, course, Course.told, report]
  · exact .inl rfl

variable (found : HostRuntime)

theorem advance_seek (hdeadline : found.activeSessionId ≠ "" → o.now < found.sessionDeadline)
    (hc : found.captureStarted = false) : Cleans found (found.seek o) o ∨ Stays found (found.seek o) o := by
  have hstays : ∀ left : HostRuntime, left.course = found.course ∨ left.course = found.course.since 0 →
      (found.activeSessionId ≠ "" → o.now < found.launchDeadline) → Stays found left o := by
    intro left hleft hlaunch
    refine ⟨hdeadline, fun ha _ => hlaunch ha, (fun _ h => by rw [hc] at h; cases h), ?_⟩
    unfold SinceNow
    rw [hc]
    rcases hleft with h | h
    · exact ⟨found.invalidWindowSince, .inl rfl, .inl h⟩
    · exact ⟨0, .inr rfl, .inl h⟩
  unfold seek
  split
  · rename_i ha
    split
    · exact .inl {
        active := ha
        reason := .inr (.inl hc)
        course := ⟨found.invalidWindowSince, "session.failed", "launch_timeout", .inl rfl, .inr ⟨rfl, .inl rfl⟩,
          course_cleanupSession found ha ..⟩ }
    · rename_i hlaunch
      have hlaunch := fun _ : found.activeSessionId ≠ "" => Nat.lt_of_not_le hlaunch
      split
      · exact .inr (hstays _ (course_pollLaunched found o) hlaunch)
      · exact .inr (hstays _ (.inl rfl) hlaunch)
  · rename_i ha
    split
    · exact .inr (hstays _ (course_tryAttachTarget found o) fun hn => absurd hn ha)
    · exact .inr (hstays _ (.inl rfl) fun hn => absurd hn ha)

theorem advance_lose (hdeadline : found.activeSessionId ≠ "" → o.now < found.sessionDeadline)
    (hc : found.captureStarted) (hgone : found.windowGone o) :
    Cleans found (found.lose o) o ∨ Stays found (found.lose o) o := by
  have hsince : SinceNow found o (found.lostSince o) := by simp [SinceNow, hc, hgone]
  have hlaunch : found.activeSessionId ≠ "" → found.captureStarted = false → o.now < found.launchDeadline :=
    fun _ hn => by rw [hc] at hn; cases hn
  unfold lose
  dsimp only
  split
  · rename_i hlost
    split
    · rename_i ha
      exact .inl {
        active := ha
        reason := .inr (.inr hlost.1)
        course := ⟨found.lostSince o, "session.failed", "game_exited", .inr rfl, .inr ⟨rfl, .inr rfl⟩,
          course_cleanupSession { found with invalidWindowSince := found.lostSince o } ha ..⟩ }
    · rename_i ha
      exact .inr ⟨hdeadline, hlaunch, fun hn _ _ => absurd hn ha, found.lostSince o, hsince, .inl rfl⟩
  · rename_i hlost
    exact .inr ⟨hdeadline, hlaunch, fun _ _ _ => hlost, found.lostSince o, hsince, .inl rfl⟩

/-- **The rest of a tick ends the session, or finds none of its ends.** -/
theorem advance_course : Cleans found (found.advance o) o ∨ Stays found (found.advance o) o := by
  unfold advance
  split
  · rename_i h
    exact .inl {
      active := h.1
      reason := .inl h.2
      course := ⟨found.invalidWindowSince, "session.ended", "duration_expired", .inl rfl, .inl rfl,
        course_cleanupSession found h.1 ..⟩ }
  · rename_i h
    have hdeadline : found.activeSessionId ≠ "" → o.now < found.sessionDeadline :=
      fun ha => Nat.lt_of_not_le fun hn => h ⟨ha, hn⟩
    split
    · rename_i hc
      unfold watch
      split
      · rename_i hgone
        exact advance_lose o found hdeadline hc hgone
      · rename_i hgone
        refine .inr ⟨hdeadline, (fun _ hn => by rw [hc] at hn; cases hn), fun _ _ hn => absurd hn hgone, 0, ?_, ?_⟩
        · simp [SinceNow, hc, hgone]
        · rw [course_followPeer]
          exact told_reportSession { found with invalidWindowSince := 0 } o
    · rename_i hc
      exact advance_seek o found hdeadline (by simpa using hc)

end HostRuntime

/-! ## The invariant -/

/-- The deadlines of the host are those of the session that is watched. -/
structure Follows (c : Course) (x : WatchedSession) : Prop where
  launch : c.launchDeadline = x.acceptedAt + 180000
  duration : c.sessionDurationSeconds = x.durationSeconds
  connected : c.sessionConnectedReported = x.connectedAt.isSome
  deadline : c.sessionDeadline =
    x.connectedAt.elim (x.acceptedAt + 180000 + x.durationSeconds * 1000) (· + x.durationSeconds * 1000)
  since : ∀ t ∈ x.goneSince, c.invalidWindowSince ≠ 0 ∧ c.invalidWindowSince ≤ t

/-- What holds of the host, of the last session it accepted and of the ids of all it accepted. -/
structure Known (earlier : List Report) (c : Course) (last : Option WatchedSession) (ids : List String) (time : Nat) :
    Prop where
  started : 1 ≤ time
  since : c.invalidWindowSince ≤ time
  named : ∀ x ∈ last, x.sessionId ≠ ""
  follows : c.activeSessionId ≠ "" → ∃ x ∈ last, x.sessionId = c.activeSessionId ∧ Follows c x
  once : ∀ id ≠ "", terminals id c.reports + (if c.activeSessionId = id then 1 else 0) =
    ids.count id + terminals id earlier

/-- No session that is due is active. -/
def NoneDue (c : Course) (last : Option WatchedSession) : Prop := ∀ x ∈ last, x.due → c.activeSessionId ≠ x.sessionId

theorem terminals_cons_of_not {r : Report} (h : ¬Terminal r) (id : String) (reports : List Report) :
    terminals id (r :: reports) = terminals id reports :=
  List.countP_cons_of_neg (by simp [h])

theorem terminals_cons_of_terminal {r : Report} (h : Terminal r) (id : String) (reports : List Report) :
    terminals id (r :: reports) = terminals id reports + if r.sessionId = id then 1 else 0 := by
  unfold terminals
  rw [List.countP_cons]
  simp [h]

section
variable {earlier : List Report} {c : Course} {last : Option WatchedSession} {ids : List String} {time : Nat}

theorem Known.told (h : Known earlier c last ids time) {r : Report} (hr : ¬Terminal r) :
    Known earlier (c.told r) last ids time where
  started := h.started
  since := h.since
  named := h.named
  follows := fun ha => by
    obtain ⟨x, hx, hid, hf⟩ := h.follows ha
    exact ⟨x, hx, hid, hf.launch, hf.duration, hf.connected, hf.deadline, hf.since⟩
  once := fun id hid => by
    rw [show (c.told r).reports = r :: c.reports from rfl, terminals_cons_of_not hr]
    exact h.once id hid

theorem Known.cleaned (h : Known earlier c last ids time) {e r : String}
    (hr : Terminal ⟨e, c.activeSessionId, "", [("code", r)]⟩) : Known earlier (c.cleaned e r) last ids time where
  started := h.started
  since := h.since
  named := h.named
  follows := fun ha => absurd rfl ha
  once := fun id hid => by
    have hfree : (c.cleaned e r).activeSessionId ≠ id := Ne.symm hid
    rw [show (c.cleaned e r).reports = ⟨e, c.activeSessionId, "", [("code", r)]⟩ :: c.reports from rfl,
      terminals_cons_of_terminal hr, if_neg hfree]
    exact h.once id hid

theorem Known.launched (h : Known earlier c last ids time) (ha : c.activeSessionId = "") {x : WatchedSession}
    (hid : x.sessionId ≠ "") (hcon : x.connectedAt = none) (hgone : x.goneSince = none) (commandId : String) :
    Known earlier (c.launched x.sessionId commandId x.durationSeconds x.acceptedAt) (some x) (x.sessionId :: ids)
      time where
  started := h.started
  since := h.since
  named := fun y hy => Option.some.inj hy ▸ hid
  follows := fun _ => ⟨x, rfl, rfl, rfl, rfl, by rw [hcon]; rfl, by rw [hcon]; rfl, by simp [hgone]⟩
  once := fun id hne => by
    have honce := h.once id hne
    rw [ha, if_neg (Ne.symm hne)] at honce
    rw [show (c.launched x.sessionId commandId x.durationSeconds x.acceptedAt).reports =
        ⟨"session.launch_ack", x.sessionId, commandId, []⟩ :: c.reports from rfl,
      terminals_cons_of_not (by simp [Terminal]), List.count_cons]
    by_cases hx : x.sessionId = id
    · simp only [Course.launched, hx, if_true, beq_self_eq_true]
      omega
    · simp only [Course.launched, hx, if_false, beq_iff_eq]
      omega

end

namespace Life

variable {earlier : List Report} {l : Life} {o : Outside} {told : HostRuntime}

/-- What the command of a tick does to all this. -/
theorem known_command (h : Known earlier l.host.course l.last l.accepted l.clock)
    (htold : l.host.applyMarketplaceCommand o = some told) :
    Known earlier told.course (l.current o told)
        ((acceptedSession l.host told o).toList.map WatchedSession.sessionId ++ l.accepted) l.clock ∧
      (NoneDue l.host.course l.last → NoneDue told.course (l.current o told)) := by
  unfold current
  rcases HostRuntime.command_course l.host o htold with ⟨hc, hnone⟩ | ⟨ha, hnone, reason, hc⟩ |
    ⟨ha, x, commandId, hx, hid, hat, hcon, hgone, hdue, hc⟩
  · rw [hnone]
    rcases hc with hc | ⟨r, hr, hc⟩
    · rw [hc]
      exact ⟨h, fun hn => hn⟩
    · rw [hc]
      exact ⟨h.told hr, fun hn => hn⟩
  · rw [hnone, hc]
    exact ⟨h.cleaned (.inl rfl), fun _ x hx _ => Ne.symm (h.named x hx)⟩
  · rw [hx, hc, ← hat]
    refine ⟨h.launched ha hid hcon hgone commandId, fun _ y hy hyd => ?_⟩
    obtain rfl := Option.some.inj hy
    rw [hdue] at hyd
    cases hyd

end Life

namespace WatchedSession

variable {x : WatchedSession} {found left : HostRuntime} {o : Outside}

theorem connected_observe_of_told {r : Report} (h : ¬(o.sent ∧ r.eventType = "session.stream_connected"))
    (hr : left.reports = r :: found.reports) : (x.observe found left o).connectedAt = x.connectedAt := by
  have hnot : toldConnected found left o = false := by
    unfold toldConnected
    rw [hr]
    simpa using h
  simp [observe, hnot]

theorem connected_observe_of_same (hr : left.reports = found.reports) :
    (x.observe found left o).connectedAt = x.connectedAt := by
  have hnot : toldConnected found left o = false := by
    unfold toldConnected
    rw [hr]
    simp
  simp [observe, hnot]

theorem connected_observe_of_connected (ho : o.sent) {id : String}
    (hr : left.reports = ⟨"session.stream_connected", id, "", []⟩ :: found.reports) (hx : x.connectedAt = none) :
    (x.observe found left o).connectedAt = some o.now := by
  have htold : toldConnected found left o = true := by
    unfold toldConnected
    rw [hr]
    simp [ho]
  simp [observe, htold, hx]

end WatchedSession

/-! ## The rest of a tick -/

section
variable {earlier : List Report} {last : Option WatchedSession} {ids : List String} {time : Nat}
  {found left : HostRuntime} {o : Outside}

theorem lostSince_le (h : found.invalidWindowSince ≤ o.now) : found.lostSince o ≤ o.now := by
  unfold HostRuntime.lostSince
  split
  · exact le_refl _
  · exact h

theorem sinceNow_le {n : Nat} (h : found.invalidWindowSince ≤ o.now) (hn : HostRuntime.SinceNow found o n) :
    n ≤ o.now := by
  have hlost := lostSince_le h
  unfold HostRuntime.SinceNow at hn
  split at hn
  · rw [hn]
    split <;> omega
  · omega

/-- Ids and sessions do not change in the rest of a tick, so it is enough to look at the course. -/
theorem Known.moved (h : Known earlier found.course last ids time) {c : Course} {f : WatchedSession → WatchedSession}
    (hid : ∀ x, (f x).sessionId = x.sessionId) (htime : time ≤ o.now) (hsince : c.invalidWindowSince ≤ o.now)
    (hfollows : c.activeSessionId ≠ "" → ∃ x ∈ last, x.sessionId = c.activeSessionId ∧ Follows c (f x))
    (honce : ∀ id ≠ "", terminals id c.reports + (if c.activeSessionId = id then 1 else 0) =
      ids.count id + terminals id earlier) : Known earlier c (last.map f) ids o.now where
  started := le_trans h.started htime
  since := hsince
  named := fun y hy => by
    obtain ⟨x, hx, rfl⟩ := Option.mem_map.1 hy
    rw [hid]
    exact h.named x hx
  follows := fun ha => by
    obtain ⟨x, hx, hxa, hf⟩ := hfollows ha
    exact ⟨f x, Option.mem_map_of_mem f hx, (hid x).trans hxa, hf⟩
  once := honce

theorem Known.cleans (h : Known earlier found.course last ids time) (htime : time ≤ o.now)
    (hc : HostRuntime.Cleans found left o) :
    Known earlier left.course (last.map fun x => x.observe found left o) ids o.now ∧
      NoneDue left.course (last.map fun x => x.observe found left o) := by
  have hpast : found.invalidWindowSince ≤ o.now := le_trans h.since htime
  obtain ⟨n, e, r, hn, hr, hcourse⟩ := hc.course
  have hn' : n ≤ o.now := by
    rcases hn with rfl | rfl
    · exact hpast
    · exact lostSince_le hpast
  have hclean := h.cleaned hr
  rw [hcourse]
  refine ⟨h.moved (fun x => rfl) htime hn' (fun ha => absurd rfl ha) hclean.once, fun y hy _ => ?_⟩
  obtain ⟨x, hx, rfl⟩ := Option.mem_map.1 hy
  exact Ne.symm (h.named x hx)

/-- **The window of a session is watched as the grace counts it.** -/
theorem since_observe (left : HostRuntime) {x : WatchedSession} {n : Nat} (hnow : 1 ≤ o.now)
    (hpast : found.invalidWindowSince ≤ o.now)
    (h : ∀ t ∈ x.goneSince, found.invalidWindowSince ≠ 0 ∧ found.invalidWindowSince ≤ t)
    (hn : HostRuntime.SinceNow found o n) : ∀ t ∈ (x.observe found left o).goneSince, n ≠ 0 ∧ n ≤ t := by
  intro t ht
  have hgone : t ∈ x.goneNow found o := ht
  unfold WatchedSession.goneNow at hgone
  split at hgone
  · rename_i hg
    obtain ⟨hc, hw⟩ := Bool.and_eq_true_iff.1 hg
    obtain rfl := Option.some.inj hgone
    simp only [HostRuntime.SinceNow, hc, hw, if_true] at hn
    subst hn
    unfold HostRuntime.lostSince
    cases hx : x.goneSince with
    | none =>
      simp only [Option.getD_none]
      split <;> omega
    | some t0 =>
      obtain ⟨h0, hle⟩ := h t0 hx
      rw [if_neg h0]
      exact ⟨h0, hle⟩
  · cases hgone

theorem Follows.stays {x : WatchedSession} (h : Follows found.course x) (hnow : 1 ≤ o.now)
    (hpast : found.invalidWindowSince ≤ o.now) (hs : HostRuntime.Stays found left o) :
    Follows left.course (x.observe found left o) := by
  obtain ⟨n, hn, hc⟩ := hs.course
  have hsince := since_observe left hnow hpast h.since hn
  rcases hc with hc | ⟨r, -, hr, hc⟩ | ⟨-, hreported, ho, hc⟩
  · have hx := WatchedSession.connected_observe_of_same (x := x) (o := o) (congrArg Course.reports hc)
    rw [hc]
    exact ⟨h.launch, h.duration, h.connected.trans (by rw [hx]), h.deadline.trans (by rw [hx]; rfl), hsince⟩
  · have hx := WatchedSession.connected_observe_of_told (x := x) hr (congrArg Course.reports hc)
    rw [hc]
    exact ⟨h.launch, h.duration, h.connected.trans (by rw [hx]), h.deadline.trans (by rw [hx]; rfl), hsince⟩
  · have hnone : x.connectedAt = none := by
      have hconnected : found.sessionConnectedReported = x.connectedAt.isSome := h.connected
      have hfalse : found.sessionConnectedReported = false := hreported
      rw [hfalse] at hconnected
      simpa using hconnected.symm
    have hx := WatchedSession.connected_observe_of_connected (x := x) ho (congrArg Course.reports hc) hnone
    rw [hc]
    refine ⟨h.launch, h.duration, by rw [hx]; rfl, ?_, hsince⟩
    rw [hx]
    exact congrArg (fun d => o.now + d * 1000) h.duration

theorem Known.stays (h : Known earlier found.course last ids time) (htime : time ≤ o.now)
    (hs : HostRuntime.Stays found left o) :
    Known earlier left.course (last.map fun x => x.observe found left o) ids o.now := by
  have hpast : found.invalidWindowSince ≤ o.now := le_trans h.since htime
  obtain ⟨n, hn, hc⟩ := hs.course
  have hn' : n ≤ o.now := sinceNow_le hpast hn
  have hsame : left.course.activeSessionId = found.activeSessionId ∧ left.course.invalidWindowSince = n ∧
      ∀ id, terminals id left.reports = terminals id found.reports := by
    rcases hc with hc | ⟨r, hr, -, hc⟩ | ⟨-, -, -, hc⟩
    · exact ⟨congrArg Course.activeSessionId hc, congrArg Course.invalidWindowSince hc,
        fun id => congrArg (terminals id) (congrArg Course.reports hc)⟩
    · exact ⟨congrArg Course.activeSessionId hc, congrArg Course.invalidWindowSince hc, fun id =>
        (congrArg (terminals id) (congrArg Course.reports hc)).trans (terminals_cons_of_not hr id found.reports)⟩
    · exact ⟨congrArg Course.activeSessionId hc, congrArg Course.invalidWindowSince hc, fun id =>
        (congrArg (terminals id) (congrArg Course.reports hc)).trans
          (terminals_cons_of_not (by simp [Terminal]) id found.reports)⟩
  obtain ⟨hactive, hsince, hreports⟩ := hsame
  refine h.moved (fun x => rfl) htime (by rw [hsince]; exact hn') (fun ha => ?_) fun id hid => ?_
  · rw [hactive] at ha
    obtain ⟨x, hx, hxa, hf⟩ := h.follows ha
    exact ⟨x, hx, hxa.trans hactive.symm, hf.stays (le_trans h.started htime) hpast hs⟩
  · rw [hactive]
    exact (congrArg (· + _) (hreports id)).trans (h.once id hid)

/-- **A tick that ends no session leaves none due but one whose window has been gone for the grace, in a configuration
that does not let it end the session.** -/
theorem noneDue_stays (h : Known earlier found.course last ids time) (htime : time ≤ o.now)
    (hnone : NoneDue found.course last) (hs : HostRuntime.Stays found left o) :
    NoneDue left.course (last.map fun x => x.observe found left o) ↔
      found.windowReattachEnabled ∨ found.activeSessionId = "" ∨ found.sessionDeadline ≤ o.now ∨
        ∀ x ∈ last, ¬x.Gone found o := by
  have hpast : found.invalidWindowSince ≤ o.now := le_trans h.since htime
  obtain ⟨n, hn, hc⟩ := hs.course
  have hactive : left.course.activeSessionId = found.activeSessionId := by
    rcases hc with hc | ⟨r, -, -, hc⟩ | ⟨-, -, -, hc⟩ <;> exact congrArg Course.activeSessionId hc
  by_cases ha : found.activeSessionId = ""
  · refine iff_of_true (fun y hy _ => ?_) (.inr (.inl ha))
    obtain ⟨x, hx, rfl⟩ := Option.mem_map.1 hy
    rw [hactive, ha]
    exact Ne.symm (h.named x hx)
  obtain ⟨x, hx, hxa, hf⟩ := h.follows ha
  obtain rfl := hx
  have hsession := hs.session ha
  have hdue : x.due = false := by
    cases hd : x.due with
    | true => exact absurd hxa.symm (hnone x rfl hd)
    | false => rfl
  have hexpiry : ¬x.expiry ≤ o.now := by
    have hdeadline : found.sessionDeadline = _ := hf.deadline
    unfold WatchedSession.expiry
    cases hcon : x.connectedAt with
    | none =>
      rw [hcon] at hdeadline
      simp only [Option.elim_none] at hdeadline ⊢
      omega
    | some t =>
      rw [hcon] at hdeadline
      simp only [Option.elim_some] at hdeadline ⊢
      omega
  have hlaunch : ¬(found.captureStarted = false ∧ x.acceptedAt + 180000 ≤ o.now) := by
    rintro ⟨hc, hle⟩
    have hdeadline : found.launchDeadline = _ := hf.launch
    have := hs.launch ha hc
    omega
  have hoverdue : x.Overdue found o ↔ x.Gone found o := by simp [WatchedSession.Overdue, hexpiry, hlaunch]
  have hgone : found.windowReattachEnabled → ¬x.Gone found o := by
    rintro henabled ⟨t, ht, hle⟩
    have hsince := since_observe left (le_trans h.started htime) hpast hf.since hn t ht
    unfold WatchedSession.goneNow at ht
    split at ht
    · rename_i hg
      obtain ⟨hcap, hw⟩ := Bool.and_eq_true_iff.1 hg
      simp only [HostRuntime.SinceNow, hcap, hw, if_true] at hn
      refine hs.window ha hcap hw ⟨henabled, ?_⟩
      omega
    · cases ht
  have hobserve : NoneDue left.course ((some x).map fun x => x.observe found left o) ↔ ¬x.Gone found o := by
    rw [← hoverdue]
    constructor
    · intro hn hov
      exact hn _ rfl (by simp [WatchedSession.observe, hov]) (hactive.trans hxa.symm)
    · rintro hn y hy hyd
      obtain rfl := Option.some.inj hy
      simp [WatchedSession.observe, hdue, hn] at hyd
  rw [hobserve]
  constructor
  · exact fun hg => .inr (.inr (.inr fun y hy => Option.some.inj hy ▸ hg))
  · rintro (henabled | hfree | hdeadline | hg)
    · exact hgone henabled
    · exact absurd hfree ha
    · omega
    · exact hg x rfl

end

namespace Life

variable {earlier : List Report} {l l' : Life} {m : RuntimeMove}

/-- The moves of the other threads do not touch all this. -/
theorem course_other {s t : HostRuntime} (hm : ∀ o, m ≠ .tick o) (h : s.step m = some t) : t.course = s.course := by
  cases m with
  | tick o => exact absurd rfl (hm o)
  | queueTargetSelection processName preferredTitle =>
    obtain rfl := Option.some.inj h
    unfold HostRuntime.queueTargetSelection
    split <;> rfl
  | requestPresenceRefresh => exact Option.some.inj h ▸ rfl
  | handleMarketplaceCommand command =>
    obtain rfl := Option.some.inj h
    unfold HostRuntime.handleMarketplaceCommand
    split
    · split
      · rfl
      · split <;> rfl
    · rfl
  | beat b =>
    obtain ⟨loop, -, rfl⟩ := Option.map_eq_some_iff.1 h
    unfold HostRuntime.beat
    dsimp only
    split <;> rfl
  | peer state => exact Option.some.inj h ▸ rfl

def Sound (earlier : List Report) (l : Life) : Prop := Known earlier l.host.course l.last l.accepted l.clock

theorem step_other (hm : ∀ o, m ≠ .tick o) : l.step m = (l.host.step m).map fun host => { l with host } := by
  cases m with
  | tick o => exact absurd rfl (hm o)
  | queueTargetSelection processName preferredTitle => rfl
  | requestPresenceRefresh => rfl
  | handleMarketplaceCommand command => rfl
  | beat b => rfl
  | peer state => rfl

theorem exits_other (hm : ∀ o, m ≠ .tick o) : l.Exits m := by
  cases m with
  | tick o => exact absurd rfl (hm o)
  | queueTargetSelection processName preferredTitle => trivial
  | requestPresenceRefresh => trivial
  | handleMarketplaceCommand command => trivial
  | beat b => trivial
  | peer state => trivial

/-- **A step keeps what is known of the sessions, and leaves none due that is active exactly where the configuration
lets a gone window end the session, or the tick does not come to need it.** -/
theorem step_spec (h : l.Sound earlier) (hstep : l.step m = some l') :
    l'.Sound earlier ∧ (NoneDue l.host.course l.last → (NoneDue l'.host.course l'.last ↔ l.Exits m)) := by
  by_cases hm : ∀ o, m ≠ .tick o
  · rw [step_other hm] at hstep
    obtain ⟨host, hs, rfl⟩ := Option.map_eq_some_iff.1 hstep
    unfold Sound
    rw [course_other hm hs]
    exact ⟨h, fun hn => iff_of_true hn (exits_other hm)⟩
  · obtain ⟨o, rfl⟩ : ∃ o, m = .tick o := by simpa using hm
    simp only [step, tick] at hstep
    split at hstep
    · rename_i htimes
      obtain ⟨told, htold, rfl⟩ := Option.map_eq_some_iff.1 hstep
      have htime : l.clock ≤ o.now := by omega
      obtain ⟨hknown, hdue⟩ := known_command h htold
      rw [← HostRuntime.course_settle told o] at hknown hdue
      have hexits : l.Exits (.tick o) ↔ (told.settle o).windowReattachEnabled ∨
          (told.settle o).activeSessionId = "" ∨ (told.settle o).sessionDeadline ≤ o.now ∨
          ∀ x ∈ l.current o told, ¬x.Gone (told.settle o) o := by
        simp [Exits, htold]
      rcases HostRuntime.advance_course o (told.settle o) with hc | hs
      · obtain ⟨hk, hn⟩ := hknown.cleans htime hc
        refine ⟨hk, fun _ => iff_of_true hn (hexits.2 ?_)⟩
        rcases hc.reason with hr | hr | hr
        · exact .inr (.inr (.inl hr))
        · refine .inr (.inr (.inr fun x _ hg => ?_))
          obtain ⟨t, ht, -⟩ := hg
          simp [WatchedSession.goneNow, hr] at ht
        · exact .inl hr
      · exact ⟨hknown.stays htime hs, fun hn => (noneDue_stays hknown htime (hdue hn) hs).trans hexits.symm⟩
    · cases hstep

/-- A tick finds `reattach` as it was. -/
theorem reattach_found {o : Outside} {told : HostRuntime} (h : l.host.applyMarketplaceCommand o = some told) :
    (told.settle o).windowReattachEnabled = l.host.windowReattachEnabled := by
  have hcommand : told.windowReattachEnabled = l.host.windowReattachEnabled := by
    rcases HostRuntime.command_course l.host o h with ⟨hc | ⟨r, -, hc⟩, -⟩ | ⟨-, -, reason, hc⟩ |
      ⟨-, x, commandId, -, -, -, -, -, -, hc⟩ <;> exact congrArg Course.windowReattachEnabled hc
  exact (congrArg Course.windowReattachEnabled (HostRuntime.course_settle told o)).trans hcommand

theorem reattach_step (hstep : l.step m = some l') :
    l'.host.windowReattachEnabled = l.host.windowReattachEnabled := by
  by_cases hm : ∀ o, m ≠ .tick o
  · rw [step_other hm] at hstep
    obtain ⟨host, hs, rfl⟩ := Option.map_eq_some_iff.1 hstep
    exact congrArg Course.windowReattachEnabled (course_other hm hs)
  · obtain ⟨o, rfl⟩ : ∃ o, m = .tick o := by simpa using hm
    simp only [step, tick] at hstep
    split at hstep
    · obtain ⟨told, htold, rfl⟩ := Option.map_eq_some_iff.1 hstep
      refine Eq.trans ?_ (reattach_found htold)
      rcases HostRuntime.advance_course o (told.settle o) with hc | hs
      · obtain ⟨n, e, r, -, -, hc⟩ := hc.course
        exact congrArg Course.windowReattachEnabled hc
      · obtain ⟨n, -, hc | ⟨r, -, -, hc⟩ | ⟨-, -, -, hc⟩⟩ := hs.course <;>
          exact congrArg Course.windowReattachEnabled hc
    · cases hstep

theorem ends_iff (h : l.Sound earlier) : l.Ends earlier ↔ NoneDue l.host.course l.last :=
  ⟨fun he => he.ended, fun hn => ⟨hn, h.once⟩⟩

end Life

/-- The same from any host without a session. -/
theorem throughout_ends_iff {t : HostRuntime} (hfree : t.activeSessionId = "") (moves : List RuntimeMove) :
    Throughout Life.step (Life.Ends t.reports) (Life.start t) moves ↔
      Along Life.step Life.Exits (Life.start t) moves := by
  have hsound : (Life.start t).Sound t.reports := {
    started := le_max_left ..
    since := le_max_right ..
    named := fun x hx => by cases hx
    follows := fun ha => absurd hfree ha
    once := fun id hid => by
      have hne : (Life.start t).host.course.activeSessionId ≠ id := fun hn => hid (hn.symm.trans hfree)
      rw [if_neg hne]
      exact Nat.add_comm _ _ }
  refine throughout_iff_along (d := fun _ _ => True) (I := Life.Sound t.reports)
    (fun _ _ _ hl _ hstep => (Life.step_spec hl hstep).1)
    (fun l m l' hl _ he hstep => ?_) hsound ((Life.ends_iff hsound).2 fun x hx => by cases hx) along_true
  obtain ⟨hl', hiff⟩ := Life.step_spec hl hstep
  exact (Life.ends_iff hl').trans (hiff ((Life.ends_iff hl).1 he))

/-- **In a configuration with `reattach` on they all do.** -/
theorem ends_of_reattach {t : HostRuntime} (hfree : t.activeSessionId = "") (h : t.windowReattachEnabled)
    (moves : List RuntimeMove) : Throughout Life.step (Life.Ends t.reports) (Life.start t) moves := by
  refine (throughout_ends_iff hfree moves).2 ?_
  refine Along.of_along (I := fun l => l.host.windowReattachEnabled) (c := fun _ _ => True)
    (fun l m l' hl _ hstep => (Life.reattach_step hstep).trans hl) (fun l m hl _ => ?_) h along_true
  by_cases hm : ∀ o, m ≠ .tick o
  · exact Life.exits_other hm
  · obtain ⟨o, rfl⟩ : ∃ o, m = .tick o := by simpa using hm
    exact fun told htold => .inl ((Life.reattach_found htold).trans hl)

/-- **Every session of a run from a successful start ends in time, and `CleanupSession` attempts exactly one terminal
event for it, exactly where no tick comes to need a gone window to end a session that the configuration does not let it
end.** -/
theorem session_ends_iff {s t : HostRuntime} (b : HostRuntime.Boot) (hs : s.Stopped) (h : s.start b = some t)
    (moves : List RuntimeMove) :
    Throughout Life.step (Life.Ends t.reports) (Life.start t) moves ↔
      Along Life.step Life.Exits (Life.start t) moves :=
  throughout_ends_iff (HostRuntime.start_spec s hs h).session moves

/-! ### A game that exits -/

/-- The game of a session exits in a configuration without `reattach`, and stays away for a second. -/
def exiting : List RuntimeMove :=
  [.handleMarketplaceCommand
      (HostRuntime.prepareCommand "0123456789abcdef0123456789abcdef0123" "0123456789abcdef0123456789abcdef"),
    .tick { inventory := HostRuntime.installed, pollTarget := some ⟨⟨1, 1⟩, "game.exe"⟩ },
    .tick { commandTime := 2, selectionTime := 2, now := 2, isWindow := false },
    .tick { commandTime := 1002, selectionTime := 1002, now := 1002, isWindow := false }]

def withoutReattach : HostRuntime.Boot where
  config := some { targetProcessName := "game.exe", reattach := some false }
  hostId := "host"
  roomId := "room"
  pairingCode := "code"

theorem session_ends_iff_exiting : ∃ t, ({} : HostRuntime).start HostRuntime.aBoot = some t ∧
    (Throughout Life.step (Life.Ends t.reports) (Life.start t) exiting ↔
      Along Life.step Life.Exits (Life.start t) exiting) :=
  ⟨_, rfl, session_ends_iff HostRuntime.aBoot HostRuntime.stopped_new rfl exiting⟩

/-- **A session outlives its game.** -/
theorem session_outlives_game : ¬∀ (s t : HostRuntime) (b : HostRuntime.Boot) (moves : List RuntimeMove), s.Stopped →
    s.start b = some t → Throughout Life.step (Life.Ends t.reports) (Life.start t) moves := by
  intro h
  obtain ⟨t, ht⟩ : ∃ t, ({} : HostRuntime).start withoutReattach = some t := ⟨_, rfl⟩
  have hends := h {} t withoutReattach exiting HostRuntime.stopped_new ht
  obtain ⟨l, hl, x, hx, hdue, hactive⟩ : ∃ l, after Life.step (Life.start t) exiting = some l ∧
      ∃ x ∈ l.last, x.due = true ∧ l.host.activeSessionId = x.sessionId := by
    obtain rfl := Option.some.inj ht
    exact ⟨_, rfl, _, rfl, rfl, rfl⟩
  exact (hends.after hl).ended x hx hdue hactive

end Host
end CloudGaming
