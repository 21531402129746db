import CloudGaming.Async.Along
import CloudGaming.Host.Runtime
/-!
# Controller — starting and stopping the host from another thread

`HostController` with one control thread that calls `StartAsync`, `StopAsync` and `WaitForStop`, and the worker threads
it makes.  A step is a section under the mutex, an atomic load or store, or the making or joining of a thread; what
`Start`, `Tick` and `Stop` do between two of these is one step with any outcome it may have.  `Start` clears the stop
flags some time after `StartAsync` has returned: a stop request that comes earlier is lost, and no other one is
(`stop_kept`).
-/
namespace CloudGaming
namespace Host
namespace HostController

open Async
open CloudGaming.Host.Runtime (HostState)

/-- What the threads share: `state_`, `stopRequested_` and `workerActive_`, and the flag of `ShutdownManager`. -/
structure Shared where
  state : HostState := .stopped
  stopRequested : Bool := false
  shutdown : Bool := false
  workerActive : Bool := false
  deriving DecidableEq, Repr

/-- `IsStopRequested`; the loop reads the two one after the other. -/
def Shared.isStopRequested (g : Shared) : Bool := g.stopRequested || g.shutdown

/-- Where a worker thread stands: what its next step does. -/
inductive Worker where
  -- `Start`
  | start
  | clearStop
  | clearShutdown
  | setInitializing
  | startServices
  -- `Run`
  | loadStop
  | loadShutdown
  | tick
  -- `Stop`, called where `Start` failed or where `Run` is over
  | stop (startFailed : Bool)
  | stopping (startFailed : Bool)
  | storeStop (startFailed : Bool)
  | storeShutdown (startFailed : Bool)
  | release (startFailed : Bool)
  | fail
  | deactivate
  | ended
  deriving DecidableEq, Repr

/-- How the part of a step that is not modelled ends; `Tick` leaves a state, and may throw. -/
inductive Outcome where
  | started | lockFailed | startFailed
  | ticked (state : HostState) (threw : Bool)
  deriving DecidableEq, Repr

/-- The states in which `Start` does something. -/
def startable : HostState → Bool
  | .stopped | .failed => true
  | _ => false

/-- The states in which `Stop` does something. -/
def stoppable : HostState → Bool
  | .stopped | .stopping => false
  | _ => true

/-- What `Start` goes on to, once `Stop` has returned. -/
def afterStop (startFailed : Bool) : Worker := if startFailed then .fail else .deactivate

def Worker.step (o : Outcome) (g : Shared) : Worker → Option (Worker × Shared)
  | .start => some (if startable g.state then .clearStop else .loadStop, g)
  | .clearStop => some (.clearShutdown, { g with stopRequested := false })
  | .clearShutdown => some (.setInitializing, { g with shutdown := false })
  | .setInitializing => some (.startServices, { g with state := .initializing })
  | .startServices =>
    match o with
    | .started => some (.loadStop, { g with state := .idle })
    | .lockFailed => some (.deactivate, { g with state := .failed })
    | .startFailed => some (.stop true, { g with state := .failed })
    | .ticked _ _ => none
  | .loadStop => some (if g.stopRequested then .stop false else .loadShutdown, g)
  | .loadShutdown => some (if g.shutdown then .stop false else .tick, g)
  | .tick =>
    match o with
    | .ticked state threw =>
      if stoppable state then some (if threw then .stop false else .loadStop, { g with state := state }) else none
    | _ => none
  | .stop f => some (if stoppable g.state then .stopping f else afterStop f, g)
  | .stopping f => some (.storeStop f, { g with state := .stopping })
  | .storeStop f => some (.storeShutdown f, { g with stopRequested := true })
  | .storeShutdown f => some (.release f, { g with shutdown := true })
  | .release f => some (afterStop f, { g with state := .stopped })
  | .fail => some (.deactivate, { g with state := .failed })
  | .deactivate => some (.ended, { g with workerActive := false })
  | .ended => none

/-- Where the control thread stands. -/
inductive Control where
  | idle
  -- `StartAsync`
  | takeCompleted
  | joinCompleted (t : Nat)
  | create
  -- `StopAsync`, which is `RequestStop`
  | storeStop
  | storeShutdown
  -- `WaitForStop`
  | takeWorker
  | joinWorker (t : Nat)
  deriving DecidableEq, Repr

/-- The controller; `worker` is the thread `worker_` can join, and `stopReturned` tells whether a `StopAsync` has
returned since `StartAsync` was called last: history. -/
structure Controller where
  g : Shared := {}
  threads : List Worker := []
  worker : Option Nat := none
  control : Control := .idle
  stopReturned : Bool := false
  deriving DecidableEq, Repr

/-- What happens: the control thread makes a call, it takes its next step, or a worker does. -/
inductive Move where
  | startAsync
  | stopAsync
  | waitForStop
  | control
  | worker (t : Nat) (o : Outcome)
  deriving DecidableEq, Repr

/-- The next step of the control thread; it waits for the thread it joins. -/
def Controller.controlStep (s : Controller) : Option Controller :=
  match s.control with
  | .idle => none
  | .takeCompleted =>
    if s.g.workerActive then some { s with control := .idle }
    else
      match s.worker with
      | some t => some { s with worker := none, control := .joinCompleted t }
      | none => some { s with control := .create }
  | .joinCompleted t => if s.threads[t]? = some .ended then some { s with control := .create } else none
  | .create =>
    some
      { s with
        g := { s.g with workerActive := true }
        threads := s.threads ++ [.start]
        worker := some s.threads.length
        control := .idle }
  | .storeStop => some { s with g := { s.g with stopRequested := true }, control := .storeShutdown }
  | .storeShutdown => some { s with g := { s.g with shutdown := true }, control := .idle, stopReturned := true }
  | .takeWorker =>
    match s.worker with
    | some t => some { s with worker := none, control := .joinWorker t }
    | none => some { s with control := .idle }
  | .joinWorker t => if s.threads[t]? = some .ended then some { s with control := .idle } else none

def Controller.step (s : Controller) : Move → Option Controller
  | .startAsync =>
    if s.control = .idle then some { s with control := .takeCompleted, stopReturned := false } else none
  | .stopAsync => if s.control = .idle then some { s with control := .storeStop } else none
  | .waitForStop => if s.control = .idle then some { s with control := .takeWorker } else none
  | .control => s.controlStep
  | .worker t o =>
    (s.threads[t]?.bind (·.step o s.g)).map fun r => { s with threads := s.threads.set t r.1, g := r.2 }

/-! ## What is claimed, and when -/

/-- The worker is inside the loop of `Run`. -/
def Worker.inRun : Worker → Bool
  | .loadStop | .loadShutdown | .tick => true
  | _ => false

/-- Once `StopAsync` has returned, and `StartAsync` was not called since, no worker runs on without seeing it. -/
def Controller.StopKept (s : Controller) : Prop :=
  s.stopReturned → ∀ w ∈ s.threads, w.inRun → s.g.isStopRequested

/-- At most one worker thread runs. -/
def Controller.AtMostOne (s : Controller) : Prop := s.threads.countP (· ≠ .ended) ≤ 1

/-- The worker no longer clears the request: it has cleared both flags, or the first one and `stopRequested_` is set. -/
def Worker.Hears (g : Shared) : Worker → Prop
  | .start | .clearStop => False
  | .clearShutdown => g.stopRequested
  | _ => True

/-- Where `StopAsync` makes its second store, and so returns, the workers hear it. -/
def Controller.Heard (s : Controller) : Move → Prop
  | .control => s.control = .storeShutdown → ∀ w ∈ s.threads, w.Hears s.g
  | _ => True

instance Worker.decidableHears (g : Shared) : ∀ w : Worker, Decidable (w.Hears g)
  | .start | .clearStop => .isFalse id
  | .clearShutdown => inferInstanceAs (Decidable (g.stopRequested = true))
  | .setInitializing | .startServices | .loadStop | .loadShutdown | .tick | .stop _ | .stopping _ | .storeStop _
  | .storeShutdown _ | .release _ | .fail | .deactivate | .ended => .isTrue trivial

instance Controller.decidableHeard (s : Controller) : ∀ m, Decidable (s.Heard m)
  | .control => inferInstanceAs (Decidable (s.control = .storeShutdown → ∀ w ∈ s.threads, w.Hears s.g))
  | .startAsync | .stopAsync | .waitForStop | .worker _ _ => .isTrue trivial

/-! ## One worker at a time -/

/-- The thread the controller or the control thread has in hand. -/
def Controller.handle (s : Controller) : Option Nat :=
  match s.control with
  | .joinCompleted t | .joinWorker t => some t
  | .create => none
  | _ => s.worker

/-- The host state a worker finds where it stands. -/
def Worker.Expects (state : HostState) : Worker → Prop
  | .start | .clearStop | .clearShutdown | .setInitializing | .deactivate => startable state
  | .startServices => state = .initializing
  | .loadStop | .loadShutdown | .tick | .stop _ => stoppable state
  | .stopping _ | .storeStop _ | .storeShutdown _ | .release _ | .fail | .ended => True

/-- A thread that runs is the one in hand, none is in hand where a new one is made, and the host state is the one the
worker left. -/
structure Controller.Inv (s : Controller) : Prop where
  sole : ∀ t w, s.threads[t]? = some w → w ≠ .ended → s.handle = some t
  free : s.control = .create ∨ (∃ t, s.control = .joinCompleted t) → s.worker = none
  expects : ∀ w ∈ s.threads, w.Expects s.g.state
  rests : (∀ w ∈ s.threads, w = .ended) → startable s.g.state

section steps
variable {s s' : Controller} {m : Move}

theorem inv_initial : Controller.Inv {} where
  sole := by simp
  free := by simp
  expects := by simp
  rests := fun _ => rfl

theorem step_ne_ended {o : Outcome} {g : Shared} {w : Worker} {r : Worker × Shared} (h : w.step o g = some r) :
    w ≠ .ended := by
  rintro rfl
  cases h

/-- A step leaves the state that is expected where it leads. -/
theorem Worker.step_expects {o : Outcome} {g g' : Shared} {w w' : Worker} (h : w.Expects g.state)
    (hs : w.step o g = some (w', g')) : w'.Expects g'.state ∧ (w' = .ended → startable g'.state) := by
  cases w with
  | start =>
    cases hs
    have hs : startable g.state = true := h
    simp [hs, Expects]
  | clearStop | clearShutdown => cases hs; exact ⟨h, fun h => by cases h⟩
  | setInitializing => cases hs; exact ⟨rfl, fun h => by cases h⟩
  | startServices =>
    simp only [Worker.step] at hs
    split at hs <;> cases hs <;> exact ⟨rfl, fun h => by cases h⟩
  | loadStop | loadShutdown =>
    simp only [Worker.step] at hs
    split at hs <;> cases hs <;> exact ⟨h, fun h => by cases h⟩
  | tick =>
    simp only [Worker.step] at hs
    split at hs
    · split at hs
      · rename_i hst
        split at hs <;> cases hs <;> exact ⟨hst, fun h => by cases h⟩
      · cases hs
    · cases hs
  | stop f =>
    cases hs
    have hs : stoppable g.state = true := h
    simp [hs, Expects]
  | stopping f | storeStop f | storeShutdown f => cases hs; exact ⟨trivial, fun h => by cases h⟩
  | release f => cases hs; cases f <;> exact ⟨by trivial, fun h => by cases h⟩
  | fail => cases hs; exact ⟨rfl, fun h => by cases h⟩
  | deactivate => cases hs; exact ⟨trivial, fun _ => h⟩
  | ended => cases hs

/-- Nothing but the point of the control thread, and who has the worker in hand, has changed. -/
theorem Controller.Inv.control (h : s.Inv) (ht : s'.threads = s.threads) (hg : s'.g.state = s.g.state)
    (hh : s'.handle = s.handle) (hf : s'.control = .create ∨ (∃ t, s'.control = .joinCompleted t) → s'.worker = none) :
    s'.Inv where
  sole := by
    rw [ht, hh]
    exact h.sole
  free := hf
  expects := by
    rw [ht, hg]
    exact h.expects
  rests := by
    rw [ht, hg]
    exact h.rests

/-- The thread in hand has ended, and so has every other. -/
theorem Controller.Inv.all_ended (h : s.Inv) {t : Nat} (hh : s.handle = some t) (ht : s.threads[t]? = some .ended) :
    ∀ w ∈ s.threads, w = .ended := by
  intro w hw
  by_contra hne
  obtain ⟨t', ht'⟩ := List.getElem?_of_mem hw
  have := h.sole t' w ht' hne
  rw [hh] at this
  cases this
  exact hne (Option.some.inj (ht'.symm.trans ht))

theorem inv_controlStep (h : s.Inv) (hs : s.controlStep = some s') : s'.Inv := by
  have hsole := h.sole
  cases hc : s.control with
  | idle => simp only [Controller.controlStep, hc] at hs; cases hs
  | takeCompleted =>
    simp only [Controller.controlStep, hc] at hs
    split at hs
    · cases hs
      exact h.control rfl rfl (by simp [Controller.handle, hc]) (by simp)
    · split at hs
      · rename_i hw
        cases hs
        exact h.control rfl rfl (by simp [Controller.handle, hc, hw]) (by simp)
      · rename_i hw
        cases hs
        exact h.control rfl rfl (by simp [Controller.handle, hc, hw]) (by simp [hw])
  | joinCompleted t =>
    simp only [Controller.controlStep, hc] at hs
    split at hs
    · rename_i ht
      cases hs
      have hall := h.all_ended (by simp only [Controller.handle, hc]) ht
      exact ⟨fun t' w ht' hw => absurd (hall w (List.mem_of_getElem? ht')) hw,
        fun _ => h.free (.inr ⟨t, hc⟩), h.expects, h.rests⟩
    · cases hs
  | create =>
    simp only [Controller.controlStep, hc] at hs
    cases hs
    have hall : ∀ w ∈ s.threads, w = .ended := by
      intro w hw
      by_contra hne
      obtain ⟨t, ht⟩ := List.getElem?_of_mem hw
      have := h.sole t w ht hne
      simp [Controller.handle, hc] at this
    refine ⟨fun t w ht hw => ?_, by simp, fun w hw => ?_, fun hr => ?_⟩
    · rcases Nat.lt_trichotomy t s.threads.length with hlt | rfl | hgt
      · rw [List.getElem?_append_left hlt] at ht
        exact absurd (hall w (List.mem_of_getElem? ht)) hw
      · rfl
      · rw [List.getElem?_eq_none (by simp; omega)] at ht
        cases ht
    · rcases List.mem_append.1 hw with hw | hw
      · exact h.expects w hw
      · cases List.mem_singleton.1 hw
        exact h.rests hall
    · exact h.rests hall
  | storeStop | storeShutdown =>
    simp only [Controller.controlStep, hc] at hs
    cases hs
    exact h.control rfl rfl (by simp [Controller.handle, hc]) (by simp)
  | takeWorker =>
    simp only [Controller.controlStep, hc] at hs
    split at hs
    · rename_i hw
      cases hs
      exact h.control rfl rfl (by simp [Controller.handle, hc, hw]) (by simp)
    · rename_i hw
      cases hs
      exact h.control rfl rfl (by simp [Controller.handle, hc, hw]) (by simp)
  | joinWorker t =>
    simp only [Controller.controlStep, hc] at hs
    split at hs
    · rename_i ht
      cases hs
      have hall := h.all_ended (by simp only [Controller.handle, hc]) ht
      exact ⟨fun t' w ht' hw => absurd (hall w (List.mem_of_getElem? ht')) hw, by simp, h.expects, h.rests⟩
    · cases hs

/-- What a step of a worker does to the others: they have ended. -/
theorem Controller.Inv.others (h : s.Inv) {t t' : Nat} {w w' : Worker} (hw : s.threads[t]? = some w) (hne : w ≠ .ended)
    (hw' : s.threads[t']? = some w') (ht : t ≠ t') : w' = .ended := by
  by_contra hne'
  exact ht (Option.some.inj ((h.sole t w hw hne).symm.trans (h.sole t' w' hw' hne')))

theorem inv_worker {t : Nat} {o : Outcome} (h : s.Inv) (hs : s.step (.worker t o) = some s') : s'.Inv := by
  obtain ⟨⟨w₁, g₁⟩, hr, rfl⟩ := Option.map_eq_some_iff.1 hs
  obtain ⟨w, hw, hstep⟩ := Option.bind_eq_some_iff.1 hr
  have hne := step_ne_ended hstep
  obtain ⟨hexp, hend⟩ := Worker.step_expects (h.expects w (List.mem_of_getElem? hw)) hstep
  have hlt : t < s.threads.length := (List.getElem?_eq_some_iff.1 hw).1
  refine ⟨fun t' w' ht' hw' => ?_, h.free, fun w' hw' => ?_, fun hall => hend (hall w₁ (List.mem_set hlt w₁))⟩
  · rw [List.getElem?_set] at ht'
    split at ht'
    · rename_i heq
      exact heq ▸ h.sole t w hw hne
    · exact h.sole t' w' ht' hw'
  · obtain ⟨t', ht'⟩ := List.getElem?_of_mem hw'
    rw [List.getElem?_set] at ht'
    split at ht'
    · cases ht'
      exact hexp
    · rename_i hne'
      cases h.others hw hne ht' hne'
      trivial

theorem inv_step (h : s.Inv) (hs : s.step m = some s') : s'.Inv := by
  cases m with
  | startAsync | stopAsync | waitForStop =>
    simp only [Controller.step] at hs
    split at hs
    · rename_i hc
      cases hs
      exact h.control rfl rfl (by simp [Controller.handle, hc]) (by simp)
    · cases hs
  | control => exact inv_controlStep h hs
  | worker t o => exact inv_worker h hs

/-- At most one thread of the list runs where the running ones share their index. -/
theorem countP_le_one {p : Worker → Bool} {l : List Worker} {i : Option Nat}
    (h : ∀ t w, l[t]? = some w → p w → i = some t) : l.countP p ≤ 1 := by
  induction l generalizing i with
  | nil => simp
  | cons w l ih =>
    rw [List.countP_cons]
    by_cases hw : p w
    · have hi : i = some 0 := h 0 w rfl hw
      have hnone : l.countP p = 0 := by
        refine List.countP_eq_zero.2 fun w' hw' hp => ?_
        obtain ⟨t, ht⟩ := List.getElem?_of_mem hw'
        cases hi ▸ h (t + 1) w' ht hp
      simp [hw, hnone]
    · have htail : l.countP p ≤ 1 := by
        refine ih (i := i.map (· - 1)) fun t w' ht hp => ?_
        rw [h (t + 1) w' ht hp]
        rfl
      simpa [hw] using htail

theorem atMostOne_of_inv (h : s.Inv) : s.AtMostOne :=
  countP_le_one fun t w ht hw => h.sole t w ht (by simpa using hw)

/-! ## Stop requests -/

/-- A stop request that has returned is still there for the worker to see. -/
def Worker.Obeys (g : Shared) : Worker → Prop
  | .start | .clearStop => False
  | .clearShutdown => g.stopRequested
  | .setInitializing | .startServices | .loadStop | .loadShutdown | .tick => g.isStopRequested
  | .stop _ | .stopping _ | .storeStop _ | .storeShutdown _ | .release _ | .fail | .deactivate | .ended => True

/-- `StartAsync` has not returned. -/
def Control.starting : Control → Bool
  | .takeCompleted | .joinCompleted _ | .create => true
  | _ => false

structure Controller.Obeyed (s : Controller) : Prop where
  starting : s.control.starting → ¬s.stopReturned
  obeys : s.stopReturned → ∀ w ∈ s.threads, w.Obeys s.g

theorem stopKept_of_obeyed (h : s.Obeyed) : s.StopKept := by
  intro hr w hw hin
  have := h.obeys hr w hw
  cases w <;> first | exact this | cases hin

/-- A worker that obeys goes on to. -/
theorem Worker.step_obeys {o : Outcome} {g g' : Shared} {w w' : Worker} (h : w.Obeys g)
    (hs : w.step o g = some (w', g')) : w'.Obeys g' := by
  cases w with
  | start | clearStop => cases h
  | clearShutdown =>
    cases hs
    have hr : g.stopRequested = true := h
    simp [Obeys, Shared.isStopRequested, hr]
  | setInitializing => cases hs; exact h
  | startServices =>
    simp only [Worker.step] at hs
    split at hs <;> cases hs <;> first | exact h | trivial
  | loadStop | loadShutdown =>
    simp only [Worker.step] at hs
    split at hs <;> cases hs <;> first | exact h | trivial
  | tick =>
    simp only [Worker.step] at hs
    split at hs
    · split at hs
      · split at hs <;> cases hs <;> first | exact h | trivial
      · cases hs
    · cases hs
  | stop f =>
    cases hs
    cases f <;> cases stoppable g.state <;> trivial
  | stopping f | storeStop f | storeShutdown f | fail | deactivate => cases hs; trivial
  | release f => cases hs; cases f <;> trivial
  | ended => cases hs

/-- Setting a flag costs no worker its obedience. -/
theorem Worker.Obeys.set {g g' : Shared} {w : Worker} (h : w.Obeys g) (hs : g.stopRequested → g'.stopRequested)
    (hd : g.shutdown → g'.shutdown) : w.Obeys g' := by
  have hi : g.isStopRequested → g'.isStopRequested := by
    simp only [Shared.isStopRequested, Bool.or_eq_true]
    exact Or.imp hs hd
  cases w <;> first | exact h | exact hs h | exact hi h

/-- Once both flags are set, a worker that hears the request obeys it. -/
theorem Worker.Hears.obeys {g g' : Shared} {w : Worker} (h : w.Hears g) (hs : g'.stopRequested = g.stopRequested)
    (hd : g'.shutdown) : w.Obeys g' := by
  have hi : g'.isStopRequested := by simp [Shared.isStopRequested, hd]
  cases w <;> first | exact h | exact hi | exact hs.trans h

theorem obeyed_controlStep (h : s.Obeyed) (hh : s.control = .storeShutdown → ∀ w ∈ s.threads, w.Hears s.g)
    (hs : s.controlStep = some s') : s'.Obeyed := by
  cases hc : s.control with
  | idle => simp only [Controller.controlStep, hc] at hs; cases hs
  | takeCompleted =>
    have hn : ¬s.stopReturned := h.starting (by simp [hc, Control.starting])
    simp only [Controller.controlStep, hc] at hs
    split at hs
    · cases hs; exact ⟨fun _ => hn, h.obeys⟩
    · split at hs <;> cases hs <;> exact ⟨fun _ => hn, h.obeys⟩
  | joinCompleted t =>
    simp only [Controller.controlStep, hc] at hs
    split at hs <;> cases hs
    exact ⟨fun _ => h.starting (by simp [hc, Control.starting]), h.obeys⟩
  | create =>
    have hn : ¬s.stopReturned := h.starting (by simp [hc, Control.starting])
    simp only [Controller.controlStep, hc] at hs
    cases hs
    exact ⟨fun _ => hn, fun hr => absurd hr hn⟩
  | storeStop =>
    simp only [Controller.controlStep, hc] at hs
    cases hs
    exact ⟨(fun hst => by cases hst), fun hr w hw => (h.obeys hr w hw).set (fun _ => rfl) id⟩
  | storeShutdown =>
    simp only [Controller.controlStep, hc] at hs
    cases hs
    exact ⟨(fun hst => by cases hst), fun _ w hw => (hh hc w hw).obeys rfl rfl⟩
  | takeWorker =>
    simp only [Controller.controlStep, hc] at hs
    split at hs <;> cases hs <;> exact ⟨(fun hst => by cases hst), h.obeys⟩
  | joinWorker t =>
    simp only [Controller.controlStep, hc] at hs
    split at hs <;> cases hs
    exact ⟨(fun hst => by cases hst), h.obeys⟩

theorem obeyed_step (hi : s.Inv) (h : s.Obeyed) (hh : s.Heard m) (hs : s.step m = some s') : s'.Obeyed := by
  cases m with
  | startAsync =>
    simp only [Controller.step] at hs
    split at hs <;> cases hs
    exact ⟨(fun _ hr => by cases hr), fun hr => by cases hr⟩
  | stopAsync | waitForStop =>
    simp only [Controller.step] at hs
    split at hs <;> cases hs
    exact ⟨(fun hst => by cases hst), h.obeys⟩
  | control => exact obeyed_controlStep h hh hs
  | worker t o =>
    obtain ⟨⟨w₁, g₁⟩, hr, rfl⟩ := Option.map_eq_some_iff.1 hs
    obtain ⟨w, hw, hstep⟩ := Option.bind_eq_some_iff.1 hr
    refine ⟨h.starting, fun hret w' hw' => ?_⟩
    obtain ⟨t', ht'⟩ := List.getElem?_of_mem hw'
    rw [List.getElem?_set] at ht'
    split at ht'
    · obtain rfl : w₁ = w' := by
        split at ht' <;> cases ht'
        rfl
      exact Worker.step_obeys (h.obeys hret w (List.mem_of_getElem? hw)) hstep
    · rename_i hne
      cases hi.others hw (step_ne_ended hstep) ht' hne
      trivial

/-! ### A request that is not heard -/

/-- Some run from here has a worker run on without seeing the request. -/
def Controller.Loses (s : Controller) : Prop := ∃ ms t, after Controller.step s ms = some t ∧ ¬t.StopKept

theorem Controller.Loses.of_step (h : s'.Loses) (hs : s.step m = some s') : s.Loses := by
  obtain ⟨ms, t, ht, hn⟩ := h
  exact ⟨m :: ms, t, by simpa only [after, hs, Option.bind_some] using ht, hn⟩

theorem Controller.Loses.of_worker {t : Nat} {o : Outcome} {w : Worker} {r : Worker × Shared}
    (h : { s with threads := s.threads.set t r.1, g := r.2 }.Loses) (hw : s.threads[t]? = some w)
    (hr : w.step o s.g = some r) : s.Loses :=
  h.of_step (m := .worker t o) (by simp only [Controller.step, hw, Option.bind_some, hr, Option.map_some])

theorem getElem?_set_get {l : List Worker} {t : Nat} {w v : Worker} (h : l[t]? = some w) :
    (l.set t v)[t]? = some v :=
  List.getElem?_set_self (List.getElem?_eq_some_iff.1 h).1

theorem loses_of_clearShutdown {t : Nat} (hr : s.stopReturned) (hw : s.threads[t]? = some .clearShutdown)
    (hn : s.g.stopRequested = false) : s.Loses := by
  refine .of_worker (o := .started) (.of_worker (o := .started) (.of_worker (o := .started) ?_
    (getElem?_set_get (getElem?_set_get hw)) rfl) (getElem?_set_get hw) rfl) hw rfl
  refine ⟨[], _, rfl, fun hkept => ?_⟩
  have hlast := getElem?_set_get (v := .loadStop) (getElem?_set_get (v := .startServices)
    (getElem?_set_get (v := .setInitializing) hw))
  have := hkept hr .loadStop (List.mem_of_getElem? hlast) rfl
  simp [Shared.isStopRequested, hn] at this

theorem loses_of_clearStop {t : Nat} (hr : s.stopReturned) (hw : s.threads[t]? = some .clearStop) : s.Loses :=
  .of_worker (o := .started) (loses_of_clearShutdown hr (getElem?_set_get hw) rfl) hw rfl

theorem loses_of_start {t : Nat} (hr : s.stopReturned) (hw : s.threads[t]? = some .start)
    (hstate : startable s.g.state) : s.Loses :=
  .of_worker (o := .started) (loses_of_clearStop hr (by rw [if_pos hstate]; exact getElem?_set_get hw)) hw rfl

/-- **A stop request that is not heard may be lost.** -/
theorem loses_of_not_heard (h : s.Inv) (hn : ¬s.Heard .control) (hs : s.step .control = some s') : s'.Loses := by
  simp only [Controller.Heard, not_forall] at hn
  obtain ⟨hc, w, hw, hnot⟩ := hn
  have hexp := h.expects w hw
  obtain ⟨t, ht⟩ := List.getElem?_of_mem hw
  simp only [Controller.step, Controller.controlStep, hc] at hs
  cases hs
  cases w with
  | start => exact loses_of_start rfl ht hexp
  | clearStop => exact loses_of_clearStop rfl ht
  | clearShutdown => exact loses_of_clearShutdown rfl ht (by simpa [Worker.Hears] using hnot)
  | _ => exact absurd trivial hnot

/-! ### The end of the worker -/

/-- How many steps a worker that obeys takes at most. -/
def Worker.rank (g : Shared) : Worker → Nat
  | .start => 16
  | .clearStop => 15
  | .clearShutdown => 14
  | .setInitializing => 13
  | .startServices => 12
  | .loadShutdown => if g.shutdown then 8 else 11
  | .tick => 10
  | .loadStop => if g.stopRequested then 8 else 9
  | .stop _ => 7
  | .stopping _ => 6
  | .storeStop _ => 5
  | .storeShutdown _ => 4
  | .release _ => 3
  | .fail => 2
  | .deactivate => 1
  | .ended => 0

theorem Worker.step_rank {o : Outcome} {g g' : Shared} {w w' : Worker} (h : w.Obeys g)
    (hs : w.step o g = some (w', g')) : w'.rank g' < w.rank g := by
  cases w with
  | start | clearStop => cases h
  | startServices =>
    simp only [Worker.step] at hs
    split at hs <;> cases hs <;> simp only [rank] <;> first | omega | (split <;> omega)
  | loadStop =>
    simp only [Worker.step] at hs
    split at hs
    · rename_i hr
      cases hs
      simp [rank, hr]
    · rename_i hr
      cases hs
      have hd : g.shutdown = true := by simpa [Obeys, Shared.isStopRequested, hr] using h
      simp [rank, hr, hd]
  | loadShutdown =>
    simp only [Worker.step] at hs
    split at hs <;> rename_i hd <;> cases hs <;> simp [rank, hd]
  | tick =>
    simp only [Worker.step] at hs
    split at hs
    · split at hs
      · split at hs <;> cases hs <;> simp only [rank]
        · omega
        · split <;> omega
      · cases hs
    · cases hs
  | stop f => cases hs; cases f <;> cases stoppable g.state <;> simp [rank, afterStop]
  | release f => cases hs; cases f <;> simp [rank, afterStop]
  | clearShutdown | setInitializing | stopping f | storeStop f | storeShutdown f | fail | deactivate =>
    cases hs; simp [rank]
  | ended => cases hs

theorem Worker.rank_set {g g' : Shared} (w : Worker) (hs : g.stopRequested → g'.stopRequested)
    (hd : g.shutdown → g'.shutdown) : w.rank g' ≤ w.rank g := by
  cases w with
  | loadStop =>
    simp only [rank]
    by_cases h : g.stopRequested
    · simp [h, hs h]
    · rw [if_neg h]
      split <;> omega
  | loadShutdown =>
    simp only [rank]
    by_cases h : g.shutdown
    · simp [h, hd h]
    · rw [if_neg h]
      split <;> omega
  | _ => exact Nat.le_refl _

/-- A worker that has not ended can go on. -/
theorem Worker.step_isSome (g : Shared) {w : Worker} (h : w ≠ .ended) : ∃ o r, w.step o g = some r := by
  cases w with
  | ended => exact absurd rfl h
  | tick => exact ⟨.ticked .idle false, _, rfl⟩
  | _ => exact ⟨.started, _, rfl⟩

/-- The move is a step of the thread. -/
def Move.ofWorker (t : Nat) : Move → Bool
  | .worker t' _ => t' = t
  | _ => false

/-- Once a stop request that is obeyed has returned, a step brings its thread nearer to its end. -/
theorem rank_step (hi : s.Inv) (h : s.Obeyed) (hr : s.stopReturned) (hm : m ≠ .startAsync) (hs : s.step m = some s')
    {t : Nat} {w : Worker} (hw : s.threads[t]? = some w) :
    s'.stopReturned ∧ ∃ w', s'.threads[t]? = some w' ∧
      (if m.ofWorker t then 1 else 0) + w'.rank s'.g ≤ w.rank s.g := by
  have hstay : ∀ {u : Controller}, u.stopReturned = true → u.threads = s.threads →
      (s.g.stopRequested → u.g.stopRequested) → (s.g.shutdown → u.g.shutdown) →
      u.stopReturned ∧ ∃ w', u.threads[t]? = some w' ∧ 0 + w'.rank u.g ≤ w.rank s.g := by
    intro u hu ht h1 h2
    exact ⟨hu, w, ht ▸ hw, by simpa using w.rank_set h1 h2⟩
  cases m with
  | startAsync => exact absurd rfl hm
  | stopAsync | waitForStop =>
    simp only [Controller.step] at hs
    split at hs <;> cases hs
    exact hstay hr rfl id id
  | control =>
    have hnot := mt h.starting (not_not.2 hr)
    simp only [Controller.step, Controller.controlStep] at hs
    split at hs <;> rename_i hc
    · cases hs
    · simp [hc, Control.starting] at hnot
    · simp [hc, Control.starting] at hnot
    · simp [hc, Control.starting] at hnot
    · cases hs; exact hstay hr rfl (fun _ => rfl) id
    · cases hs; exact hstay rfl rfl id (fun _ => rfl)
    · split at hs <;> cases hs <;> exact hstay hr rfl id id
    · split at hs <;> cases hs
      exact hstay hr rfl id id
  | worker t' o =>
    obtain ⟨⟨w₁, g₁⟩, hr₁, rfl⟩ := Option.map_eq_some_iff.1 hs
    obtain ⟨w₀, hw₀, hstep⟩ := Option.bind_eq_some_iff.1 hr₁
    refine ⟨hr, ?_⟩
    by_cases ht : t' = t
    · subst ht
      obtain rfl := Option.some.inj (hw₀.symm.trans hw)
      have := Worker.step_rank (h.obeys hr w₀ (List.mem_of_getElem? hw₀)) hstep
      exact ⟨w₁, getElem?_set_get hw, by simp only [Move.ofWorker, decide_true, if_true]; omega⟩
    · cases hi.others hw₀ (step_ne_ended hstep) hw ht
      exact ⟨.ended, by rw [List.getElem?_set_ne ht]; exact hw, by simp [Move.ofWorker, ht, Worker.rank]⟩

theorem Worker.Obeys.hears {g : Shared} {w : Worker} (h : w.Obeys g) : w.Hears g := by
  cases w <;> first | exact h | trivial

/-- **Once a stop request that is obeyed has returned, the worker ends**, at the latest with the sixteenth step it takes,
so that `WaitForStop` returns. -/
theorem worker_ends {ms : List Move} (hi : s.Inv) (h : s.Obeyed) (hr : s.stopReturned) (hm : .startAsync ∉ ms)
    (ha : after Controller.step s ms = some s') {t : Nat} {w : Worker} (hw : s.threads[t]? = some w) :
    ∃ w', s'.threads[t]? = some w' ∧ ms.countP (·.ofWorker t) + w'.rank s'.g ≤ w.rank s.g := by
  induction ms generalizing s w with
  | nil =>
    cases ha
    exact ⟨w, hw, by simp⟩
  | cons m ms ih =>
    obtain ⟨u, hu, ha⟩ := Option.bind_eq_some_iff.1 ha
    obtain ⟨hne, hms⟩ := not_or.1 (mt List.mem_cons.2 hm)
    have hheard : s.Heard m := by
      cases m with
      | control => exact fun _ w hw => (h.obeys hr w hw).hears
      | _ => trivial
    obtain ⟨hru, w₁, hw₁, hle⟩ := rank_step hi h hr (Ne.symm hne) hu hw
    obtain ⟨w', hw', hle'⟩ := ih (inv_step hi hu) (obeyed_step hi h hheard hu) hru hms ha hw₁
    refine ⟨w', hw', ?_⟩
    rw [List.countP_cons]
    omega

end steps

/-- **A stop request that the worker hears is never lost, and at most one worker runs**; a request is heard where the
worker has cleared both flags by the second store of `StopAsync`, or only the first one, and `stopRequested_` is set. -/
theorem stop_kept (ms : List Move) : Throughout Controller.step Controller.AtMostOne {} ms ∧
    (Along Controller.step Controller.Heard {} ms → Throughout Controller.step Controller.StopKept {} ms) := by
  have hall : Along Controller.step (fun _ _ => True) {} ms := along_true
  have hinv : Throughout Controller.step Controller.Inv {} ms :=
    .of_along (fun _ _ _ h _ hs => inv_step h hs) inv_initial hall
  refine ⟨hinv.mono fun s => atMostOne_of_inv, fun h => ?_⟩
  have hobeyed : Throughout Controller.step (fun s => s.Inv ∧ s.Obeyed) {} ms :=
    .of_along (fun _ _ _ hi hh hs => ⟨inv_step hi.1 hs, obeyed_step hi.1 hi.2 hh hs⟩)
      ⟨inv_initial, ⟨fun _ => by simp, fun _ w hw => by cases hw⟩⟩ h
  exact hobeyed.mono fun s hs => stopKept_of_obeyed hs.2

/-- Two calls of the control thread, each to its end. -/
def starting : List Move := .startAsync :: List.replicate 2 .control

def stopping : List Move := .stopAsync :: List.replicate 2 .control

def working (n : Nat) : List Move := List.replicate n (.worker 0 .started)

/-- A worker is started, runs, and is stopped. -/
def stoppedInRun : List Move := starting ++ working 5 ++ stopping ++ working 7

theorem stop_kept_inRun : Throughout Controller.step Controller.StopKept {} stoppedInRun :=
  (stop_kept stoppedInRun).2 (by decide)

/-- The worker is stopped before it has begun. -/
def stoppedBeforeStart : List Move := starting ++ stopping ++ working 5

theorem not_stop_kept : ¬∀ ms, Throughout Controller.step Controller.StopKept {} ms := by
  intro h
  obtain ⟨t, ht, hr, hw⟩ : ∃ t ∈ after Controller.step {} stoppedBeforeStart, t.stopReturned = true ∧
      ∃ w ∈ t.threads, w.inRun = true ∧ t.g.isStopRequested = false := by decide
  obtain ⟨w, hmem, hin, hn⟩ := hw
  exact absurd ((h stoppedBeforeStart).after ht hr w hmem hin) (by simp [hn])

end HostController
end Host
end CloudGaming
