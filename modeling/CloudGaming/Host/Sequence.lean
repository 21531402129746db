import CloudGaming.Async.Along
import CloudGaming.Host.Keyboard
/-!
# Sequence — the gaps the host finds in the event ids

`SequenceManager` keeps the last id it was given and the one after it, which it expects next; `processSequence`
reports a gap wherever an id is beyond the expected one.  A late id moves the expectation back, and `reset` leaves a
tracker that expects 1, so a report says less than that ids are missing.
-/
namespace CloudGaming
namespace Host
namespace Sequence

inductive RecoveryAction where
  | none | releaseModifiers
  deriving DecidableEq, Repr

structure GapResult where
  action : RecoveryAction := .none
  gapSize : UInt64 := 0
  lastReceivedSeq : UInt64 := 0
  expectedSeq : UInt64 := 0
  shouldThrottle : Bool := false
  deriving DecidableEq, Repr

/-- The state of the manager; the clock is `steady_clock`'s, in nanoseconds. -/
structure Manager where
  lastReceivedSeq : UInt64 := 0
  expectedSeq : UInt64 := 0
  gapsDetected : UInt64 := 0
  recoveriesTriggered : UInt64 := 0
  recoveryThrottled : Bool := false
  lastRecoveryTime : Int
  recoveryCallback : Bool := false
  deriving DecidableEq, Repr

namespace Manager

/-- The constructor. -/
def constructed (now : Int) : Manager := { lastRecoveryTime := now }

def reset (s : Manager) (now : Int) : Manager :=
  { s with
    lastReceivedSeq := 0
    expectedSeq := 1
    gapsDetected := 0
    recoveriesTriggered := 0
    recoveryThrottled := false
    lastRecoveryTime := now }

def determineRecoveryAction (_gapSize : UInt64) : RecoveryAction := .releaseModifiers

/-- `shouldThrottleRecovery`: its answer, which it also notes in `recoveryThrottled_`. -/
def shouldThrottleRecovery (s : Manager) (now : Int) : Bool := (now - s.lastRecoveryTime).tdiv 1000000 < 1000

def detectGap (s : Manager) (sequenceId : UInt64) (now : Int) : GapResult × Manager :=
  if s.lastReceivedSeq = 0 ∧ s.expectedSeq = 0 then ({}, s)
  else if s.expectedSeq < sequenceId then
    let throttle := s.shouldThrottleRecovery now
    ({ action := determineRecoveryAction (sequenceId - s.expectedSeq)
       gapSize := sequenceId - s.expectedSeq
       lastReceivedSeq := s.lastReceivedSeq
       expectedSeq := s.expectedSeq
       shouldThrottle := throttle },
     { s with
       recoveryThrottled := throttle
       gapsDetected := if throttle then s.gapsDetected else s.gapsDetected + 1 })
  else ({}, s)

def trackRecoveryTriggered (s : Manager) (now : Int) : Manager :=
  { s with recoveriesTriggered := s.recoveriesTriggered + 1, lastRecoveryTime := now, recoveryThrottled := false }

/-- What a call of `processSequence` leaves: the result, the action the callback was called with, the state. -/
structure Processed where
  result : GapResult
  recovered : Option RecoveryAction
  state : Manager
  deriving DecidableEq, Repr

/-- `processSequence`; `asked` and `triggered` are the clock at the throttle's test and at its update. -/
def processSequence (s : Manager) (sequenceId : UInt64) (asked triggered : Int) : Processed :=
  let (result, found) := s.detectGap sequenceId asked
  let recovers := result.action ≠ .none ∧ ¬ result.shouldThrottle
  let state := if recovers then found.trackRecoveryTriggered triggered else found
  { result
    recovered := if recovers ∧ state.recoveryCallback then some result.action else none
    state := { state with lastReceivedSeq := sequenceId, expectedSeq := sequenceId + 1 } }

/-! ## What a call reads and leaves -/

section
variable (s : Manager) (n : UInt64) (asked triggered : Int)

@[simp] theorem processSequence_lastReceivedSeq :
    (s.processSequence n asked triggered).state.lastReceivedSeq = n := rfl

@[simp] theorem processSequence_expectedSeq : (s.processSequence n asked triggered).state.expectedSeq = n + 1 := rfl

@[simp] theorem processSequence_result :
    (s.processSequence n asked triggered).result = (s.detectGap n asked).1 := rfl

/-- A call reports a gap exactly where its id is beyond the expected one of a tracker that is not fresh. -/
theorem detectGap_action_ne :
    (s.detectGap n asked).1.action ≠ .none ↔
      ¬ (s.lastReceivedSeq = 0 ∧ s.expectedSeq = 0) ∧ s.expectedSeq < n := by
  unfold detectGap
  split
  · simp [*]
  · rename_i hf
    split
    · rename_i hn
      exact ⟨fun _ => ⟨hf, hn⟩, fun _ => by simp [determineRecoveryAction]⟩
    · rename_i hn
      simp [hn]

/-- The callback is called only where the call reports a gap and is not throttled. -/
theorem recovered_eq_some {a : RecoveryAction} (h : (s.processSequence n asked triggered).recovered = some a) :
    a = (s.detectGap n asked).1.action ∧ a ≠ .none ∧ (s.detectGap n asked).1.shouldThrottle = false := by
  unfold processSequence at h
  dsimp only at h
  rw [Option.ite_none_right_eq_some] at h
  obtain ⟨⟨⟨hne, hthrottle⟩, -⟩, heq⟩ := h
  obtain rfl := Option.some.inj heq
  exact ⟨rfl, hne, by simpa using hthrottle⟩

/-- The part of the manager that the keyboard's handler reads. -/
def tracker (s : Manager) : KeyInput.SequenceState :=
  { lastReceivedSeq := s.lastReceivedSeq.toNat, expectedSeq := s.expectedSeq.toNat }

/-- **The keyboard's gap test is the manager's.** -/
theorem tracker_gap : s.tracker.gap n.toNat = true ↔ (s.detectGap n asked).1.action ≠ .none := by
  rw [detectGap_action_ne]
  rw [UInt64.lt_iff_toNat_lt, ← UInt64.toNat_inj, ← UInt64.toNat_inj]
  change (!(decide (s.lastReceivedSeq.toNat = 0) && decide (s.expectedSeq.toNat = 0)) &&
    decide (s.expectedSeq.toNat < n.toNat)) = true ↔ _
  simp only [Bool.and_eq_true, Bool.not_eq_true', Bool.and_eq_false_iff, decide_eq_false_iff_not, decide_eq_true_eq]
  rw [not_and_or]
  rfl

theorem tracker_received :
    (s.processSequence n asked triggered).state.tracker = s.tracker.received n.toNat := by
  simp only [tracker, KeyInput.SequenceState.received, processSequence_lastReceivedSeq, processSequence_expectedSeq,
    UInt64.toNat_add]
  rfl

end

end Manager

/-! ## Runs, and the ids received in them -/

inductive Move where
  | process (sequenceId : UInt64) (asked triggered : Int)
  | reset (now : Int)
  | setRecoveryCallback (set : Bool)
  deriving DecidableEq, Repr

/-- The manager, and the ids it was given since its construction or last reset, the newest first. -/
structure Heard where
  manager : Manager
  received : List UInt64 := []
  deriving DecidableEq, Repr

namespace Heard

def constructed (now : Int) : Heard := { manager := .constructed now }

def step (h : Heard) : Move → Option Heard
  | .process n asked triggered =>
    some { manager := (h.manager.processSequence n asked triggered).state, received := n :: h.received }
  | .reset now => some { manager := h.manager.reset now }
  | .setRecoveryCallback set => some { h with manager := { h.manager with recoveryCallback := set } }

/-- The id is beyond all received, and one between the largest of them and it was never received. -/
def Missed (received : List UInt64) (n : UInt64) : Prop :=
  (∀ r ∈ received, r < n) ∧
    ∃ m ∈ received, (∀ r ∈ received, r ≤ m) ∧ ∃ k, m < k ∧ k < n ∧ k ∉ received

/-- A call reports a gap exactly where ids are missing. -/
def Exact (h : Heard) : Move → Prop
  | .process n asked triggered =>
    (h.manager.processSequence n asked triggered).result.action ≠ .none ↔ Missed h.received n
  | _ => True

/-- No id is both beyond the one expected and within one of the largest received; the first id of a tracker that was
reset is at most 1. -/
def Orderly (h : Heard) : Move → Prop
  | .process n _ _ =>
    if h.received = [] then h.manager.expectedSeq = 0 ∨ n ≤ 1
    else n ≤ h.manager.expectedSeq ∨ ∀ r ∈ h.received, r.toNat + 1 < n.toNat
  | _ => True

/-- What the manager knows of the ids received. -/
structure Tracks (h : Heard) : Prop where
  first : h.received = [] →
    h.manager.lastReceivedSeq = 0 ∧ (h.manager.expectedSeq = 0 ∨ h.manager.expectedSeq = 1)
  later : ∀ n rest, h.received = n :: rest → h.manager.lastReceivedSeq = n ∧ h.manager.expectedSeq = n + 1

theorem tracks_constructed (now : Int) : (constructed now).Tracks where
  first := fun _ => ⟨rfl, .inl rfl⟩
  later := fun _ _ h => by cases h

theorem tracks_step {h h' : Heard} {m : Move} (ht : h.Tracks) (hs : h.step m = some h') : h'.Tracks := by
  cases m with
  | process n asked triggered =>
    obtain rfl := Option.some.inj hs
    refine ⟨fun h => (by cases h), fun n' rest he => ?_⟩
    simp only [List.cons.injEq] at he
    obtain ⟨rfl, rfl⟩ := he
    exact ⟨rfl, rfl⟩
  | reset now =>
    obtain rfl := Option.some.inj hs
    exact ⟨fun _ => ⟨rfl, .inr rfl⟩, fun _ _ he => (by cases he)⟩
  | setRecoveryCallback set =>
    obtain rfl := Option.some.inj hs
    exact ⟨ht.first, ht.later⟩

/-! ## When an id is missed -/

/-- A list of ids with one in it has a largest. -/
theorem exists_largest : ∀ {received : List UInt64}, received ≠ [] → ∃ m ∈ received, ∀ r ∈ received, r ≤ m
  | [], h => absurd rfl h
  | [n], _ => ⟨n, by simp, fun r hr => by simp at hr; exact hr ▸ UInt64.le_refl n⟩
  | n :: n' :: rest, _ => by
    obtain ⟨m, hm, hmax⟩ := exists_largest (List.cons_ne_nil n' rest)
    by_cases hn : n ≤ m
    · refine ⟨m, List.mem_cons_of_mem n hm, fun r hr => ?_⟩
      rcases List.mem_cons.1 hr with rfl | hr
      · exact hn
      · exact hmax r hr
    · refine ⟨n, List.mem_cons_self, fun r hr => ?_⟩
      rcases List.mem_cons.1 hr with rfl | hr
      · exact UInt64.le_refl r
      · have hrm : r ≤ m := hmax r hr
        rw [UInt64.le_iff_toNat_le] at hn hrm ⊢
        omega

/-- **An id is missed exactly where the new one is more than one beyond every id received.** -/
theorem missed_iff {received : List UInt64} {n : UInt64} (hne : received ≠ []) :
    Missed received n ↔ ∀ r ∈ received, r.toNat + 1 < n.toNat := by
  obtain ⟨m, hm, hmax⟩ := exists_largest hne
  constructor
  · rintro ⟨-, m', hm', hmax', k, hmk, hkn, -⟩ r hr
    have hrm : r ≤ m' := hmax' r hr
    rw [UInt64.le_iff_toNat_le] at hrm
    rw [UInt64.lt_iff_toNat_lt] at hmk hkn
    omega
  · intro h
    have hmn : m.toNat + 1 < n.toNat := h m hm
    have hlt : n.toNat < 2 ^ 64 := n.toNat_lt
    have hk : (m + 1).toNat = m.toNat + 1 := by
      rw [UInt64.toNat_add]
      exact Nat.mod_eq_of_lt (by rw [UInt64.toNat_one]; omega)
    refine ⟨fun r hr => ?_, m, hm, hmax, m + 1, ?_, ?_, fun hin => ?_⟩
    · have hr' := h r hr
      rw [UInt64.lt_iff_toNat_lt]
      omega
    · rw [UInt64.lt_iff_toNat_lt, hk]
      omega
    · rw [UInt64.lt_iff_toNat_lt, hk]
      exact hmn
    · have hle : m + 1 ≤ m := hmax _ hin
      rw [UInt64.le_iff_toNat_le, hk] at hle
      omega

theorem not_missed_nil (n : UInt64) : ¬ Missed [] n := by
  rintro ⟨-, m, hm, -⟩
  cases hm

/-- The expected id is at most one beyond the largest received. -/
theorem expectedSeq_le {h : Heard} (ht : h.Tracks) {n : UInt64} (hn : ∀ r ∈ h.received, r.toNat + 1 < n.toNat)
    (hne : h.received ≠ []) : h.manager.expectedSeq < n := by
  cases hr : h.received with
  | nil => exact absurd hr hne
  | cons last rest =>
    have hl : last.toNat + 1 < n.toNat := hn last (by simp [hr])
    have hlt : n.toNat < 2 ^ 64 := n.toNat_lt
    rw [(ht.later last rest hr).2, UInt64.lt_iff_toNat_lt, UInt64.toNat_add, UInt64.toNat_one,
      Nat.mod_eq_of_lt (by omega)]
    exact hl

/-- A tracker that was given an id is not fresh. -/
theorem not_fresh {h : Heard} (ht : h.Tracks) (hne : h.received ≠ []) :
    ¬ (h.manager.lastReceivedSeq = 0 ∧ h.manager.expectedSeq = 0) := by
  cases hr : h.received with
  | nil => exact absurd hr hne
  | cons last rest =>
    obtain ⟨hl, he⟩ := ht.later last rest hr
    rintro ⟨h0, h1⟩
    rw [hl] at h0
    rw [he, h0] at h1
    exact absurd h1 (by decide)

/-- **A call is exact exactly where its id is orderly.** -/
theorem exact_iff {h : Heard} (ht : h.Tracks) (m : Move) : h.Exact m ↔ h.Orderly m := by
  cases m with
  | reset now => exact Iff.rfl
  | setRecoveryCallback set => exact Iff.rfl
  | process n asked triggered =>
    simp only [Exact, Orderly, Manager.processSequence_result, Manager.detectGap_action_ne]
    by_cases hne : h.received = []
    · obtain ⟨hl, he⟩ := ht.first hne
      rw [if_pos hne, hne]
      simp only [hl, true_and, not_missed_nil, iff_false, not_and, UInt64.not_lt]
      rcases he with he | he
      · simp [he]
      · simp [he]
    · rw [if_neg hne, missed_iff hne]
      have hf := not_fresh ht hne
      constructor
      · intro hx
        by_cases hn : n ≤ h.manager.expectedSeq
        · exact .inl hn
        · exact .inr (hx.1 ⟨hf, UInt64.not_le.1 hn⟩)
      · rintro (hn | hn)
        · constructor
          · rintro ⟨-, hlt⟩
            exact absurd hn (UInt64.not_le.2 hlt)
          · intro hall
            exact absurd hn (UInt64.not_le.2 (expectedSeq_le ht hall hne))
        · exact ⟨fun _ => hn, fun _ => ⟨hf, expectedSeq_le ht hn hne⟩⟩

/-- **The calls of a run report exactly the ids missing, exactly where the run is orderly.** -/
theorem gaps_exact_iff (now : Int) (moves : List Move) :
    Async.Along step Exact (constructed now) moves ↔ Async.Along step Orderly (constructed now) moves :=
  Async.along_iff_along (fun _ _ _ ht _ hs => tracks_step ht hs) (fun _ m _ ht _ => exact_iff ht m)
    (tracks_constructed now)

/-- The calls of a run that gives the manager these ids. -/
def calls (ids : List UInt64) : List Move := ids.map fun n => .process n 0 0

/-- **A late id makes the host report a gap where none is**: after 1, 2, 3 and 2 once more, 4 is beyond the id after
the last. -/
theorem not_gaps_exact : ¬ ∀ moves, Async.Along step Exact (constructed 0) moves := by
  intro h
  have hx : Exact _ (.process 4 0 0) := (h (calls [1, 2, 3, 2] ++ [.process 4 0 0])).last rfl rfl
  have hm : Missed [2, 3, 2, 1] 4 := hx.1 (by decide)
  exact absurd ((missed_iff (by simp)).1 hm 3 (by simp)) (by decide)

end Heard

end Sequence
end Host
end CloudGaming
