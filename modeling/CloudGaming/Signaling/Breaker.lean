import CloudGaming.Signaling.Attempts
/-!
# Breaker — when an instance refuses connections for its store

Every command on the store notes whether it succeeded.  An instance's notes are a list here, the newest first, and its
circuit is what they leave.
-/
namespace CloudGaming
namespace Signaling
namespace Setup

open Async

structure Note where
  time : Nat
  succeeded : Bool

section
variable (cfg : ServerConfig)

def circuitAfter : List Note → Circuit
  | [] => {}
  | n :: earlier => (circuitAfter earlier).note cfg n.time n.succeeded

/-- The failures since the last success. -/
def failuresInRow : List Note → Nat
  | [] => 0
  | n :: earlier => if n.succeeded then 0 else failuresInRow earlier + 1

/-- A failure at this time was at least the threshold's in a row. -/
def Opens (notes : List Note) (time : Nat) : Prop :=
  ∃ later earlier, notes = later ++ ⟨time, false⟩ :: earlier ∧ cfg.cbErrorThreshold ≤ failuresInRow earlier + 1

variable {cfg} {n : Note} {notes : List Note} {now time : Nat}

theorem failureCount_circuitAfter (notes : List Note) : (circuitAfter cfg notes).failureCount = failuresInRow notes := by
  induction notes with
  | nil => rfl
  | cons n earlier ih =>
    rw [circuitAfter, Circuit.note, failuresInRow]
    split
    · rfl
    · exact congrArg (· + 1) ih

theorem opens_cons : Opens cfg (n :: notes) time ↔
    (n = ⟨time, false⟩ ∧ cfg.cbErrorThreshold ≤ failuresInRow notes + 1) ∨ Opens cfg notes time := by
  constructor
  · rintro ⟨later, earlier, hnotes, hrow⟩
    cases later with
    | nil =>
      obtain ⟨rfl, rfl⟩ := List.cons.inj hnotes
      exact .inl ⟨rfl, hrow⟩
    | cons m later => exact .inr ⟨later, earlier, (List.cons.inj hnotes).2, hrow⟩
  · rintro (⟨rfl, hrow⟩ | ⟨later, earlier, rfl, hrow⟩)
    · exact ⟨[], notes, rfl, hrow⟩
    · exact ⟨n :: later, earlier, rfl, hrow⟩

theorem time_le_of_opens (hnow : ∀ m ∈ notes, m.time ≤ now) (h : Opens cfg notes time) : time ≤ now := by
  obtain ⟨later, earlier, rfl, -⟩ := h
  exact hnow ⟨time, false⟩ (List.mem_append_right later List.mem_cons_self)

/-- **The circuit is open exactly for `cbOpenMs` after a failure that was at least the threshold's in a row.**  A success
in between closes nothing that is still open, and a failure below the threshold opens nothing. -/
theorem isOpen_iff (hsorted : notes.Pairwise fun a b => b.time ≤ a.time) (hnow : ∀ m ∈ notes, m.time ≤ now) :
    now < (circuitAfter cfg notes).openUntil ↔ ∃ time, Opens cfg notes time ∧ now < time + cfg.cbOpenMs := by
  induction notes with
  | nil =>
    refine iff_of_false (Nat.not_lt_zero now) ?_
    rintro ⟨time, ⟨later, earlier, hnil, -⟩, -⟩
    cases later <;> cases hnil
  | cons n notes ih =>
    obtain ⟨hn, hsorted⟩ := List.pairwise_cons.1 hsorted
    have hearlier : ∀ m ∈ notes, m.time ≤ now := fun m hm => hnow m (List.mem_cons_of_mem n hm)
    have hle : n.time ≤ now := hnow n List.mem_cons_self
    have ih := ih hsorted hearlier
    simp only [opens_cons]
    rw [circuitAfter, Circuit.note, failureCount_circuitAfter]
    cases hs : n.succeeded with
    | true =>
      have hne : ∀ time, n ≠ ⟨time, false⟩ := fun time heq => by
        rw [heq] at hs
        cases hs
      simp only [if_true, hne, false_and, false_or, ← ih]
      split
      · omega
      · exact Iff.rfl
    | false =>
      simp only [Bool.false_eq_true, if_false]
      split
      · rename_i hrow
        refine ⟨fun h => ⟨n.time, .inl ⟨by rw [← hs], hrow⟩, h⟩, ?_⟩
        rintro ⟨time, ⟨rfl, -⟩ | hopens, hlt⟩
        · exact hlt
        · have : time ≤ n.time := time_le_of_opens hn hopens
          omega
      · rename_i hrow
        rw [ih]
        exact exists_congr fun time => and_congr_left fun _ => (or_iff_right fun h => hrow h.2).symm

variable (node : Node) (request : Request)

/-- While the circuit is open a connection is closed before anything is read or counted for it. -/
theorem refused_of_open {w : World} (h : w.now < (w.outside.circuits request.server).openUntil) :
    (handleNewConnection node cfg request).run (machine cfg) w =
      (some (), w.updateLine request.socket (·.close ⟨1013, "Service unavailable"⟩)) := by
  have hvet : (vet node cfg request).run (machine cfg) w =
      (some none, w.updateLine request.socket (·.close ⟨1013, "Service unavailable"⟩)) := by
    unfold vet
    rw [Prog.run_invoke_bind, Prog.run_invoke_bind]
    have hopen : ((machine cfg).call .dateNow w).1 < ((machine cfg).call (.circuit request.server) w).1.openUntil := h
    exact (congrArg (fun p => Prog.run (machine cfg) p w) (if_pos hopen)).trans rfl
  unfold handleNewConnection
  refine Prog.run_tryCatch_some _ ?_ _
  rw [Prog.run_bind_some _ hvet]
  rfl

/-- **A connection is turned away for the store exactly for `cbOpenMs` after a failure that was at least the threshold's
in a row**, whatever has succeeded since; it is told so and nothing else changes. -/
theorem turned_away_iff {w : World} (hcircuit : w.outside.circuits request.server = circuitAfter cfg notes)
    (hsorted : notes.Pairwise fun a b => b.time ≤ a.time) (hnow : ∀ m ∈ notes, m.time ≤ w.now) :
    (w.now < (w.outside.circuits request.server).openUntil ↔ ∃ time, Opens cfg notes time ∧ w.now < time + cfg.cbOpenMs) ∧
      ((∃ time, Opens cfg notes time ∧ w.now < time + cfg.cbOpenMs) →
        (handleNewConnection node cfg request).run (machine cfg) w =
          (some (), w.updateLine request.socket (·.close ⟨1013, "Service unavailable"⟩))) := by
  have hiff : w.now < (w.outside.circuits request.server).openUntil ↔
      ∃ time, Opens cfg notes time ∧ w.now < time + cfg.cbOpenMs := by
    rw [hcircuit]
    exact isOpen_iff hsorted hnow
  exact ⟨hiff, fun h => refused_of_open node request (hiff.2 h)⟩

end

namespace Sample

/-- Five failures, and a success after them. -/
def sampleNotes : List Note :=
  [⟨9, true⟩, ⟨8, false⟩, ⟨7, false⟩, ⟨6, false⟩, ⟨6, false⟩, ⟨5, false⟩, ⟨4, true⟩]

def unavailable : World := { start with
  now := 10007
  outside := { outside with circuits := fun _ => circuitAfter cfg sampleNotes } }

example : (unavailable.outside.circuits serverId).openUntil = 10008 := rfl

theorem turned_away_iff_sample :
    (10007 < (unavailable.outside.circuits serverId).openUntil ↔
        ∃ time, Opens cfg sampleNotes time ∧ 10007 < time + cfg.cbOpenMs) ∧
      ((∃ time, Opens cfg sampleNotes time ∧ 10007 < time + cfg.cbOpenMs) →
        (handleNewConnection node cfg (request 0)).run (machine cfg) unavailable =
          (some (), unavailable.updateLine 0 (·.close ⟨1013, "Service unavailable"⟩))) :=
  turned_away_iff node (request 0) (w := unavailable) rfl (by decide)
    (by simp only [sampleNotes, List.forall_mem_cons]; exact by decide)

end Sample

end Setup
end Signaling
end CloudGaming
