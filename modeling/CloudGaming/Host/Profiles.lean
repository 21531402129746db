import CloudGaming.Async.Along
import CloudGaming.Host.Signaling
/-!
# Profiles — requests of stream profiles, and the encoder that applies them

The signaling thread requests profiles while the encode loop takes the pending one up, applies it and reports it.  Between
its steps requests come in; whether the encoder has to be rebuilt for a profile only decides when it applies it.
`Stream.applied` is history.
-/
namespace CloudGaming
namespace Host

open Async

namespace StreamProfileManager

/-- The fields of the video configuration that `Configure` reads. -/
structure VideoConfig where
  allow120Fps : Bool := false
  bitrateMin : Int := 3000000
  bitrateMax : Int := 12000000
  defaultProfile : Profile := {}

/-- `std::clamp`. -/
def clamp (n low high : Int) : Int := if n < low then low else if high < n then high else n

def configure (videoConfig : VideoConfig) : Except String StreamProfileManager :=
  let minBitrate := clamp videoConfig.bitrateMin 500000 50000000
  let m : StreamProfileManager :=
    { allow120Fps := videoConfig.allow120Fps
      minBitrate := minBitrate
      maxBitrate := clamp videoConfig.bitrateMax minBitrate 50000000
      operatorDefault := videoConfig.defaultProfile }
  match m.isSupported videoConfig.defaultProfile with
  | .error e => .error e
  | .ok () => .ok { m with
      requested := some videoConfig.defaultProfile
      pending := some videoConfig.defaultProfile
      state := .pending
      generation := 1 }

def takePending (m : StreamProfileManager) : Option Profile × StreamProfileManager :=
  (m.pending, { m with pending := none })

def markApplied (m : StreamProfileManager) (profile : Profile) : StreamProfileManager :=
  if m.requested ≠ some profile then m
  else { m with active := some profile, rejectionReason := "", state := .active }

def markRejected (m : StreamProfileManager) (profile : Profile) (reason : String) : StreamProfileManager :=
  if m.requested ≠ some profile then m
  else { m with rejectionReason := reason, state := .rejected }

end StreamProfileManager

/-! ## The encode loop -/

/-- What the encode loop has taken up: nothing, a profile that awaits the encoder, or one that the encoder has applied and
the loop has not reported yet. -/
inductive Phase where
  | idle
  | awaiting (profile : Profile)
  | applied (profile : Profile)
  deriving DecidableEq

def Phase.profile? : Phase → Option Profile
  | idle => none
  | awaiting profile | applied profile => some profile

structure Stream where
  profiles : StreamProfileManager
  phase : Phase := .idle
  applied : Option Profile := none

inductive ProfileMove where
  | request (sessionId : String) (profile : Profile) (capabilities : ClientCapabilities)
  -- the encode loop: `TakePending`, the encoder adopts the profile, `MarkApplied`, or the encoder fails
  | take
  | apply
  | report
  | fail

namespace Stream

/-- A profile taken up replaces one that still awaits the encoder. -/
def take (s : Stream) : Stream :=
  match s.phase, s.profiles.takePending with
  | .applied _, _ => s
  | _, (none, _) => s
  | _, (some profile, profiles) => { s with profiles := profiles, phase := .awaiting profile }

def apply (s : Stream) : Stream :=
  match s.phase with
  | .awaiting profile => { s with phase := .applied profile, applied := some profile }
  | _ => s

def report (s : Stream) : Stream :=
  match s.phase with
  | .applied profile => { s with profiles := s.profiles.markApplied profile, phase := .idle }
  | _ => s

def fail (s : Stream) : Stream :=
  match s.phase with
  | .awaiting profile =>
    { s with profiles := s.profiles.markRejected profile "encoder reconfiguration failed", phase := .idle }
  | _ => s

def step (s : Stream) : ProfileMove → Stream
  | .request sessionId profile capabilities =>
    { s with profiles := (s.profiles.request sessionId profile capabilities).2 }
  | .take => s.take
  | .apply => s.apply
  | .report => s.report
  | .fail => s.fail

def run (s : Stream) (moves : List ProfileMove) : Stream := moves.foldl step s

/-- Every move can be made. -/
def move (s : Stream) (m : ProfileMove) : Option Stream := some (s.step m)

/-! ## The properties -/

/-- What the manager says is the same, and stays the same whatever comes. -/
def Indistinguishable (s s' : Stream) : Prop :=
  ∀ moves, (s.run moves).profiles.pending = (s'.run moves).profiles.pending ∧
    (s.run moves).profiles.active = (s'.run moves).profiles.active

/-- The manager rejects the request. -/
def rejects (s : Stream) (sessionId : String) (profile : Profile) (capabilities : ClientCapabilities) : Bool :=
  match s.profiles.refusal sessionId profile capabilities with
  | .ok () => false
  | .error _ => true

/-- A rejected request leaves everything as it would be without it. -/
def Rejections (s : Stream) (m : ProfileMove) : Prop :=
  match m with
  | .request sessionId profile capabilities =>
    s.rejects sessionId profile capabilities = true → Indistinguishable s (s.step m)
  | _ => True

/-- Once the encoder has reported what it applied, the active profile is the last one it applied. -/
def Truthful (s : Stream) : Prop := (∀ profile, s.phase ≠ .applied profile) → s.profiles.active = s.applied

/-! ## The condition -/

/-- A rejected request finds no profile pending; and a profile the encode loop has taken up is active already, or is the
one requested before exactly where it is the one rejected. -/
def RejectedIdle (s : Stream) (m : ProfileMove) : Prop :=
  match m with
  | .request sessionId profile capabilities =>
    s.rejects sessionId profile capabilities = true →
      s.profiles.pending = none ∧ ∀ taken, s.phase.profile? = some taken →
        s.profiles.active = some taken ∨ (s.profiles.requested = some taken ↔ profile = taken)
  | _ => True

/-- A profile that is reported is the one requested, or active already. -/
def ReportedCurrent (s : Stream) (m : ProfileMove) : Prop :=
  m = .report → ∀ profile, s.phase = .applied profile →
    s.profiles.requested = some profile ∨ s.profiles.active = some profile

/-! ## The moves -/

section moves
variable {s s' : Stream} {sessionId : String} {profile : Profile} {capabilities : ClientCapabilities}

theorem request_accepted (h : s.rejects sessionId profile capabilities = false) :
    (s.step (.request sessionId profile capabilities)).profiles = { s.profiles with
      requested := some profile
      pending := some profile
      requestedBySession := sessionId
      rejectionReason := ""
      state := .pending
      generation := (s.profiles.generation + 1) % 2 ^ 64 } := by
  unfold rejects at h
  unfold step StreamProfileManager.request
  dsimp only
  cases hr : s.profiles.refusal sessionId profile capabilities with
  | ok u => rfl
  | error e => rw [hr] at h; cases h

theorem request_rejected (h : s.rejects sessionId profile capabilities = true) :
    ∃ e, (s.step (.request sessionId profile capabilities)).profiles = { s.profiles with
      requested := some profile
      pending := none
      requestedBySession := sessionId
      rejectionReason := e
      state := .rejected
      generation := (s.profiles.generation + 1) % 2 ^ 64 } := by
  unfold rejects at h
  unfold step StreamProfileManager.request
  dsimp only
  cases hr : s.profiles.refusal sessionId profile capabilities with
  | ok u => rw [hr] at h; cases h
  | error e => exact ⟨e, rfl⟩

/-- The limits of two managers agree, so they reject the same requests. -/
structure SameLimits (m m' : StreamProfileManager) : Prop where
  allow120Fps : m.allow120Fps = m'.allow120Fps
  minBitrate : m.minBitrate = m'.minBitrate
  maxBitrate : m.maxBitrate = m'.maxBitrate

theorem SameLimits.symm {m m' : StreamProfileManager} (h : SameLimits m m') : SameLimits m' m :=
  ⟨h.allow120Fps.symm, h.minBitrate.symm, h.maxBitrate.symm⟩

theorem SameLimits.trans {m m' m'' : StreamProfileManager} (h : SameLimits m m') (h' : SameLimits m' m'') :
    SameLimits m m'' :=
  ⟨h.allow120Fps.trans h'.allow120Fps, h.minBitrate.trans h'.minBitrate, h.maxBitrate.trans h'.maxBitrate⟩

theorem rejects_congr (sessionId : String) (profile : Profile) (capabilities : ClientCapabilities)
    (h : SameLimits s.profiles s'.profiles) :
    s.rejects sessionId profile capabilities = s'.rejects sessionId profile capabilities := by
  unfold rejects StreamProfileManager.refusal StreamProfileManager.isSupported
  rw [h.allow120Fps, h.minBitrate, h.maxBitrate]

/-- **What two streams with the same outlook share**: everything but the profile requested, which may differ while none is
pending and none that is taken up will be reported with another effect. -/
structure SameOutlook (s s' : Stream) : Prop where
  limits : SameLimits s.profiles s'.profiles
  pending : s.profiles.pending = s'.profiles.pending
  active : s.profiles.active = s'.profiles.active
  phase : s.phase = s'.phase
  requested : s.profiles.requested = s'.profiles.requested ∨
    s.profiles.pending = none ∧ ∀ taken, s.phase.profile? = some taken →
      s.profiles.active = some taken ∨ (s.profiles.requested = some taken ↔ s'.profiles.requested = some taken)

/-- What a request leaves, accepted or not. -/
theorem request_spec (s : Stream) (sessionId : String) (profile : Profile) (capabilities : ClientCapabilities) :
    SameLimits (s.step (.request sessionId profile capabilities)).profiles s.profiles ∧
      (s.step (.request sessionId profile capabilities)).profiles.pending =
        (if s.rejects sessionId profile capabilities = true then none else some profile) ∧
      (s.step (.request sessionId profile capabilities)).profiles.requested = some profile ∧
      (s.step (.request sessionId profile capabilities)).profiles.active = s.profiles.active := by
  cases hr : s.rejects sessionId profile capabilities with
  | false =>
    rw [request_accepted hr]
    exact ⟨⟨rfl, rfl, rfl⟩, rfl, rfl, rfl⟩
  | true =>
    obtain ⟨e, hp⟩ := request_rejected hr
    rw [hp]
    exact ⟨⟨rfl, rfl, rfl⟩, rfl, rfl, rfl⟩

theorem SameOutlook.request (h : SameOutlook s s') (sessionId : String) (profile : Profile)
    (capabilities : ClientCapabilities) : SameOutlook (s.step (.request sessionId profile capabilities))
      (s'.step (.request sessionId profile capabilities)) := by
  obtain ⟨hl, hp, hr, ha⟩ := request_spec s sessionId profile capabilities
  obtain ⟨hl', hp', hr', ha'⟩ := request_spec s' sessionId profile capabilities
  have hsame := rejects_congr sessionId profile capabilities h.limits
  refine ⟨hl.trans (h.limits.trans hl'.symm), ?_, ha.trans (h.active.trans ha'.symm), h.phase, .inl (hr.trans hr'.symm)⟩
  rw [hp, hp', hsame]

theorem SameOutlook.take (h : SameOutlook s s') : SameOutlook s.take s'.take := by
  unfold Stream.take StreamProfileManager.takePending
  rw [← h.phase, ← h.pending]
  have hidle : s.profiles.pending = none → SameOutlook s s' := fun _ => h
  have htaken : ∀ profile, s.profiles.pending = some profile →
      SameOutlook { s with profiles := { s.profiles with pending := none }, phase := .awaiting profile }
        { s' with profiles := { s'.profiles with pending := none }, phase := .awaiting profile } := by
    intro profile hp
    have hreq : s.profiles.requested = s'.profiles.requested := by
      refine h.requested.resolve_right fun hn => ?_
      rw [hp] at hn
      cases hn.1
    exact ⟨⟨h.limits.allow120Fps, h.limits.minBitrate, h.limits.maxBitrate⟩, rfl, h.active, rfl, .inl hreq⟩
  cases hphase : s.phase with
  | applied profile => exact h
  | idle | awaiting _ =>
    cases hp : s.profiles.pending with
    | none => exact h
    | some profile => exact htaken profile hp

theorem SameOutlook.apply (h : SameOutlook s s') : SameOutlook s.apply s'.apply := by
  unfold Stream.apply
  rw [← h.phase]
  cases hphase : s.phase with
  | awaiting profile =>
    refine ⟨h.limits, h.pending, h.active, rfl, h.requested.imp_right fun hn => ⟨hn.1, fun taken ht => ?_⟩⟩
    exact hn.2 taken (by rw [hphase]; exact ht)
  | idle | applied _ => exact h

theorem SameOutlook.fail (h : SameOutlook s s') : SameOutlook s.fail s'.fail := by
  unfold Stream.fail
  rw [← h.phase]
  have hkeep : ∀ (m : StreamProfileManager) (profile : Profile) (reason : String),
      SameLimits (m.markRejected profile reason) m ∧ (m.markRejected profile reason).pending = m.pending ∧
        (m.markRejected profile reason).active = m.active ∧
        (m.markRejected profile reason).requested = m.requested := by
    intro m profile reason
    unfold StreamProfileManager.markRejected
    split <;> exact ⟨⟨rfl, rfl, rfl⟩, rfl, rfl, rfl⟩
  cases hphase : s.phase with
  | awaiting profile =>
    obtain ⟨hl, hp, ha, hr⟩ := hkeep s.profiles profile "encoder reconfiguration failed"
    obtain ⟨hl', hp', ha', hr'⟩ := hkeep s'.profiles profile "encoder reconfiguration failed"
    refine ⟨hl.trans (h.limits.trans hl'.symm), hp.trans (h.pending.trans hp'.symm), ha.trans (h.active.trans ha'.symm), rfl, ?_⟩
    · rcases h.requested with hq | ⟨hn, -⟩
      · exact .inl (hr.trans (hq.trans hr'.symm))
      · exact .inr ⟨hp.trans hn, fun taken ht => by cases ht⟩
  | idle | applied _ => exact h

/-- What a report leaves. -/
theorem markApplied_spec (m : StreamProfileManager) (profile : Profile) :
    SameLimits (m.markApplied profile) m ∧ (m.markApplied profile).pending = m.pending ∧
      (m.markApplied profile).requested = m.requested ∧
      (m.markApplied profile).active = if m.requested = some profile then some profile else m.active := by
  unfold StreamProfileManager.markApplied
  by_cases h : m.requested = some profile
  · rw [if_neg (not_not.2 h), if_pos h]
    exact ⟨⟨rfl, rfl, rfl⟩, rfl, rfl, rfl⟩
  · rw [if_pos h, if_neg h]
    exact ⟨⟨rfl, rfl, rfl⟩, rfl, rfl, rfl⟩

theorem SameOutlook.report (h : SameOutlook s s') : SameOutlook s.report s'.report := by
  unfold Stream.report
  rw [← h.phase]
  cases hphase : s.phase with
  | applied profile =>
    obtain ⟨hl, hp, hr, ha⟩ := markApplied_spec s.profiles profile
    obtain ⟨hl', hp', hr', ha'⟩ := markApplied_spec s'.profiles profile
    refine ⟨hl.trans (h.limits.trans hl'.symm), hp.trans (h.pending.trans hp'.symm), ?_, rfl, ?_⟩
    · dsimp only
      rw [ha, ha', ← h.active]
      rcases h.requested with hq | ⟨-, hn⟩
      · rw [hq]
      · rcases hn profile (by rw [hphase]; rfl) with hact | hiff
        · rw [hact, ite_self, ite_self]
        · exact if_congr hiff rfl rfl
    · rcases h.requested with hq | ⟨hn, -⟩
      · exact .inl (hr.trans (hq.trans hr'.symm))
      · exact .inr ⟨hp.trans hn, fun taken ht => by cases ht⟩
  | idle | awaiting _ => exact h

theorem SameOutlook.step (h : SameOutlook s s') (m : ProfileMove) : SameOutlook (s.step m) (s'.step m) := by
  cases m with
  | request sessionId profile capabilities => exact h.request sessionId profile capabilities
  | take => exact h.take
  | apply => exact h.apply
  | report => exact h.report
  | fail => exact h.fail

theorem SameOutlook.indistinguishable (h : SameOutlook s s') : Indistinguishable s s' := by
  intro moves
  have hrun : ∀ (moves : List ProfileMove) (s s' : Stream), SameOutlook s s' →
      SameOutlook (s.run moves) (s'.run moves) := by
    intro moves
    induction moves with
    | nil => exact fun _ _ h => h
    | cons m moves ih => exact fun s s' h => ih _ _ (h.step m)
  have := hrun moves s s' h
  exact ⟨this.pending, this.active⟩

/-! ## Rejected requests -/

/-- The active profile once the one taken up is reported. -/
theorem active_reported {taken : Profile} (h : s.phase.profile? = some taken) : ∃ moves, ∀ s' : Stream,
    s'.phase = s.phase → (s'.run moves).profiles.active =
      if s'.profiles.requested = some taken then some taken else s'.profiles.active := by
  cases hphase : s.phase with
  | idle => rw [hphase] at h; cases h
  | awaiting profile =>
    rw [hphase] at h
    cases h
    refine ⟨[.apply, .report], fun s' hs' => ?_⟩
    have hrun : s'.run [.apply, .report] = s'.apply.report := rfl
    rw [hrun]
    unfold Stream.apply
    rw [hs']
    exact (markApplied_spec s'.profiles taken).2.2.2
  | applied profile =>
    rw [hphase] at h
    cases h
    refine ⟨[.report], fun s' hs' => ?_⟩
    have hrun : s'.run [.report] = s'.report := rfl
    rw [hrun]
    unfold Stream.report
    rw [hs']
    exact (markApplied_spec s'.profiles taken).2.2.2

/-- **A rejected request leaves everything as it would be exactly where it finds nothing to spoil.** -/
theorem rejections_iff (s : Stream) (m : ProfileMove) : Rejections s m ↔ RejectedIdle s m := by
  cases m with
  | request sessionId profile capabilities =>
    refine imp_congr_right fun hr => ?_
    obtain ⟨e, hp⟩ := request_rejected hr
    have hreq : (s.step (.request sessionId profile capabilities)).profiles.requested = some profile := by rw [hp]
    have hact : (s.step (.request sessionId profile capabilities)).profiles.active = s.profiles.active := by rw [hp]
    constructor
    · intro h
      have hnone : s.profiles.pending = none := by
        refine (h []).1.trans ?_
        change (s.step (.request sessionId profile capabilities)).profiles.pending = none
        rw [hp]
      refine ⟨hnone, fun taken ht => ?_⟩
      obtain ⟨moves, hmoves⟩ := active_reported ht
      have heq := (h moves).2
      rw [hmoves s rfl, hmoves (s.step (.request sessionId profile capabilities)) rfl, hreq, hact] at heq
      by_cases ha : s.profiles.active = some taken
      · exact .inl ha
      · refine .inr ⟨fun hq => ?_, fun hq => ?_⟩
        · rw [if_pos hq] at heq
          by_contra hne
          rw [if_neg fun he => hne (Option.some.inj he)] at heq
          exact ha heq.symm
        · rw [if_pos (congrArg some hq)] at heq
          by_contra hne
          rw [if_neg hne] at heq
          exact ha heq
    · rintro ⟨hnone, htaken⟩
      refine SameOutlook.indistinguishable ⟨?_, ?_, hact.symm, rfl, .inr ⟨hnone, fun taken ht => ?_⟩⟩
      · rw [hp]
        exact ⟨rfl, rfl, rfl⟩
      · rw [hp]
        exact hnone
      · rw [hreq, Option.some.injEq]
        exact htaken taken ht
  | take | apply | report | fail => exact Iff.rfl

/-! ## What is reported -/

/-- What the encode loop has applied and not reported is what the encoder applied last. -/
def Unreported (s : Stream) : Prop := ∀ profile, s.phase = .applied profile → s.applied = some profile

/-- What a move does to the stream: one of the five transitions, or nothing. -/
inductive Moves (s : Stream) : ProfileMove → Stream → Prop
  | request (sessionId : String) (profile : Profile) (capabilities : ClientCapabilities) :
    Moves s (.request sessionId profile capabilities)
      { s with profiles := (s.profiles.request sessionId profile capabilities).2 }
  | take (profile : Profile) (ht : ∀ p, s.phase ≠ .applied p) :
    Moves s .take { s with profiles := s.profiles.takePending.2, phase := .awaiting profile }
  | apply (profile : Profile) (ha : s.phase = .awaiting profile) :
    Moves s .apply { s with phase := .applied profile, applied := some profile }
  | report (profile : Profile) (ha : s.phase = .applied profile) :
    Moves s .report { s with profiles := s.profiles.markApplied profile, phase := .idle }
  | fail (profile : Profile) (ha : s.phase = .awaiting profile) :
    Moves s .fail { s with profiles := s.profiles.markRejected profile "encoder reconfiguration failed", phase := .idle }
  | still (m : ProfileMove) (hm : m = .report → ∀ p, s.phase ≠ .applied p) : Moves s m s

theorem moves_step (s : Stream) (m : ProfileMove) : Moves s m (s.step m) := by
  cases m with
  | request sessionId profile capabilities => exact .request sessionId profile capabilities
  | take =>
    unfold Stream.step Stream.take
    dsimp only
    cases hphase : s.phase with
    | applied profile => exact .still _ nofun
    | idle | awaiting _ =>
      cases hp : s.profiles.takePending with
      | mk taken profiles =>
        cases taken with
        | none => exact .still _ nofun
        | some profile =>
          have hkeep := Moves.take (s := s) profile (by rw [hphase]; nofun)
          rw [hp] at hkeep
          exact hkeep
  | apply =>
    unfold Stream.step Stream.apply
    dsimp only
    cases hphase : s.phase with
    | awaiting profile => exact .apply profile hphase
    | idle | applied _ => exact .still _ nofun
  | report =>
    unfold Stream.step Stream.report
    dsimp only
    cases hphase : s.phase with
    | applied profile => exact .report profile hphase
    | idle | awaiting _ => exact .still _ fun _ p hp => by rw [hphase] at hp; cases hp
  | fail =>
    unfold Stream.step Stream.fail
    dsimp only
    cases hphase : s.phase with
    | awaiting profile => exact .fail profile hphase
    | idle | applied _ => exact .still _ nofun

theorem unreported_step (h : Unreported s) (m : ProfileMove) : Unreported (s.step m) := by
  have hm := moves_step s m
  generalize s.step m = t at hm
  cases hm with
  | request | still => exact h
  | take | report | fail => exact fun _ hp => by cases hp
  | apply profile =>
    intro p hp
    cases hp
    rfl

/-- A report leaves the manager truthful exactly where the profile is the one requested, or active already. -/
theorem truthful_report (hu : Unreported s) {profile : Profile} (ha : s.phase = .applied profile) :
    Truthful { s with profiles := s.profiles.markApplied profile, phase := .idle } ↔
      s.profiles.requested = some profile ∨ s.profiles.active = some profile := by
  obtain ⟨-, -, -, hactive⟩ := markApplied_spec s.profiles profile
  have hlast : s.applied = some profile := hu profile ha
  constructor
  · intro ht
    have heq := ht fun p hp => by cases hp
    dsimp only at heq
    rw [hactive, hlast] at heq
    by_cases hq : s.profiles.requested = some profile
    · exact .inl hq
    · rw [if_neg hq] at heq
      exact .inr heq
  · intro hc _
    dsimp only
    rw [hactive, hlast]
    rcases hc with hq | hq
    · rw [if_pos hq]
    · rw [hq, ite_self]

/-- **A move keeps the manager truthful exactly where a profile it reports is the one requested, or active already.** -/
theorem truthful_step (hu : Unreported s) (h : Truthful s) (m : ProfileMove) :
    Truthful (s.step m) ↔ ReportedCurrent s m := by
  have hm := moves_step s m
  generalize s.step m = t at hm
  cases hm with
  | request sessionId profile capabilities =>
    obtain ⟨-, -, -, ha⟩ := request_spec s sessionId profile capabilities
    exact iff_of_true (fun hn => ha.trans (h hn)) fun hm => by cases hm
  | take profile ht => exact iff_of_true (fun _ => h ht) fun hm => by cases hm
  | apply profile ha => exact iff_of_true (fun hn => absurd rfl (hn profile)) fun hm => by cases hm
  | report profile ha =>
    rw [truthful_report hu ha]
    constructor
    · intro hc _ p hp
      cases ha.symm.trans hp
      exact hc
    · exact fun hc => hc rfl profile ha
  | fail profile ha =>
    have hset : s.profiles.active = s.applied := h fun p hp => by cases ha.symm.trans hp
    refine iff_of_true (fun _ => ?_) fun hm => by cases hm
    dsimp only
    unfold StreamProfileManager.markRejected
    split <;> exact hset
  | still m hm => exact iff_of_true h fun hr p hp => absurd hp (hm hr p)

end moves

/-! ## Runs -/

/-- The manager as the host configures it, before the encode loop has taken anything up. -/
structure Configured where
  videoConfig : StreamProfileManager.VideoConfig
  profiles : StreamProfileManager
  configured : StreamProfileManager.configure videoConfig = .ok profiles

theorem Configured.active (c : Configured) : c.profiles.active = none := by
  have h := c.configured
  unfold StreamProfileManager.configure at h
  dsimp only at h
  split at h
  · cases h
  · rw [← Except.ok.inj h]

/-- **Requests are transactional in a run** — a rejected one leaves the pending and the eventually active profile as they
would be without it, and what the encoder reported is active — **exactly when every rejected request finds nothing to
spoil and every profile that is reported is still the one requested, or active already.** -/
theorem transactional_iff (c : Configured) (moves : List ProfileMove) :
    (Along move Rejections ⟨c.profiles, .idle, none⟩ moves ∧ Throughout move Truthful ⟨c.profiles, .idle, none⟩ moves) ↔
      Along move (fun s m => RejectedIdle s m ∧ ReportedCurrent s m) ⟨c.profiles, .idle, none⟩ moves := by
  rw [along_and]
  refine and_congr ⟨Along.mono fun s m => (rejections_iff s m).1, Along.mono fun s m => (rejections_iff s m).2⟩ ?_
  refine throughout_iff_along (I := Unreported) (d := fun _ _ => True) ?_ ?_ ?_ ?_ along_true
  · rintro s m s' hs - hm
    obtain rfl := Option.some.inj hm
    exact unreported_step hs m
  · rintro s m s' hs - ht hm
    obtain rfl := Option.some.inj hm
    exact truthful_step hs ht m
  · exact fun _ hp => by cases hp
  · exact fun _ => c.active

/-- The defaults of the configuration. -/
def defaults : Configured where
  videoConfig := {}
  profiles := (StreamProfileManager.configure {}).toOption.getD {}
  configured := rfl

/-- A client with all the capabilities. -/
def capable : ClientCapabilities := ⟨2560, 1440, 60, 12000000, true⟩

/-- The default is applied; then a client asks for 720p, and at once for 2160p. -/
def secondThoughts : List ProfileMove :=
  [.take, .apply, .report, .request "0123456789abcdef" ⟨1280, 720, 30, 4000000⟩ capable,
    .request "0123456789abcdef" ⟨3840, 2160, 60, 12000000⟩ capable]

/-- **A rejected request takes the pending profile of an accepted one with it.** -/
theorem not_transactional : ¬∀ (c : Configured) (moves : List ProfileMove),
    Along move Rejections ⟨c.profiles, .idle, none⟩ moves ∧
      Throughout move Truthful ⟨c.profiles, .idle, none⟩ moves := by
  intro h
  have hrej := (h defaults secondThoughts).1
  change Along _ _ _ (secondThoughts.take 4 ++ [secondThoughts.getLast (by decide)]) at hrej
  have hlast := hrej.last rfl rfl
  have hpending := (hlast (by decide) []).1
  revert hpending
  decide

end Stream

end Host
end CloudGaming
