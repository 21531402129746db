import CloudGaming.Market.Acts
/-!
# Runs — invariants of the matchmaker when handlers run one at a time

An invariant of every run has to hold of the empty store and to survive what arrives, every turn of a session and what
happens outside the handlers (`after_induction`, `handle_induction`).
-/
namespace CloudGaming
namespace Market

open Async Redis Relation

/-! ## What arrives, and what happens outside -/

/-- A request that tells that the host does not run the session. -/
def Request.clears (h : HostId) (id : SessionId) : Request → Prop
  | .event h' e => h' = h ∧ e.clears id
  | .presence p => p.hostId = h ∧ p.state = .idle
  | _ => False

def View.arrived (v : View) (id : SessionId) (r : Request) : View :=
  { v with unheard := fun h => v.unheard h ∧ ¬r.clears h id }

def View.ambient (v : View) (id : SessionId) : Ambient → View
  | .accept h => { v with mail := Function.update v.mail h [.ready] }
  | .closed h => { v with mail := Function.update v.mail h [] }
  | .expireLease h => { v with lease := Function.update v.lease h none }
  | .expireSession id' => if id' = id then { v with record := none } else v
  | _ => v

section views
variable (w : World) (id : SessionId)

theorem view_arrived (r : Request) : (w.arrived r).view id = (w.view id).arrived id r := by
  cases r with
  | event h e => exact View.ext rfl rfl rfl rfl rfl rfl
  | presence p => exact View.ext rfl rfl rfl rfl rfl rfl
  | _ => exact View.ext rfl rfl rfl rfl rfl (by funext h; simp [View.arrived, Request.clears]; rfl)

theorem session_expireSession (id' : SessionId) :
    (w.ambient (.expireSession id')).session id = if id' = id then none else w.session id := by
  split
  · rename_i h; subst h; simp [World.ambient, World.session]
  · rename_i h; simp [World.ambient, World.session, Keys.get_del_of_ne _ (Ne.symm h)]

theorem outbox_close (h k : HostId) (f : Socket → Socket) (hf : ∀ s, (f s).outbox = s.outbox) :
    ({ w with clients := Function.update w.clients h ((w.clients h).map f) } : World).outbox k = w.outbox k := by
  unfold World.outbox
  by_cases hk : k = h
  · subst hk; cases w.clients k <;> simp [hf]
  · simp [hk]

theorem view_ambient (a : Ambient) : (w.ambient a).view id = (w.view id).ambient id a := by
  cases a with
  | advance millis => rfl
  | accept h =>
    refine View.ext rfl rfl rfl rfl ?_ rfl
    funext k
    by_cases hk : k = h
    · subst hk; simp [World.view, World.outbox, World.ambient, View.ambient, Packet.mail]
    · simp [World.view, World.outbox, World.ambient, View.ambient, hk]
  | closing h =>
    refine View.ext rfl rfl rfl rfl ?_ rfl
    funext k
    exact congrArg (List.filterMap (Packet.mail id)) (outbox_close w h k ({ · with isOpen := false }) fun _ => rfl)
  | closed h =>
    refine View.ext rfl rfl rfl rfl ?_ rfl
    funext k
    by_cases hk : k = h
    · subst hk; simp [World.view, World.outbox, World.ambient, View.ambient]
    · simp [World.view, World.outbox, World.ambient, View.ambient, hk]
  | congest h b =>
    refine View.ext rfl rfl rfl rfl ?_ rfl
    funext k
    exact congrArg (List.filterMap (Packet.mail id)) (outbox_close w h k ({ · with congested := b }) fun _ => rfl)
  | expireHost h => rfl
  | expireLease h =>
    refine View.ext rfl ?_ rfl rfl rfl rfl
    funext k
    by_cases hk : k = h
    · subst hk; simp [World.view, World.ambient, View.ambient]
    · simp [World.view, World.ambient, View.ambient, Keys.del_of_ne _ hk, hk]
  | expireSession id' =>
    have hs := session_expireSession w id id'
    by_cases h : id' = id
    · rw [if_pos h] at hs
      simp only [View.ambient, if_pos h]
      exact View.ext hs rfl rfl rfl rfl rfl
    · rw [if_neg h] at hs
      simp only [View.ambient, if_neg h]
      exact View.ext hs rfl rfl rfl rfl rfl
  | expirePlayer p => rfl
  | reorder g ids =>
    simp only [World.ambient]
    split <;> rfl

/-- What the TTLs leave of a session: the leases that end later, and the record or nothing. -/
theorem view_elapse (millis : Nat) : ∃ record, (record = none ∨ record = (w.view id).record) ∧
    (w.elapse millis).view id =
      { w.view id with
        record := record
        lease := fun h => ((w.view id).lease h).filter fun t => w.now + millis < t } := by
  refine ⟨(w.elapse millis).session id, ?_, View.ext rfl ?_ rfl rfl rfl rfl⟩
  · cases hs : (w.elapse millis).session id with
    | none => exact .inl rfl
    | some s =>
      obtain ⟨s', hs', rfl⟩ := Option.map_eq_some_iff.1 hs
      have hget : w.sessions.get id = some s' := Keys.get_sweep_of_some (m := w.sessions) (t := w.now + millis) hs'
      exact .inr (congrArg (Option.map Subtype.val) hget).symm
  · funext h
    unfold World.view World.elapse Keys.sweep
    cases hl : w.leases h with
    | none => simp [hl]
    | some e =>
      by_cases hlt : w.now + millis < e.expireAt <;> by_cases he : e.val = id <;> simp [hl, hlt, he, Option.filter]

end views

/-! ## Invariants of every run -/

section invariants
variable {P : World → Prop} {w w' : World} {r : Request}

theorem serve_induction (hf : Fresh w) (harrive : P (w.arrived r)) (hact : ∀ w w', P w → Act r w w' → P w') :
    P (w.serve r) := by
  have hrun : ∀ w', ReflTransGen (Act r) (w.arrived r) w' → P w' := by
    intro w' h
    induction h with
    | refl => exact harrive
    | tail _ ha ih => exact hact _ _ ih ha
  exact hrun _ (acts_serve hf r)

/-- An invariant of the views survives an act if it survives a turn. -/
theorem views_act {I : SessionId → View → Prop} (hturn : ∀ S v, I S (w.view S) → Turn w S r v → I S v)
    (hI : ∀ S, I S (w.view S)) (ha : Act r w w') (S : SessionId) : I S (w'.view S) := by
  cases ha with
  | still h => rw [h.view]; exact hI S
  | turn S' hf ht =>
    by_cases hne : S = S'
    · subst hne; exact hturn S _ (hI S) ht
    · rw [hf.view S hne]; exact hI S

end invariants

/-! ## Fresh ids -/

section fresh
variable {w w' : World} {r : Request} {S : SessionId} {v : View}

/-- Only an orphan's stop is about a session that was not drawn yet. -/
theorem Turn.unborn (hv : (w.view S).Unborn) (hu : w.nextUuid ≤ S.uuid) (ht : Turn w S r v) : v.Unborn := by
  have hnone : ∀ s, w.session S ≠ some s := fun s hs => by rw [show w.session S = none from hv.record] at hs; cases hs
  cases ht with
  | created hu' => omega
  | unavailable hu' => omega
  | deleted hs => exact absurd hs (hnone _)
  | acknowledged hr => exact absurd hr.session (hnone _)
  | ready hr => exact absurd hr.session (hnone _)
  | connected hr => exact absurd hr.session (hnone _)
  | kept hr => exact absurd hr.session (hnone _)
  | ended hr => exact absurd hr.session (hnone _)
  | lost hl => exact absurd hl.session (hnone _)
  | @orphaned h =>
    unfold View.stop
    dsimp only
    split
    · refine ⟨hv.record, hv.lease, hv.prepareAt, hv.endsAt, fun k => ?_, hv.unheard⟩
      have hk := hv.mail k
      by_cases he : k = h
      · subst he; simpa using hk
      · simpa [he] using hk
    · exact hv
  | expired ht _ _ _ => rw [hv.endsAt] at ht; cases ht
  | overdue ht _ _ => rw [hv.endsAt] at ht; cases ht
  | unwatched ht _ _ => rw [hv.prepareAt] at ht; cases ht

theorem fresh_init (config : Config) : Fresh (World.init config) :=
  fun _ _ => ⟨rfl, fun _ => rfl, rfl, rfl, fun _ => by simp [World.view, World.outbox, World.init],
    fun _ => by simp [World.view, World.init, Unheard]⟩

theorem nextUuid_arrived (w : World) (r : Request) : (w.arrived r).nextUuid = w.nextUuid + 1 := by cases r <;> rfl

theorem fresh_arrived (hf : Fresh w) (r : Request) : Fresh (w.arrived r) := by
  intro S hu
  rw [nextUuid_arrived] at hu
  obtain ⟨hr, hl, hp, he, hm, hh⟩ := hf S (by omega)
  rw [view_arrived]
  exact ⟨hr, hl, hp, he, hm, fun h hh' => hh h hh'.1⟩

theorem fresh_act (hf : Fresh w) (ha : Act r w w') : Fresh w' := by
  intro S hu
  cases ha with
  | still h => rw [h.view]; exact hf S (Nat.le_trans h.nextUuid hu)
  | turn S' hf' ht =>
    by_cases hne : S = S'
    · subst hne; exact ht.unborn (hf S (Nat.le_trans hf'.nextUuid hu)) (Nat.le_trans hf'.nextUuid hu)
    · rw [hf'.view S hne]; exact hf S (Nat.le_trans hf'.nextUuid hu)

theorem nextUuid_ambient (w : World) (a : Ambient) : (w.ambient a).nextUuid = w.nextUuid := by
  cases a with
  | reorder g ids => simp only [World.ambient]; split <;> rfl
  | _ => rfl

theorem fresh_ambient (hf : Fresh w) (a : Ambient) : Fresh (w.ambient a) := by
  intro S hu
  rw [nextUuid_ambient] at hu
  obtain ⟨hr, hl, hp, he, hm, hh⟩ := hf S hu
  rw [view_ambient]
  cases a with
  | accept h =>
    refine ⟨hr, hl, hp, he, fun k => ?_, hh⟩
    by_cases hk : k = h <;> simp [View.ambient, hk, hm]
  | closed h =>
    refine ⟨hr, hl, hp, he, fun k => ?_, hh⟩
    by_cases hk : k = h <;> simp [View.ambient, hk, hm]
  | expireLease h =>
    refine ⟨hr, fun k => ?_, hp, he, hm, hh⟩
    by_cases hk : k = h <;> simp [View.ambient, hk, hl]
  | expireSession id =>
    unfold View.ambient
    dsimp only
    split
    · exact ⟨rfl, hl, hp, he, hm, hh⟩
    · exact ⟨hr, hl, hp, he, hm, hh⟩
  | _ => exact ⟨hr, hl, hp, he, hm, hh⟩

theorem fresh_elapse (hf : Fresh w) (millis : Nat) : Fresh (w.elapse millis) := by
  intro S hu
  obtain ⟨hr, hl, hp, he, hm, hh⟩ := hf S hu
  obtain ⟨o, ho, hv⟩ := view_elapse w S millis
  rw [hv]
  exact ⟨ho.elim id fun h => h.trans hr, fun k => by simp [hl], hp, he, hm, hh⟩

end fresh

/-! ## Sequences of inputs -/

section runs
variable {P : World → Prop} {w : World}

/-- What arrives, acts, happens outside or elapses keeps an invariant: so does every input. -/
theorem handle_induction (harrive : ∀ w r, P w → P (w.arrived r)) (hact : ∀ w w' r, P w → Act r w w' → P w')
    (hambient : ∀ w a, P w → P (w.ambient a)) (helapse : ∀ w millis, P w → P (w.elapse millis)) (hf : Fresh w)
    (h : P w) (i : Input) : P (w.handle i) := by
  cases i with
  | request r => exact serve_induction hf (harrive w r h) fun w w' => hact w w' r
  | connect k => exact serve_induction (fresh_ambient hf _) (harrive _ _ (hambient w _ h)) fun w w' => hact w w' _
  | disconnect k =>
    simp only [World.handle]
    split
    · exact serve_induction (fresh_ambient hf _) (harrive _ _ (hambient w _ h)) fun w w' => hact w w' _
    · exact h
  | ambient a => exact hambient w a h
  | elapse millis => exact helapse w millis h

theorem fresh_handle (hf : Fresh w) (i : Input) : Fresh (w.handle i) :=
  handle_induction (fun _ r h => fresh_arrived h r) (fun _ _ _ h ha => fresh_act h ha) (fun _ a h => fresh_ambient h a)
    (fun _ m h => fresh_elapse h m) hf hf i

/-- Every input of the run meets a condition on the world it finds. -/
def Meets (ok : World → Input → Prop) : World → List Input → Prop
  | _, [] => True
  | w, i :: inputs => ok w i ∧ Meets ok (w.handle i) inputs

instance decidableMeets {ok : World → Input → Prop} [∀ w i, Decidable (ok w i)] :
    ∀ (w : World) (inputs : List Input), Decidable (Meets ok w inputs)
  | _, [] => isTrue trivial
  | w, i :: inputs => @instDecidableAnd _ _ _ (decidableMeets (w.handle i) inputs)

theorem meets_of_forall {ok : World → Input → Prop} (h : ∀ w i, ok w i) :
    ∀ (inputs : List Input) (w : World), Meets ok w inputs
  | [], _ => trivial
  | i :: inputs, w => ⟨h w i, meets_of_forall h inputs (w.handle i)⟩

/-- **An invariant of the inputs that meet the condition holds after every run of them.** -/
theorem after_induction {ok : World → Input → Prop} {config : Config} (hinit : P (World.init config))
    (hstep : ∀ w i, Fresh w → P w → ok w i → P (w.handle i)) (inputs : List Input)
    (hok : Meets ok (World.init config) inputs) : P (World.after config inputs) := by
  have hrun : ∀ (inputs : List Input) (w : World), Fresh w → P w → Meets ok w inputs → P (inputs.foldl World.handle w) := by
    intro inputs
    induction inputs with
    | nil => intro w _ hP _; exact hP
    | cons i inputs ih => intro w hf hP hok; exact ih _ (fresh_handle hf i) (hstep w i hf hP hok.1) hok.2
  exact hrun inputs _ (fresh_init config) hinit hok

end runs

end Market
end CloudGaming
