import CloudGaming.Market.Leases
/-!
# Cleaning — a host is claimed again only once it has reported

After a prepare was handed to a host, the host reports before another session may claim it: that the session ended or
failed, that it does not run it, or that it is idle.  A lease is what keeps others away; the pollers give it up without
hearing from the host (`not_cleaned`), and only they do (`cleaned_after`).
-/
namespace CloudGaming
namespace Market

open Async Redis Relation

/-- Every claim found the host free of sessions it was told to prepare and had not reported on since. -/
def Cleaned : List Obs → Prop
  | [] => True
  | .claimed h S :: tr => (∀ S', S' ≠ S → ¬Unheard tr h S') ∧ Cleaned tr
  | _ :: tr => Cleaned tr

/-- A host that has not reported on the session leases it. -/
def View.Held (v : View) : Prop := ∀ h, v.unheard h → v.lease h ≠ none

/-- The host of the record is among the hosts tried. -/
def View.Tried (v : View) : Prop := ∀ s, v.record = some s → ∀ h, s.hostId = some h → h ∈ s.attemptedHostIds

/-- The request gives up no session whose host has not reported on it. -/
def Heard (w : World) (r : Request) : Prop :=
  ∀ S s code h, Lost w S s r code → s.hostId = some h → ¬(w.view S).unheard h

section turns
variable {w : World} {S : SessionId} {s : Session} {v v' : View} {code : String} {r : Request}

theorem View.Tried.store {s' : Session} (hv : v.Tried) (hs : v.record = some s) (hs' : v'.record = some s')
    (hh : s'.hostId = s.hostId) (ha : s'.attemptedHostIds = s.attemptedHostIds) : v'.Tried := by
  intro t ht h hth
  obtain rfl : s' = t := by rw [hs'] at ht; exact Option.some.inj ht
  rw [ha]
  exact hv s hs h (hh ▸ hth)

theorem tried_new {v : View} {h : HostId} (hs : v.record = some s) (hh : s.hostId = some h)
    (hmem : h ∈ s.attemptedHostIds) : v.Tried := by
  intro t ht k hk
  obtain rfl : s = t := by rw [hs] at ht; exact Option.some.inj ht
  rw [hh] at hk
  obtain rfl := Option.some.inj hk
  exact hmem

theorem GivenUp.tried (hv : v.Tried) (hs : v.record = some s) (hg : GivenUp w s code v v') : v'.Tried := by
  cases hg with
  | failed => exact hv.store hs rfl rfl rfl
  | moved _ attempted h c _ _ hmem => exact tried_new rfl rfl hmem

theorem Turn.tried (hv : (w.view S).Tried) (ht : Turn w S r v) : v.Tried := by
  cases ht with
  | created _ _ _ _ _ _ hmem => exact tried_new rfl rfl hmem
  | unavailable _ _ _ _ hmem => exact tried_new rfl rfl hmem
  | deleted hs => exact hv.store hs rfl rfl rfl
  | acknowledged hr => exact hv.store hr.session rfl (by unfold World.stamped; split <;> rfl) (by unfold World.stamped; split <;> rfl)
  | ready hr => exact hv.store hr.session rfl rfl rfl
  | connected hr => exact hv.store hr.session rfl rfl rfl
  | kept hr => exact hv.store hr.session rfl rfl rfl
  | ended hr => exact hv.store hr.session rfl rfl rfl
  | @lost _ s _ _ hl hg =>
    obtain ⟨mail, he⟩ := warned_eq w S s r
    rw [he] at hg
    exact hg.tried (v := { w.view S with mail := mail }) hv hl.session
  | @orphaned h =>
    obtain ⟨mail, he⟩ := stop_eq (w.view S) w.deliverable (some h)
    rw [he]
    exact hv
  | expired _ _ hs => exact hv.store hs rfl rfl rfl
  | overdue => exact hv
  | unwatched => exact hv

theorem View.Held.stop (hv : v.Held) (d : HostId → Bool) (h : Option HostId) : (v.stop d h).Held := by
  obtain ⟨mail, he⟩ := stop_eq v d h
  rw [he]
  exact hv

theorem held_deliver (hv : v.Held) (s : Session) (attempted : List HostId) (h : HostId) (c : CommandId) (now : Nat) :
    (v.deliver s attempted h c now).Held := by
  intro k hk
  by_cases he : k = h
  · subst he; simp [View.deliver]
  · simpa [View.deliver, he] using hv k (by simpa [View.deliver, he] using hk)

theorem held_drop (hv : v.Held) {k : Option HostId} (hk : ∀ h, k = some h → ¬v.unheard h) : (v.drop k).Held := by
  intro h hu
  change (if k = some h then none else v.lease h) ≠ none
  split
  · rename_i he; exact absurd hu (hk h he)
  · exact hv h hu

/-- **A turn keeps the hosts not heard of leased**, if the host it gives up was heard. -/
theorem Turn.held (hv : (w.view S).Held) (ht : Turn w S r v) (hheard : Heard w r)
    (hended : ∀ h, r.clears h S → ¬(w.view S).unheard h) : v.Held := by
  cases ht with
  | created _ _ attempted h c => exact held_deliver hv _ attempted h c w.now
  | unavailable => exact hv
  | @deleted s => exact hv.stop w.deliverable s.hostId
  | acknowledged => exact hv
  | ready => exact hv
  | connected => exact hv
  | kept => exact hv
  | @ended h e s hr ht =>
    have hc : e.clears S := by simp [HostEvent.clears, ht, hr.event]
    have hdrop : ((w.view S).drop (some h)).Held := held_drop hv fun k hk => hended k ⟨Option.some.inj hk, hc⟩
    exact hdrop
  | @lost _ s code _ hl hg =>
    have hdrop : ((w.view S).drop s.hostId).Held := held_drop hv fun h hh => hheard S s code h hl hh
    obtain ⟨mail, he⟩ := warned_eq w S s r
    rw [he] at hg
    cases hg with
    | failed => exact hdrop
    | moved _ attempted h c => exact held_deliver (v := ({ w.view S with mail := mail } : View).drop s.hostId) hdrop _ attempted h c w.now
  | @orphaned h => exact hv.stop w.deliverable (some h)
  | @expired s => exact hv.stop w.deliverable s.hostId
  | overdue => exact hv
  | unwatched => exact hv

/-- The host a session is moved to is not the one it is given up on. -/
theorem Lost.other {h : HostId} (hl : (w.view S).Leased) (ht : (w.view S).Tried) (hlost : Lost w S s r code)
    (hnew : h ∉ s.attemptedHostIds) : ¬r.clears h S := by
  have htried : ∀ k, s.hostId = some k → k ≠ h := fun k hk he => hnew (he ▸ ht s hlost.session k hk)
  cases hlost with
  | failed hr => exact fun hc => htried _ hr.host hc.1
  | restarted _ _ hlease hs => exact fun hc => htried _ (hl _ (Option.ne_none_iff_isSome.2 (view_lease_eq.2 hlease)) s hs).1 hc.1
  | timedOut => exact id
  | disconnected => exact id

theorem Turn.clears (hl : (w.view S).Leased) (htr : (w.view S).Tried) (ht : Turn w S r v) {h : HostId}
    (hc : r.clears h S) (hu : ¬(w.view S).unheard h) : ¬v.unheard h := by
  cases ht with
  | created => exact absurd hc id
  | unavailable => exact absurd hc id
  | deleted => exact absurd hc id
  | acknowledged => exact hu
  | ready => exact hu
  | connected => exact hu
  | kept => exact hu
  | ended => exact hu
  | @lost _ s code _ hlost hg =>
    obtain ⟨mail, he⟩ := warned_eq w S s r
    rw [he] at hg
    cases hg with
    | failed => exact hu
    | moved _ attempted k c _ hnew =>
      have hne : h ≠ k := fun he => hlost.other hl htr hnew (he ▸ hc)
      change ¬Function.update ((({ w.view S with mail := mail } : View).drop s.hostId).unheard) k True h
      rw [Function.update_of_ne hne]
      exact hu
  | @orphaned k =>
    obtain ⟨mail, he⟩ := stop_eq (w.view S) w.deliverable (some k)
    rw [he]
    exact hu
  | expired => exact absurd hc id
  | overdue => exact hu
  | unwatched => exact hu

/-- An event that makes a host lose its session tells that the host does not run it. -/
theorem heard_event {h : HostId} {e : HostEvent} (hl : ∀ S, (w.view S).Leased)
    (hc : ∀ k S, (Request.event h e).clears k S → ¬(w.view S).unheard k) : Heard w (.event h e) := by
  intro S s code k hlost hk
  cases hlost with
  | failed hr ht =>
    rw [hr.host] at hk
    obtain rfl := Option.some.inj hk
    exact hc h S ⟨rfl, by simp [HostEvent.clears, ht, hr.event]⟩
  | restarted ht he hlease hs =>
    have := (hl S h (Option.ne_none_iff_isSome.2 (view_lease_eq.2 hlease)) s hs).1
    rw [this] at hk
    obtain rfl := Option.some.inj hk
    exact hc h S ⟨rfl, by simp [HostEvent.clears, ht, he]⟩

theorem connected_of_deliverable {h : HostId} (hd : w.deliverable h = true) : w.connected h = true := by
  unfold World.deliverable World.connected at *
  cases hc : w.clients h with
  | none => rw [hc] at hd; cases hd
  | some x => rw [hc] at hd; simp at hd ⊢; exact hd.1

/-- A session that a poller gave up is not given up by it again. -/
theorem Turn.settled {w' : World} (hl : (w.view S).Leased) (ht : Turn w S r (w'.view S)) (hf : Frame S w w')
    (hr : ∀ h e, r ≠ .event h e) : ¬Lost w' S s r code := by
  intro hlost
  have hlive := hlost.live
  have hrec : (w'.view S).record = some s := hlost.session
  generalize hv : w'.view S = v' at ht hrec
  cases hlost with
  | failed => exact hr _ _ rfl
  | restarted => exact hr _ _ rfl
  | @timedOut t hdue hn _ hlaunch =>
    rw [hv] at hdue
    cases ht with
    | @lost _ s₀ _ _ hlost₀ hg =>
      cases hg with
      | failed => obtain rfl := Option.some.inj hrec; cases hlive
      | moved =>
        -- its new deadline is still to come
        have ht : w.now + prepareMillis = t := Option.some.inj hdue
        rw [hf.now] at hn
        simp only [prepareMillis] at ht
        omega
    | unwatched => cases hdue
  | @disconnected h _ hc hlease =>
    have hsome : (w'.view S).lease h ≠ none := Option.ne_none_iff_isSome.2 (view_lease_eq.2 hlease)
    rw [hv] at hsome
    cases ht with
    | @lost _ s₀ _ _ hlost₀ hg =>
      cases hg with
      | failed => obtain rfl := Option.some.inj hrec; cases hlive
      | moved _ attempted k c hd =>
        -- it is leased by a connected host alone
        by_cases hk : h = k
        · rw [hf.connected, hk, connected_of_deliverable hd] at hc; cases hc
        · change Function.update ((w.view S).drop s₀.hostId).lease k _ h ≠ none at hsome
          rw [Function.update_of_ne hk] at hsome
          exact hsome (hl.drop hlost₀.session h)

theorem Lost.of_act {w' : World} (ha : Act r w w') (hsame : w'.view S = w.view S) (hlost : Lost w' S s r code) :
    Lost w S s r code := by
  have hs : w.session S = w'.session S := congrArg View.record hsame.symm
  have hlease : ∀ h, w'.lease h = some S → w.lease h = some S := fun h hl => by
    rw [← view_lease_eq, ← hsame]; exact view_lease_eq.2 hl
  have hnet : w'.now = w.now ∧ w'.connected = w.connected ∧ ∀ h, w'.late h → w.late h := by
    cases ha with
    | still h => exact ⟨h.now, h.connected, h.late⟩
    | turn S' hf => exact ⟨hf.now, hf.connected, fun h => (hf.late h).1⟩
  obtain ⟨hn, hc, hlate⟩ := hnet
  cases hlost with
  | failed hr ht => exact .failed ⟨hs.trans hr.session, hr.event, hr.host, hr.live⟩ ht
  | restarted ht he hl hs' hlive => exact .restarted ht he (hlease _ hl) (hs.trans hs') hlive
  | timedOut ht hle hs' hl => exact .timedOut (hsame ▸ ht) (hn ▸ hle) (hs.trans hs') hl
  | disconnected hl hc' hl' hs' hlive => exact .disconnected (hlate _ hl) (hc ▸ hc') (hlease _ hl') (hs.trans hs') hlive

/-- **What a poller gives up stays heard** while it goes through its list. -/
theorem heard_act {w' : World} (hl : ∀ S, (w.view S).Leased) (hr : ∀ h e, r ≠ .event h e) (hheard : Heard w r)
    (ha : Act r w w') : Heard w' r := by
  intro S s code h hlost hh
  have hold : w'.view S = w.view S → ¬(w'.view S).unheard h := fun hsame => by
    rw [hsame]; exact hheard S s code h (hlost.of_act ha hsame) hh
  cases ha with
  | still hst => exact hold (hst.view S)
  | turn S' hf ht =>
    by_cases hne : S = S'
    · subst hne; exact absurd hlost (ht.settled (hl S) hf hr)
    · exact hold (hf.view S hne)

end turns

/-! ## The history -/

section history
variable {S : SessionId} {w w' : World}

theorem unheard_within {ext : List Obs} (ho : ∀ o ∈ ext, o.within S w) (tr : List Obs) (h : HostId) {S' : SessionId}
    (hne : S' ≠ S) : Unheard (ext ++ tr) h S' ↔ Unheard tr h S' := by
  induction ext with
  | nil => rfl
  | cons o ext ih =>
    have hrest : Unheard (ext ++ tr) h S' ↔ Unheard tr h S' := ih fun o' hm => ho o' (List.mem_cons_of_mem _ hm)
    have hw := ho o List.mem_cons_self
    cases o with
    | prepared k id =>
      obtain rfl : id = S := hw
      exact (or_iff_right fun hc : k = h ∧ id = S' => hne hc.2.symm).trans hrest
    | heard | presence => exact absurd hw id
    | wrote | claimed | released => exact hrest

/-- A change about one session claims no host that another one was prepared on and that was not heard since. -/
theorem cleaned_frame (hheld : ∀ S, (w.view S).Held) (hc : Cleaned w.trace) (hf : Frame S w w') : Cleaned w'.trace := by
  obtain ⟨ext, ht, ho⟩ := hf.history
  rw [ht]
  clear ht
  induction ext with
  | nil => exact hc
  | cons o ext ih =>
    have ho' : ∀ o' ∈ ext, o'.within S w := fun o' hm => ho o' (List.mem_cons_of_mem _ hm)
    have hw := ho o List.mem_cons_self
    cases o with
    | claimed h id =>
      obtain ⟨rfl, hl⟩ := hw
      refine ⟨fun S' hne hu => ?_, ih ho'⟩
      have hu' : (w.view S').unheard h := (unheard_within ho' w.trace h hne).1 hu
      exact hl S' hne (view_lease_eq.1 (Option.ne_none_iff_isSome.1 (hheld S' h hu')))
    | wrote | released | prepared | heard | presence => exact ih ho'

end history

/-! ## The run -/

structure Clean (w : World) : Prop where
  leased : ∀ S, (w.view S).Leased
  tried : ∀ S, (w.view S).Tried
  held : ∀ S, (w.view S).Held
  cleaned : Cleaned w.trace

section runs
variable {w w' : World} {r : Request}

/-- While a request is served: what it tells has been heard. -/
structure Serving (r : Request) (w : World) : Prop extends Clean w where
  clears : ∀ h S, r.clears h S → ¬(w.view S).unheard h
  polled : (∀ h e, r ≠ .event h e) → Heard w r

theorem Serving.heard (h : Serving r w) : Heard w r := by
  cases r with
  | event k e => exact heard_event h.leased h.clears
  | _ => exact h.polled fun _ _ h => by cases h

theorem serving_act (h : Serving r w) (ha : Act r w w') : Serving r w' where
  leased := views_act (I := fun _ v => v.Leased) (fun _ _ hv ht => ht.leased hv) h.leased ha
  tried := views_act (I := fun _ v => v.Tried) (fun _ _ hv ht => ht.tried hv) h.tried ha
  held := views_act (I := fun _ v => v.Held) (fun S _ hv ht => ht.held hv h.heard fun k => h.clears k S) h.held ha
  cleaned := by
    cases ha with
    | still hst => rw [hst.history]; exact h.cleaned
    | turn S hf => exact cleaned_frame h.held h.cleaned hf
  clears k S hc := by
    cases ha with
    | still hst => rw [hst.view]; exact h.clears k S hc
    | turn S' hf ht =>
      by_cases hne : S = S'
      · subst hne; exact ht.clears (h.leased S) (h.tried S) hc (h.clears k S hc)
      · rw [hf.view S hne]; exact h.clears k S hc
  polled hr := heard_act h.leased hr (h.polled hr) ha

theorem serving_arrived (h : Clean w) (hheard : (∀ k e, r ≠ .event k e) → Heard w r) : Serving r (w.arrived r) where
  leased S := by rw [view_arrived]; exact h.leased S
  tried S := by rw [view_arrived]; exact h.tried S
  held S := by rw [view_arrived]; exact fun k hk => h.held S k hk.1
  cleaned := by cases r <;> exact h.cleaned
  clears k S hc := by rw [view_arrived]; exact fun hu => hu.2 hc
  polled hr S s code k hlost hk := by
    cases hlost with
    | failed => exact absurd rfl (hr _ _)
    | restarted => exact absurd rfl (hr _ _)
    | timedOut ht hn hs hl => exact hheard hr S s _ k (.timedOut ht hn hs hl) hk
    | disconnected hl hc hlease hs hlive => exact hheard hr S s _ k (.disconnected hl hc hlease hs hlive) hk

theorem clean_serve (hf : Fresh w) (h : Clean w) (hheard : (∀ k e, r ≠ .event k e) → Heard w r) : Clean (w.serve r) :=
  (serve_induction (P := Serving r) hf (serving_arrived h hheard) fun _ _ hs ha => serving_act hs ha).toClean

/-- The poller gives up no session whose host has not reported on it, and no such host loses its lease by its TTL. -/
def Reported (w : World) : Input → Prop
  | .request .expirePreparations => Heard w .expirePreparations
  | .request .expireDisconnectedHosts => Heard w .expireDisconnectedHosts
  | .ambient (.expireLease h) => ∀ S, w.lease h = some S → ¬Unheard w.trace h S
  | .elapse millis => ∀ h S, w.lease h = some S → (w.elapse millis).lease h = some S ∨ ¬Unheard w.trace h S
  | _ => True

theorem Heard.quiet (hr : r ≠ .expirePreparations ∧ r ≠ .expireDisconnectedHosts) (hne : ∀ k e, r ≠ .event k e) : Heard w r := by
  intro S s code k hlost
  cases hlost with
  | failed => exact absurd rfl (hne _ _)
  | restarted => exact absurd rfl (hne _ _)
  | timedOut => exact absurd rfl hr.1
  | disconnected => exact absurd rfl hr.2

theorem tried_ambient {S : SessionId} {v : View} (hv : v.Tried) (a : Ambient) : (v.ambient S a).Tried := by
  cases a with
  | expireSession id =>
    unfold View.ambient
    dsimp only
    split
    · exact fun _ hs => by cases hs
    · exact hv
  | _ => exact hv

theorem clean_ambient (h : Clean w) {a : Ambient} (hok : Reported w (.ambient a)) : Clean (w.ambient a) where
  leased S := by rw [view_ambient]; exact leased_ambient (h.leased S) a
  tried S := by rw [view_ambient]; exact tried_ambient (h.tried S) a
  held S := by
    have hv := h.held S
    rw [view_ambient]
    cases a with
    | expireLease k =>
      intro k' hu
      by_cases he : k' = k
      · subst he
        exact absurd hu (hok S (view_lease_eq.1 (Option.ne_none_iff_isSome.1 (hv k' hu))))
      · simpa [View.ambient, he] using hv k' hu
    | expireSession id =>
      unfold View.ambient
      dsimp only
      split <;> exact hv
    | _ => exact hv
  cleaned := by
    cases a with
    | reorder g ids => simp only [World.ambient]; split <;> exact h.cleaned
    | _ => exact h.cleaned

theorem clean_elapse (h : Clean w) {millis : Nat} (hok : Reported w (.elapse millis)) : Clean (w.elapse millis) where
  leased S := leased_elapse (h.leased S) millis
  tried S := by
    obtain ⟨o, ho, he⟩ := view_elapse w S millis
    rw [he]
    rcases ho with rfl | rfl
    · exact fun _ hs => by cases hs
    · exact h.tried S
  held S k hu := by
    have hu' : (w.view S).unheard k := hu
    have hl : w.lease k = some S := view_lease_eq.1 (Option.ne_none_iff_isSome.1 (h.held S k hu'))
    rcases hok k S hl with hl' | hn
    · exact Option.ne_none_iff_isSome.2 (view_lease_eq.2 hl')
    · exact absurd hu' hn
  cleaned := h.cleaned

theorem clean_handle (hf : Fresh w) (h : Clean w) {i : Input} (hok : Reported w i) : Clean (w.handle i) := by
  cases i with
  | request r =>
    refine clean_serve hf h fun hne => ?_
    by_cases hp : r = .expirePreparations
    · subst hp; exact hok
    · by_cases hd : r = .expireDisconnectedHosts
      · subst hd; exact hok
      · exact Heard.quiet ⟨hp, hd⟩ hne
  | connect k =>
    exact clean_serve (fresh_ambient hf _) (clean_ambient (a := .accept k) h trivial) fun hne => Heard.quiet ⟨by simp, by simp⟩ hne
  | disconnect k =>
    simp only [World.handle]
    split
    · exact clean_serve (fresh_ambient hf _) (clean_ambient (a := .closed k) h trivial) fun hne =>
        Heard.quiet ⟨by simp, by simp⟩ hne
    · exact h
  | ambient a => exact clean_ambient h hok
  | elapse millis => exact clean_elapse h hok

end runs

theorem clean_init (config : Config) : Clean (World.init config) where
  leased _ _ hk := absurd rfl hk
  tried _ _ hs := by cases hs
  held _ _ hu := absurd hu id
  cleaned := trivial

/-- **A host is clean when it is claimed**, in every run in which the pollers give up only sessions whose host has
reported. -/
theorem cleaned_after (config : Config) (inputs : List Input) (hok : Meets Reported (World.init config) inputs) :
    Cleaned (World.after config inputs).trace :=
  (after_induction (P := Clean) (clean_init config) (fun _ _ hf h hok => clean_handle hf h hok) inputs hok).cleaned

/-- A session fails on its host, the host comes back idle and takes another one. -/
theorem cleaned_failedThenPosted : Cleaned (World.after ⟨60⟩ [.connect ⟨0⟩, .request (.presence (samplePresence ⟨0⟩ .idle)),
    .request (.post ⟨"ada"⟩ sampleRequest), .request (.event ⟨0⟩ { type := .failed, sessionId := some ⟨2⟩ }),
    .request (.presence (samplePresence ⟨0⟩ .idle)), .request (.post ⟨"bob"⟩ sampleRequest)]).trace :=
  cleaned_after ⟨60⟩ _ ⟨trivial, trivial, trivial, trivial, trivial, trivial, trivial⟩

/-- The newest observation is a claim of the host for another session than one it has not reported on. -/
def Reclaims (h : HostId) (S : SessionId) : List Obs → Prop
  | .claimed h' S' :: tr => h' = h ∧ S' ≠ S ∧ Unheard tr h S
  | _ => False

instance (h : HostId) (S : SessionId) : (tr : List Obs) → Decidable (Reclaims h S tr)
  | .claimed h' S' :: tr => inferInstanceAs (Decidable (h' = h ∧ S' ≠ S ∧ Unheard tr h S))
  | [] | .wrote _ :: _ | .released .. :: _ | .prepared .. :: _ | .heard .. :: _ | .presence .. :: _ => isFalse id

theorem Cleaned.drop : ∀ (tr : List Obs), Cleaned tr → ∀ n, Cleaned (tr.drop n)
  | _, h, 0 => h
  | [], _, _ + 1 => trivial
  | .claimed .. :: tr, h, n + 1 => Cleaned.drop tr h.2 n
  | .wrote _ :: tr, h, n + 1 | .released .. :: tr, h, n + 1 | .prepared .. :: tr, h, n + 1
  | .heard .. :: tr, h, n + 1 | .presence .. :: tr, h, n + 1 => Cleaned.drop tr h n

theorem Cleaned.not_reclaims {h : HostId} {S : SessionId} : ∀ {tr : List Obs}, Cleaned tr → ¬Reclaims h S tr
  | .claimed _ _ :: _, hc, hr => hc.1 S hr.2.1.symm (hr.1 ▸ hr.2.2)
  | [], _, hr | .wrote _ :: _, _, hr | .released .. :: _, _, hr | .prepared .. :: _, _, hr | .heard .. :: _, _, hr
  | .presence .. :: _, _, hr => hr

/-- A host is told to prepare a session and says that it is preparing; the prepare times out, and another session is
posted. -/
def timedOut : List Input :=
  [.connect ⟨0⟩, .request (.presence (samplePresence ⟨0⟩ .idle)), .request (.post ⟨"ada"⟩ sampleRequest), .elapse 180000,
    .request (.presence (samplePresence ⟨0⟩ .preparing)), .request .expirePreparations,
    .request (.post ⟨"bob"⟩ sampleRequest)]

/-- **A prepare timeout hands on a host that may still be launching**: nothing was heard of it. -/
theorem not_cleaned : ¬∀ config inputs, (∀ i ∈ inputs, Input.timed i = true) → Cleaned (World.after config inputs).trace := by
  intro hc
  have hc' := hc ⟨60⟩ timedOut (by decide)
  -- before the claim the newest history is what the claimed host was sent, and what was stored
  have hr : Reclaims ⟨0⟩ ⟨2⟩ ((World.after ⟨60⟩ timedOut).trace.drop 3) := by decide +kernel
  generalize (World.after ⟨60⟩ timedOut).trace = tr at hr hc'
  exact Cleaned.not_reclaims (Cleaned.drop tr hc' 3) hr

end Market
end CloudGaming
