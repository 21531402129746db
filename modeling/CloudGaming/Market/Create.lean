import CloudGaming.Market.Attempt
/-!
# Create — what a failed session creation leaves behind

`POST /api/v1/sessions` alone on the store, any of its commands rejected or left without a reply, any socket refusing the
prepare.  The claim script stores the new session before the prepare is sent, and no error path of the route stores it
again: once a claim took effect, only a delivered prepare keeps the answer from being an error with a live record.
-/
namespace CloudGaming
namespace Market

open Async Redis

/-! ## Fault plans -/

section F
variable (F : Nat → Fate)

/-- The `n` commands from number `i` on are answered. -/
def Answered (i n : Nat) : Prop := ∀ j < n, F (i + j) = .answered

/-- `releasePlayer`, starting with command `i`, deletes the lock that names the session. -/
def Unlocks (i : Nat) : Prop := F i = .answered ∧ F (i + 1) ≠ .rejected

/-- `releasePlayer` deletes the lock, or it throws and the `catch` deletes it. -/
def CleansUp (i : Nat) : Prop :=
  Unlocks F i ∨ F i ≠ .answered ∧ Unlocks F (i + 1) ∨
    F i = .answered ∧ F (i + 1) = .rejected ∧ Unlocks F (i + 2)

variable {F}

theorem answered_add {i m n : Nat} : Answered F i (m + n) ↔ Answered F i m ∧ Answered F (i + m) n := by
  constructor
  · intro h
    exact ⟨fun j hj => h j (by omega), fun j hj => by rw [Nat.add_assoc]; exact h (m + j) (by omega)⟩
  · rintro ⟨h₁, h₂⟩ j hj
    by_cases hm : j < m
    · exact h₁ j hm
    · have := h₂ (j - m) (by omega)
      rwa [show i + m + (j - m) = i + j by omega] at this

theorem answered_one {i : Nat} : Answered F i 1 ↔ F i = .answered := by
  constructor
  · intro h; exact h 0 (by decide)
  · intro h j hj
    obtain rfl : j = 0 := by omega
    exact h

theorem answered_succ {i n : Nat} : Answered F i (n + 1) ↔ F i = .answered ∧ Answered F (i + 1) n := by
  rw [Nat.add_comm n 1, answered_add, answered_one]

/-- There is one first fault. -/
theorem first_fault_unique {f f' : Nat} (ha : Answered F 0 f) (hp : F f ≠ .answered) (ha' : Answered F 0 f')
    (hp' : F f' ≠ .answered) : f = f' := by
  rcases Nat.lt_trichotomy f f' with h | h | h
  · exact absurd (by simpa using ha' f h) hp
  · exact h
  · exact absurd (by simpa using ha f' h) hp'

theorem answered_zero {i : Nat} : Answered F i 0 := fun _ hj => absurd hj (Nat.not_lt_zero _)

end F

/-! ## Candidates -/

section loop
variable (claims takes : HostId → Bool) (F : Nat → Fate)

/-- The commands spent on candidates none of which takes the prepare: a claim each, and a release where it succeeds. -/
def spent : List HostId → Nat
  | [] => 0
  | h :: hosts => (if claims h then 2 else 1) + spent hosts

/-- **Some candidate can be claimed and takes the prepare, and every command from `i` up to the answer is answered.** -/
def Delivered (i : Nat) (hosts : List HostId) : Prop :=
  ∃ pre h post, hosts = pre ++ h :: post ∧ (∀ x ∈ pre, claims x = true → takes x = false) ∧ claims h = true ∧
    takes h = true ∧ Answered F i (spent claims pre + 5)

variable {claims takes F}

/-- The first candidate either takes the prepare or is spent. -/
theorem delivered_cons {i : Nat} {h : HostId} {hosts : List HostId} : Delivered claims takes F i (h :: hosts) ↔
    if claims h = true then
      if takes h = true then Answered F i 5 else Answered F i 2 ∧ Delivered claims takes F (i + 2) hosts
    else Answered F i 1 ∧ Delivered claims takes F (i + 1) hosts := by
  -- a candidate that does not take the prepare is in front of the one that does
  have skip : ∀ n, spent claims [h] = n → (claims h = true → takes h = false) →
      (Delivered claims takes F i (h :: hosts) ↔ Answered F i n ∧ Delivered claims takes F (i + n) hosts) := by
    intro n hn hno
    constructor
    · rintro ⟨pre, x, post, he, hpre, hc, ht, ha⟩
      cases pre with
      | nil =>
        obtain ⟨rfl, -⟩ := List.cons.inj he
        rw [hno hc] at ht; cases ht
      | cons y pre =>
        obtain ⟨rfl, he'⟩ := List.cons.inj he
        have hs : spent claims (h :: pre) + 5 = n + (spent claims pre + 5) := by simp [spent] at hn ⊢; omega
        rw [hs, answered_add] at ha
        exact ⟨ha.1, pre, x, post, he', fun z hz => hpre z (List.mem_cons_of_mem _ hz), hc, ht, ha.2⟩
    · rintro ⟨ha, pre, x, post, rfl, hpre, hc, ht, ha'⟩
      refine ⟨h :: pre, x, post, rfl, fun z hz => ?_, hc, ht, ?_⟩
      · rcases List.mem_cons.1 hz with rfl | hz
        · exact hno
        · exact hpre z hz
      · have hs : spent claims (h :: pre) + 5 = n + (spent claims pre + 5) := by simp [spent] at hn ⊢; omega
        rw [hs, answered_add]
        exact ⟨ha, ha'⟩
  by_cases hc : claims h = true
  · rw [if_pos hc]
    by_cases ht : takes h = true
    · rw [if_pos ht]
      constructor
      · rintro ⟨pre, x, post, he, hpre, -, -, ha⟩
        cases pre with
        | nil => simpa [spent] using ha
        | cons y pre =>
          obtain ⟨rfl, -⟩ := List.cons.inj he
          have := hpre h List.mem_cons_self hc
          rw [ht] at this; cases this
      · intro ha
        exact ⟨[], h, hosts, rfl, by simp, hc, ht, by simpa [spent] using ha⟩
    · rw [if_neg ht]
      exact skip 2 (by simp [spent, hc]) fun _ => by simpa using ht
  · rw [if_neg hc]
    exact skip 1 (by simp [spent, hc]) fun h' => absurd h' hc

/-- A delivered prepare answers every command up to the first claim that takes effect. -/
theorem Delivered.reaches {i : Nat} {hosts : List HostId} (h : Delivered claims takes F i hosts) :
    hosts.findIdx claims < hosts.length ∧ Answered F i (hosts.findIdx claims + 1) := by
  obtain ⟨pre, x, post, rfl, -, hc, -, ha⟩ := h
  have hlen : pre.length ≤ spent claims pre := by
    induction pre with
    | nil => simp
    | cons y pre ih =>
      have : spent claims (y :: pre) = (if claims y then 2 else 1) + spent claims pre := rfl
      have ih' := ih fun j hj => ha j (by omega)
      split at this <;> simp <;> omega
  have hidx : (pre ++ x :: post).findIdx claims ≤ pre.length := by
    rw [List.findIdx_append]
    split
    · omega
    · simp [List.findIdx_cons, hc]
  exact ⟨by simp; omega, fun j hj => ha j (by omega)⟩

theorem not_delivered_nil {i : Nat} : ¬Delivered claims takes F i [] := by
  rintro ⟨pre, x, post, he, -⟩
  cases pre <;> cases he

end loop

/-! ## A claim that took effect -/

/-- A record of the session is stored, and it is not terminal. -/
def Leaked (id : SessionId) (w : World) : Prop := ∃ s, w.session id = some s ∧ s.state.terminal = false

theorem leaked_write {w : World} {s : Session} (hs : s.state.terminal = false) : Leaked s.id (w.write s) :=
  ⟨s, by rw [session_write, if_pos rfl], hs⟩

/-- However the program ends, the record stays; it returns a session where `good` holds, and throws elsewhere. -/
def Settles (id : SessionId) (good : Prop) (o : Outcome (Option Session) World) : Prop :=
  Leaked id o.world ∧ ((∃ a, o.result = some (some a)) ∧ good ∨ o.result = none ∧ ¬good)

theorem settles_throw {id : SessionId} {good : Prop} (hg : ¬good) {n : Nat} {w : World} (hw : Leaked id w) :
    Settles id good ⟨none, n, w⟩ := ⟨hw, .inr ⟨rfl, hg⟩⟩

/-- The end of `allocateSession`: the preparing session is stored and its deadline entered. -/
theorem settles_saveSession {s : Session} (hs : s.state.terminal = false) (n : Nat) {F : Nat → Fate} {i : Nat} {w : World}
    (hw : Leaked s.id w) : Settles s.id (Answered F i 4) (Prog.runFaulty machine F (do
      let allocated ← saveSession s
      await (.addPrepareDeadline s.id n)
      return some allocated) i w) := by
  have later : ∀ {k m}, k < m → F (i + k) ≠ .answered → ¬Answered F i m := fun hk hne ha => hne (ha _ hk)
  have hw' : Leaked s.id ((exec (.setSession { s with updatedAt := w.now }) w).2) := leaked_write (s := { s with updatedAt := w.now }) hs
  unfold saveSession
  simp only [bind_assoc]
  rw [Prog.runFaulty_invoke_bind]
  cases h₀ : F i with
  | rejected =>
    rw [Prog.runFaulty_send_bind_rejected machine h₀]
    exact settles_throw (later (k := 0) (by decide) (by simp [h₀])) hw
  | lost =>
    rw [Prog.runFaulty_send_bind_lost machine h₀]
    exact settles_throw (later (k := 0) (by decide) (by simp [h₀])) hw'
  | answered =>
    rw [Prog.runFaulty_send_bind_answered machine h₀, Prog.runFaulty_send_bind_still machine (by rfl)]
    split
    · rename_i h₁
      rw [Prog.runFaulty_send_bind_still machine (by rfl)]
      split
      · rename_i h₂
        cases h₃ : F (i + 1 + 1 + 1) with
        | rejected =>
          simp only [Prog.pure_eq, Prog.ret_bind]
          rw [Prog.runFaulty_send_bind_rejected machine h₃]
          exact settles_throw (later (k := 3) (by decide) (by simp [h₃])) hw'
        | lost =>
          simp only [Prog.pure_eq, Prog.ret_bind]
          rw [Prog.runFaulty_send_bind_lost machine h₃]
          exact settles_throw (later (k := 3) (by decide) (by simp [h₃])) hw'
        | answered =>
          simp only [Prog.pure_eq, Prog.ret_bind]
          rw [Prog.runFaulty_send_bind_answered machine h₃]
          refine ⟨hw', .inl ⟨⟨_, rfl⟩, ?_⟩⟩
          simp only [answered_succ, h₀, h₁, h₂, h₃, true_and]
          exact answered_zero
      · rename_i h₂
        exact settles_throw (later (k := 2) (by decide) h₂) hw'
    · rename_i h₁
      exact settles_throw (later (k := 1) (by decide) h₁) hw'

theorem leaked_reserve {w : World} {h : HostId} {r : {r : HostRecord // r.hostId = h}} {s : Session}
    (hs : s.state.terminal = false) : Leaked s.id (w.reserve h r s) := ⟨s, by rw [session_reserve, if_pos rfl], hs⟩

theorem leaked_attempt {w : World} {h : HostId} {r : {r : HostRecord // r.hostId = h}} {s : Session}
    (hs : s.state.terminal = false) : Leaked s.id (w.attempt h r s) := ⟨s, by rw [session_attempt, if_pos rfl], hs⟩

section loop
variable {claims takes : HostId → Bool} {F : Nat → Fate} {s : Session}

/-- The prepare is handed to the socket: what is left is to store the session and its deadline. -/
theorem faulty_prepareOn_taken {host : HostRecord} {w : World} (hd : w.deliverable host.hostId = true)
    (hw : Leaked s.id w) (attempted : List HostId) (i : Nat) :
    Settles s.id (Answered F i 4) (Prog.runFaulty machine F (prepareOn s attempted host) i w) := by
  unfold prepareOn
  rw [Prog.runFaulty_invoke_bind]
  dsimp only
  rw [Prog.runFaulty_invoke_bind]
  have hc : machine.call (.send (some host.hostId) (prepareCommand s host ((machine.call .dateNow w).1 + prepareMillis)))
      (machine.call .dateNow w).2 = _ := call_send_some hd _
  rw [hc, if_neg (by simp)]
  exact settles_saveSession (s := { allocatedTo s attempted host.hostId with
    state := .preparing, commandId := some ⟨w.nextUuid⟩, prepareDeadlineAt := some (w.now + prepareMillis) }) rfl _ hw

/-- The socket refuses the prepare: the host is released. -/
theorem faulty_prepareOn_refused {host : HostRecord} {w : World} (hd : w.deliverable host.hostId = false)
    (attempted : List HostId) (i : Nat) :
    Prog.runFaulty machine F (prepareOn s attempted host) i w = match F i with
      | .answered => ⟨some none, i + 1, w.release host.hostId s.id⟩
      | .rejected => ⟨none, i + 1, w⟩
      | .lost => ⟨none, i + 1, w.release host.hostId s.id⟩ := by
  unfold prepareOn
  rw [Prog.runFaulty_invoke_bind]
  dsimp only
  rw [Prog.runFaulty_invoke_bind]
  have hc : machine.call (.send (some host.hostId) (prepareCommand s host ((machine.call .dateNow w).1 + prepareMillis)))
      (machine.call .dateNow w).2 = _ := call_send_none hd _
  rw [hc, if_pos (by simp)]
  cases h : F i with
  | answered => exact Prog.runFaulty_send_bind_answered machine h _ _ _
  | rejected => exact Prog.runFaulty_send_bind_rejected machine h _ _ _
  | lost => exact Prog.runFaulty_send_bind_lost machine h _ _ _

/-- However the loop ends, the record stays; it returns a session exactly where some candidate gets the prepare. -/
def LeavesRecord (id : SessionId) (good : Prop) (o : Outcome (Option Session) World) : Prop :=
  Leaked id o.world ∧ ((∃ a, o.result = some (some a)) ↔ good)

theorem leaves_throw {id : SessionId} {good : Prop} (hg : ¬good) {n : Nat} {w : World} (hw : Leaked id w) :
    LeavesRecord id good ⟨none, n, w⟩ := ⟨hw, ⟨by simp, fun h => absurd h hg⟩⟩

/-- A candidate that was claimed, and the rest of the loop where it refuses the prepare. -/
theorem leaves_prepareOn {host : HostRecord} {w : World} {r : {r : HostRecord // r.hostId = host.hostId}} {i : Nat}
    (hr : w.claimable host.hostId s.gameId = some r) (hc : w.claims s.gameId = claims) (ht : w.deliverable = takes)
    (hp : F i = .answered) (attempted : List HostId) (hosts : List HostRecord)
    (rest : ∀ w', w'.claims s.gameId = claims → w'.deliverable = takes → Leaked s.id w' →
      LeavesRecord s.id (Delivered claims takes F (i + 2) (hosts.map (·.hostId)))
        (Prog.runFaulty machine F (claimFirst s attempted hosts) (i + 2) w')) :
    LeavesRecord s.id (Delivered claims takes F i ((host :: hosts).map (·.hostId)))
      (Prog.runFaulty machine F (prepareOn s attempted host >>= fun a => match a with
        | some allocated => return some allocated
        | none => claimFirst s attempted hosts) (i + 1)
        (w.reserve host.hostId r (allocatedTo s attempted host.hostId))) := by
  have hclaims : claims host.hostId = true := by rw [← hc, World.claims, hr]; rfl
  have hl : Leaked s.id (w.reserve host.hostId r (allocatedTo s attempted host.hostId)) :=
    leaked_reserve (s := allocatedTo s attempted host.hostId) rfl
  have hl' : Leaked s.id (w.attempt host.hostId r (allocatedTo s attempted host.hostId)) :=
    leaked_attempt (s := allocatedTo s attempted host.hostId) rfl
  rw [List.map_cons, delivered_cons, if_pos hclaims, Prog.runFaulty_bind]
  by_cases htk : takes host.hostId = true
  · rw [if_pos htk, answered_succ]
    have hd : (w.reserve host.hostId r (allocatedTo s attempted host.hostId)).deliverable host.hostId = true := by
      rw [← htk, ← ht]; rfl
    obtain ⟨hleak, ⟨⟨a, ha⟩, hg⟩ | ⟨hn, hg⟩⟩ := faulty_prepareOn_taken (F := F) hd hl attempted (i + 1)
    · rw [ha]; exact ⟨hleak, ⟨fun _ => ⟨hp, hg⟩, fun _ => ⟨a, rfl⟩⟩⟩
    · rw [hn]; exact leaves_throw (fun h => hg h.2) hleak
  · rw [if_neg htk, answered_succ, answered_one]
    have hd : (w.reserve host.hostId r (allocatedTo s attempted host.hostId)).deliverable host.hostId = false := by
      rw [Bool.not_eq_true] at htk; rw [← htk, ← ht]; rfl
    rw [faulty_prepareOn_refused hd attempted (i + 1)]
    cases h : F (i + 1) with
    | answered =>
      have hw := rest (w.attempt host.hostId r (allocatedTo s attempted host.hostId))
        (by rw [← hc]; funext k; exact claims_attempt w hr _ _ _) (by rw [← ht]; exact deliverable_attempt w _) hl'
      exact ⟨hw.1, by rw [show (F i = .answered ∧ Fate.answered = .answered) = True by simp [hp], true_and]; exact hw.2⟩
    | rejected => exact leaves_throw (by simp) hl
    | lost => exact leaves_throw (by simp) hl'

/-- **The loop after a claim took effect.** -/
theorem leaves_claimFirst : ∀ (hosts : List HostRecord) (attempted : List HostId) (i : Nat) (w : World),
    w.claims s.gameId = claims → w.deliverable = takes → Leaked s.id w →
    LeavesRecord s.id (Delivered claims takes F i (hosts.map (·.hostId)))
      (Prog.runFaulty machine F (claimFirst s attempted hosts) i w)
  | [], attempted, i, w, _, _, hw => by
    have he : Prog.runFaulty machine F (claimFirst s attempted []) i w = ⟨some none, i, w⟩ := rfl
    rw [he]
    exact ⟨hw, ⟨by simp, fun h => absurd h not_delivered_nil⟩⟩
  | host :: hosts, attempted, i, w, hc, ht, hw => by
    unfold claimFirst
    dsimp only
    cases hr : w.claimable host.hostId s.gameId with
    | none =>
      have hclaims : ¬claims host.hostId = true := by rw [← hc, World.claims, hr]; simp
      have he := exec_claim_refused (sadd attempted host.hostId) hr
      have hstill := congrArg Prod.snd he
      rw [List.map_cons, delivered_cons, if_neg hclaims, answered_one,
        Prog.runFaulty_send_bind_still machine hstill]
      split
      · rename_i hp
        rw [he, if_pos (by simp)]
        obtain ⟨h₁, h₂⟩ := leaves_claimFirst hosts (sadd attempted host.hostId) (i + 1) w hc ht hw
        exact ⟨h₁, by simpa [hp] using h₂⟩
      · rename_i hp
        exact leaves_throw (fun h => hp h.1) hw
    | some r =>
      have he := exec_claim_granted (sadd attempted host.hostId) hr
      have hnot : F i ≠ .answered → ¬Delivered claims takes F i ((host :: hosts).map (·.hostId)) := by
        rintro hp ⟨pre, h, post, -, -, -, -, ha⟩
        exact hp (ha 0 (by omega))
      cases hp : F i with
      | rejected =>
        rw [Prog.runFaulty_send_bind_rejected machine hp]
        exact leaves_throw (hnot (by simp [hp])) hw
      | lost =>
        rw [Prog.runFaulty_send_bind_lost machine hp, he]
        exact leaves_throw (hnot (by simp [hp]))
          (leaked_reserve (s := allocatedTo s (sadd attempted host.hostId) host.hostId) rfl)
      | answered =>
        rw [Prog.runFaulty_send_bind_answered machine hp, he, if_neg (by simp)]
        exact leaves_prepareOn hr hc ht hp _ hosts fun w' hc' ht' hw' => leaves_claimFirst hosts _ (i + 2) w' hc' ht' hw'

/-- How a loop over `hosts` ends that starts with command `i` after `n` lookups, no claim of the session having taken
effect: a candidate gets the prepare, none can be claimed, a command fails before a claim takes effect, or the record of
a claim that took effect is left. -/
inductive Tried (claims takes : HostId → Bool) (F : Nat → Fate) (id : SessionId) (w : World) (i n : Nat)
    (hosts : List HostId) (o : Outcome (Option Session) World) : Prop
  | delivered (a : Session) (hr : o.result = some (some a)) (ha : Answered F i n)
      (hd : Delivered claims takes F (i + n) hosts)
  | unavailable (hc : ∀ h ∈ hosts, claims h = false) (ha : Answered F i (n + hosts.length))
      (ho : o = ⟨some none, i + (n + hosts.length), w⟩)
  | stopped (f : Nat) (hf : f < n + hosts.length) (hq : f ≤ n + hosts.findIdx claims) (ha : Answered F i f)
      (hp : F (i + f) ≠ .answered) (hx : f = n + hosts.findIdx claims → F (i + f) = .rejected)
      (ho : o = ⟨none, i + f + 1, w⟩)
  | leaked (hr : ∀ a, o.result ≠ some (some a)) (hl : Leaked id o.world) (hq : hosts.findIdx claims < hosts.length)
      (ha : Answered F i (n + hosts.findIdx claims)) (hp : F (i + (n + hosts.findIdx claims)) ≠ .rejected)
      (hd : ¬Delivered claims takes F (i + n) hosts)

section tried
variable {id : SessionId} {w : World} {i n : Nat} {hosts : List HostId} {o : Outcome (Option Session) World}

/-- One more lookup in front of the loop. -/
theorem Tried.lookup (hp : F i = .answered) (h : Tried claims takes F id w (i + 1) n hosts o) :
    Tried claims takes F id w i (n + 1) hosts o := by
  have ha : ∀ {m}, Answered F (i + 1) m → Answered F i (m + 1) := fun h => answered_succ.2 ⟨hp, h⟩
  cases h with
  | delivered a hr h hd => exact .delivered a hr (ha h) (by rwa [show i + (n + 1) = i + 1 + n by omega])
  | unavailable hc h ho =>
    refine .unavailable hc (by rw [show n + 1 + hosts.length = n + hosts.length + 1 by omega]; exact ha h) ?_
    rw [ho, show i + 1 + (n + hosts.length) = i + (n + 1 + hosts.length) by omega]
  | stopped f hf hq h hp' hx ho =>
    refine .stopped (f + 1) (by omega) (by omega) (ha h) (by rwa [show i + (f + 1) = i + 1 + f by omega]) (fun he => ?_) ?_
    · rw [show i + (f + 1) = i + 1 + f by omega]; exact hx (by omega)
    · rw [ho, show i + 1 + f + 1 = i + (f + 1) + 1 by omega]
  | leaked hr hl hq h hp' hd =>
    refine .leaked hr hl hq ?_ ?_ (by rwa [show i + (n + 1) = i + 1 + n by omega])
    · rw [show n + 1 + hosts.findIdx claims = n + hosts.findIdx claims + 1 by omega]; exact ha h
    · rwa [show i + (n + 1 + hosts.findIdx claims) = i + 1 + (n + hosts.findIdx claims) by omega]

/-- A lookup that fails. -/
theorem Tried.lookup_failed (hp : F i ≠ .answered) : Tried claims takes F id w i (n + 1) hosts ⟨none, i + 1, w⟩ :=
  .stopped 0 (by omega) (by omega) answered_zero (by simpa using hp) (fun h => by omega) rfl

/-- A candidate that cannot be claimed costs one command, as a lookup does. -/
theorem Tried.cons {h : HostId} (hc : claims h = false) (ht : Tried claims takes F id w i 1 hosts o) :
    Tried claims takes F id w i 0 (h :: hosts) o := by
  have hi : (h :: hosts).findIdx claims = hosts.findIdx claims + 1 := by simp [List.findIdx_cons, hc]
  have hl : (h :: hosts).length = hosts.length + 1 := rfl
  have hd : Delivered claims takes F (i + 0) (h :: hosts) ↔ Answered F i 1 ∧ Delivered claims takes F (i + 1) hosts := by
    rw [Nat.add_zero, delivered_cons, if_neg (by simp [hc])]
  cases ht with
  | delivered a hr ha h' => exact .delivered a hr answered_zero (hd.2 ⟨ha, h'⟩)
  | unavailable hc' ha ho =>
    refine .unavailable (fun x hx => ?_) (by rwa [hl, show 0 + (hosts.length + 1) = 1 + hosts.length by omega])
      (by rw [ho, hl, show 0 + (hosts.length + 1) = 1 + hosts.length by omega])
    rcases List.mem_cons.1 hx with rfl | hx
    · exact hc
    · exact hc' x hx
  | stopped f hf hq ha hp hx ho => exact .stopped f (by omega) (by omega) ha hp (fun he => hx (by omega)) ho
  | leaked hr hl' hq ha hp h' =>
    refine .leaked hr hl' (by omega) ?_ ?_ fun hc => h' (hd.1 hc).2
    · rwa [hi, show 0 + (hosts.findIdx claims + 1) = 1 + hosts.findIdx claims by omega]
    · rwa [hi, show 0 + (hosts.findIdx claims + 1) = 1 + hosts.findIdx claims by omega]

end tried

/-- **The loop while no claim took effect.** -/
theorem tried_claimFirst : ∀ (hosts : List HostRecord) (attempted : List HostId) (i : Nat) (w : World),
    w.claims s.gameId = claims → w.deliverable = takes →
    Tried claims takes F s.id w i 0 (hosts.map (·.hostId)) (Prog.runFaulty machine F (claimFirst s attempted hosts) i w)
  | [], _, _, _, _, _ => .unavailable (by simp) answered_zero rfl
  | host :: hosts, attempted, i, w, hc, ht => by
    unfold claimFirst
    dsimp only
    cases hr : w.claimable host.hostId s.gameId with
    | none =>
      have hclaims : claims host.hostId = false := by rw [← hc, World.claims, hr]; rfl
      have he := exec_claim_refused (sadd attempted host.hostId) hr
      have hstill := congrArg Prod.snd he
      rw [Prog.runFaulty_send_bind_still machine hstill]
      refine .cons hclaims ?_
      split
      · rename_i hp
        rw [he, if_pos (by simp)]
        exact (tried_claimFirst hosts _ (i + 1) w hc ht).lookup hp
      · rename_i hp
        exact .lookup_failed hp
    | some r =>
      have hclaims : claims host.hostId = true := by rw [← hc, World.claims, hr]; rfl
      have hi : (host.hostId :: hosts.map (·.hostId)).findIdx claims = 0 := by simp [List.findIdx_cons, hclaims]
      have he := exec_claim_granted (sadd attempted host.hostId) hr
      rw [List.map_cons]
      cases hp : F i with
      | rejected =>
        rw [Prog.runFaulty_send_bind_rejected machine hp]
        exact .stopped 0 (by simp) (by omega) answered_zero (by simp [hp]) (fun _ => by simpa using hp) rfl
      | lost =>
        rw [Prog.runFaulty_send_bind_lost machine hp, he]
        refine .leaked (by simp) (leaked_reserve (s := allocatedTo s (sadd attempted host.hostId) host.hostId) rfl)
          (by rw [hi]; simp) (by rw [hi]; exact answered_zero) (by rw [hi]; simp [hp]) ?_
        rintro ⟨pre, h, post, -, -, -, -, ha⟩
        have := ha 0 (by omega)
        rw [show F (i + 0 + 0) = .lost from hp] at this
        cases this
      | answered =>
        rw [Prog.runFaulty_send_bind_answered machine hp, he, if_neg (by simp)]
        obtain ⟨hl, hd⟩ := leaves_prepareOn hr hc ht hp (sadd attempted host.hostId) hosts
          fun w' hc' ht' hw' => leaves_claimFirst hosts _ (i + 2) w' hc' ht' hw'
        by_cases hdel : Delivered claims takes F i ((host :: hosts).map (·.hostId))
        · obtain ⟨a, ha⟩ := hd.2 hdel
          exact .delivered a ha answered_zero hdel
        · exact .leaked (fun a ha => hdel (hd.1 ⟨a, ha⟩)) hl (by rw [hi]; simp) (by rw [hi]; exact answered_zero)
            (by rw [hi]; simp [hp]) hdel

end loop

/-! ## The route -/

/-- The candidates of a new session, nearest first. -/
def candidates (w : World) (s : Session) : List HostId :=
  (rankCandidates s ((w.idle s.gameId).map w.host) w.connected).map (·.hostId)

/-- The commands before the first claim: the player lock, the idle set and, where it lists a host, the records. -/
def lookups (w : World) (s : Session) : Nat := if (w.idle s.gameId).isEmpty then 2 else 3

/-- **When a failed creation of session `s` leaves nothing of it**: the player's lock is held by another session; the
lock command is rejected; a candidate gets the prepare, so that the creation does not fail; no candidate can be claimed
and the lock is deleted again; or a command fails before a claim takes effect and the lock is deleted again. -/
inductive Harmless (w : World) (s : Session) (F : Nat → Fate) : Prop
  | locked (h : w.player s.playerId ≠ none)
  | refused (h : F 0 = .rejected)
  | delivered (ha : Answered F 0 (lookups w s))
      (hd : Delivered (w.claims s.gameId) w.deliverable F (lookups w s) (candidates w s))
  | unavailable (hc : ∀ h ∈ candidates w s, w.claims s.gameId h = false)
      (ha : Answered F 0 (lookups w s + (candidates w s).length))
      (hu : CleansUp F (lookups w s + (candidates w s).length))
  | stopped (f : Nat) (hf : f < lookups w s + (candidates w s).length)
      (hq : f ≤ lookups w s + (candidates w s).findIdx (w.claims s.gameId)) (ha : Answered F 0 f)
      (hp : F f ≠ .answered) (hx : f = lookups w s + (candidates w s).findIdx (w.claims s.gameId) → F f = .rejected)
      (hu : Unlocks F (f + 1))

/-- **Nothing of the session is live**: no lease and no player lock holds its id, and no record of it that is not
terminal is stored. -/
structure Gone (id : SessionId) (w : World) : Prop where
  lease : ∀ h, w.lease h ≠ some id
  player : ∀ p, w.player p ≠ some id
  session : ∀ s, w.session id = some s → s.state.terminal = true

/-- The id is nowhere in the store. -/
structure New (id : SessionId) (w : World) : Prop where
  lease : ∀ h, w.lease h ≠ some id
  player : ∀ p, w.player p ≠ some id
  session : w.session id = none

theorem New.gone {id : SessionId} {w : World} (h : New id w) : Gone id w :=
  ⟨h.lease, h.player, fun s hs => by rw [h.session] at hs; cases hs⟩

theorem Leaked.not_gone {id : SessionId} {w : World} (h : Leaked id w) : ¬Gone id w := by
  intro hg
  obtain ⟨s, hs, ht⟩ := h
  rw [hg.session s hs] at ht; cases ht

section route
variable {F : Nat → Fate} {s : Session} {w : World} {i : Nat}

theorem tried_allocateSession (ha : s.attemptedHostIds = []) :
    Tried (w.claims s.gameId) w.deliverable F s.id w i (lookups w s - 1) (candidates w s)
      (Prog.runFaulty machine F (allocateSession s) i w) := by
  unfold allocateSession
  rw [Prog.runFaulty_send_bind_still machine (by rfl)]
  have hids : (w.idle s.gameId).filter (· ∉ s.attemptedHostIds) = w.idle s.gameId := by simp [ha]
  have hex : (machine.exec (.idleHosts s.gameId) w).1 = w.idle s.gameId := rfl
  by_cases he : (w.idle s.gameId).isEmpty = true
  · have hl : lookups w s - 1 = 0 + 1 := by simp [lookups, he]
    have hc : candidates w s = [] := by
      rw [List.isEmpty_iff] at he; simp [candidates, rankCandidates, he]
    rw [hl, hc]
    split
    · rename_i hp
      dsimp only
      rw [hex, hids, if_pos he]
      exact Tried.lookup hp (.unavailable (by simp) answered_zero rfl)
    · rename_i hp
      exact .lookup_failed hp
  · have hl : lookups w s - 1 = 0 + 1 + 1 := by simp [lookups, he]
    rw [hl]
    split
    · rename_i hp
      dsimp only
      rw [hex, hids, if_neg he, Prog.runFaulty_send_bind_still machine (by rfl)]
      refine .lookup hp ?_
      split
      · rename_i hp'
        rw [Prog.runFaulty_invoke_bind]
        exact (tried_claimFirst _ s.attemptedHostIds (i + 1 + 1) w rfl rfl).lookup hp'
      · rename_i hp'
        exact .lookup_failed hp'
    · rename_i hp
      exact .lookup_failed hp

theorem faulty_releasePlayer (hp : w.player s.playerId = some s.id) :
    Prog.runFaulty machine F (releasePlayer s) i w = match F i, F (i + 1) with
      | .answered, .answered => ⟨some (), i + 2, w.unlockPlayer s.playerId⟩
      | .answered, .lost => ⟨none, i + 2, w.unlockPlayer s.playerId⟩
      | .answered, .rejected => ⟨none, i + 2, w⟩
      | _, _ => ⟨none, i + 1, w⟩ := by
  unfold releasePlayer
  rw [Prog.runFaulty_send_bind_still machine (by rfl)]
  split
  · rename_i h
    rw [show (machine.exec (.getPlayer s.playerId) w).1 = some s.id from hp, if_pos rfl, h]
    cases h' : F (i + 1) <;> simp [Prog.send, Prog.runFaulty, h'] <;> rfl
  · rename_i h
    split <;> first | rfl | exact absurd ‹F i = _› h

/-- The lock of another session is not deleted. -/
theorem faulty_releasePlayer_other (hp : w.player s.playerId ≠ some s.id) :
    (Prog.runFaulty machine F (releasePlayer s) i w).world = w := by
  unfold releasePlayer
  rw [Prog.runFaulty_send_bind_still machine (by rfl)]
  split
  · rw [show (machine.exec (.getPlayer s.playerId) w).1 = w.player s.playerId from rfl, if_neg hp]
    rfl
  · rfl

/-- What deleting the lock leaves: it is deleted exactly where `good` holds. -/
def Released (s : Session) (good : Prop) (w w' : World) : Prop := w' = w.unlockPlayer s.playerId ∧ good ∨ w' = w ∧ ¬good

theorem released_releasePlayer (hp : w.player s.playerId = some s.id) :
    Released s (Unlocks F i) w (Prog.runFaulty machine F (releasePlayer s) i w).world := by
  rw [faulty_releasePlayer hp]
  unfold Unlocks
  cases F i <;> cases F (i + 1) <;> first | exact .inl ⟨rfl, by simp⟩ | exact .inr ⟨rfl, by simp⟩

/-- Neither the lease nor the record of a session depends on the player lock. -/
theorem releasePlayer_frame : (Prog.runFaulty machine F (releasePlayer s) i w).world = w ∨
    (Prog.runFaulty machine F (releasePlayer s) i w).world = w.unlockPlayer s.playerId := by
  by_cases hp : w.player s.playerId = some s.id
  · rcases released_releasePlayer (F := F) (i := i) hp with ⟨h, -⟩ | ⟨h, -⟩
    · exact .inr h
    · exact .inl h
  · exact .inl (faulty_releasePlayer_other hp)

theorem faulty_creationFailed : ∃ n, Prog.runFaulty machine F (creationFailed s) i w =
    ⟨some { status := 503, error := some "Session service unavailable" }, n,
      (Prog.runFaulty machine F (releasePlayer s) i w).world⟩ := by
  unfold creationFailed
  rw [Prog.runFaulty_bind, Prog.runFaulty_tryCatch]
  cases h : (Prog.runFaulty machine F (releasePlayer s) i w).result with
  | some a => exact ⟨_, by simp only [h]; rfl⟩
  | none => exact ⟨_, rfl⟩

/-- What the route does with the outcome of the allocation. -/
def answerTo (F : Nat → Fate) (s : Session) : Outcome (Option Session) World → Outcome Response World
  | ⟨some (some a), n, w⟩ => ⟨some { status := 202, session := some a }, n, w⟩
  | ⟨some none, n, w⟩ => Prog.runFaulty machine F ((hostsUnavailable s).tryCatch (creationFailed s)) n w
  | ⟨none, n, w⟩ => Prog.runFaulty machine F (creationFailed s) n w

theorem faulty_unavailable (hp : w.player s.playerId = some s.id) : ∃ r n w',
    Prog.runFaulty machine F ((hostsUnavailable s).tryCatch (creationFailed s)) i w = ⟨some r, n, w'⟩ ∧ r.status ≠ 202 ∧
      Released s (CleansUp F i) w w' := by
  have hun : (w.unlockPlayer s.playerId).player s.playerId ≠ some s.id := by rw [player_unlockPlayer, if_pos rfl]; nofun
  rw [Prog.runFaulty_tryCatch, hostsUnavailable, Prog.runFaulty_bind, faulty_releasePlayer hp]
  cases h : F i with
  | answered =>
    cases h' : F (i + 1) with
    | answered => exact ⟨_, _, _, rfl, by simp, .inl ⟨rfl, .inl ⟨h, by simp [h']⟩⟩⟩
    | lost =>
      obtain ⟨n, hn⟩ := faulty_creationFailed (F := F) (s := s) (i := i + 2) (w := w.unlockPlayer s.playerId)
      exact ⟨_, _, _, hn, by simp, .inl ⟨faulty_releasePlayer_other hun, .inl ⟨h, by simp [h']⟩⟩⟩
    | rejected =>
      obtain ⟨n, hn⟩ := faulty_creationFailed (F := F) (s := s) (i := i + 2) (w := w)
      refine ⟨_, _, _, hn, by simp, ?_⟩
      rcases released_releasePlayer (F := F) (i := i + 2) hp with ⟨hw, hg⟩ | ⟨hw, hg⟩
      · exact .inl ⟨hw, .inr (.inr ⟨h, h', hg⟩)⟩
      · refine .inr ⟨hw, ?_⟩
        rintro (hu | hu | hu)
        · exact hu.2 h'
        · exact hu.1 h
        · exact hg hu.2.2
  | rejected | lost =>
    obtain ⟨n, hn⟩ := faulty_creationFailed (F := F) (s := s) (i := i + 1) (w := w)
    refine ⟨_, _, _, hn, by simp, ?_⟩
    have hne : F i ≠ .answered := by simp [h]
    rcases released_releasePlayer (F := F) (i := i + 1) hp with ⟨hw, hg⟩ | ⟨hw, hg⟩
    · exact .inl ⟨hw, .inr (.inl ⟨hne, hg⟩)⟩
    · refine .inr ⟨hw, ?_⟩
      rintro (hu | hu | hu)
      · exact hne hu.1
      · exact hg hu.2
      · exact hne hu.1

/-- A route that found the lock taken, or could not ask for it, leaves the store as it is. -/
theorem createSession_still (hp : w.player s.playerId ≠ some s.id) (h : w.player s.playerId ≠ none ∨ F 0 = .rejected) :
    (Prog.runFaulty machine F ((createSession s).tryCatch (creationFailed s)) 0 w).world = w := by
  have hfail : ∀ i, (Prog.runFaulty machine F (creationFailed s) i w).world = w := fun i => by
    obtain ⟨n, hn⟩ := faulty_creationFailed (F := F) (s := s) (i := i) (w := w)
    rw [hn]; exact faulty_releasePlayer_other hp
  rw [Prog.runFaulty_tryCatch, createSession]
  cases h₀ : F 0 with
  | rejected =>
    rw [Prog.runFaulty_send_bind_rejected machine h₀]
    exact hfail _
  | answered | lost =>
    have hne : w.player s.playerId ≠ none := h.resolve_right (by simp [h₀])
    obtain ⟨id', hid⟩ := Option.ne_none_iff_exists'.1 hne
    have hstill : (machine.exec (.lockPlayer s.playerId s.id (sessionTtl s.durationSeconds)) w).2 = w :=
      lockPlayer_of_some w hid _ _
    have hfalse : (machine.exec (.lockPlayer s.playerId s.id (sessionTtl s.durationSeconds)) w).1 = false := by
      change (w.player s.playerId).isNone = false
      rw [hid]; rfl
    rw [Prog.runFaulty_send_bind_still machine hstill, hfalse]
    simp only [Bool.not_false, if_true]
    rw [Prog.runFaulty_send_bind_still machine (by rfl)]
    by_cases h₁ : F (0 + 1) = .answered
    · simp [h₀, h₁, hfail, Prog.runFaulty]
    · simp [h₀, h₁, hfail]

/-- **The route that finds the lock free** answers what the allocation, on the locked store, ends in. -/
theorem createSession_tried (ha : s.attemptedHostIds = []) (hp : w.player s.playerId = none) (h₀ : F 0 ≠ .rejected) :
    ∃ o, Tried (w.claims s.gameId) w.deliverable F s.id (w.lockPlayer s.playerId s.id (sessionTtl s.durationSeconds)) 0
        (lookups w s) (candidates w s) o ∧
      Prog.runFaulty machine F ((createSession s).tryCatch (creationFailed s)) 0 w = answerTo F s o := by
  have hl : lookups w s = lookups w s - 1 + 1 := by unfold lookups; split <;> rfl
  rw [Prog.runFaulty_tryCatch, createSession]
  cases h : F 0 with
  | rejected => exact absurd h h₀
  | lost =>
    rw [Prog.runFaulty_send_bind_lost machine h]
    exact ⟨_, by rw [hl]; exact .lookup_failed (by simp [h]), rfl⟩
  | answered =>
    have hex : machine.exec (.lockPlayer s.playerId s.id (sessionTtl s.durationSeconds)) w =
        (true, w.lockPlayer s.playerId s.id (sessionTtl s.durationSeconds)) := by
      change ((w.player s.playerId).isNone, w.lockPlayer s.playerId s.id (sessionTtl s.durationSeconds)) = _
      rw [hp]; rfl
    have htried := tried_allocateSession (F := F) (i := 1)
      (w := w.lockPlayer s.playerId s.id (sessionTtl s.durationSeconds)) ha
    have hsame : (w.lockPlayer s.playerId s.id (sessionTtl s.durationSeconds)).claims s.gameId = w.claims s.gameId ∧
        (w.lockPlayer s.playerId s.id (sessionTtl s.durationSeconds)).deliverable = w.deliverable ∧
        lookups (w.lockPlayer s.playerId s.id (sessionTtl s.durationSeconds)) s = lookups w s ∧
        candidates (w.lockPlayer s.playerId s.id (sessionTtl s.durationSeconds)) s = candidates w s := by
      rw [lockPlayer_of_none w hp]; exact ⟨rfl, rfl, rfl, rfl⟩
    rw [hsame.1, hsame.2.1, hsame.2.2.1, hsame.2.2.2] at htried
    refine ⟨_, by rw [hl]; exact htried.lookup h, ?_⟩
    rw [Prog.runFaulty_send_bind_answered machine h, hex]
    simp only [Bool.not_true, Bool.false_eq_true, if_false]
    rw [Prog.runFaulty_bind]
    obtain ⟨r, n, w'⟩ := Prog.runFaulty machine F (allocateSession s) (0 + 1)
      (w.lockPlayer s.playerId s.id (sessionTtl s.durationSeconds))
    rcases r with _ | _ | a
    · rfl
    · exact (Prog.runFaulty_tryCatch machine F _ _ _ _).symm
    · rfl

theorem leaked_releasePlayer (h : Leaked s.id w) :
    Leaked s.id (Prog.runFaulty machine F (releasePlayer s) i w).world := by
  rcases releasePlayer_frame (F := F) (s := s) (w := w) (i := i) with he | he <;> rw [he] <;> exact h

/-- Once the record is left, no later step of the route removes it, and the answer is an error. -/
theorem leaked_answerTo {o : Outcome (Option Session) World} (hr : ∀ a, o.result ≠ some (some a))
    (hl : Leaked s.id o.world) :
    ∃ r, (answerTo F s o).result = some r ∧ r.status ≠ 202 ∧ Leaked s.id (answerTo F s o).world := by
  have hfailed : ∀ {i w}, Leaked s.id w → ∃ r, (Prog.runFaulty machine F (creationFailed s) i w).result = some r ∧
      r.status ≠ 202 ∧ Leaked s.id (Prog.runFaulty machine F (creationFailed s) i w).world := by
    intro i w h
    obtain ⟨n, hn⟩ := faulty_creationFailed (F := F) (s := s) (i := i) (w := w)
    rw [hn]
    exact ⟨_, rfl, by simp, leaked_releasePlayer h⟩
  obtain ⟨res, n, w'⟩ := o
  rcases res with _ | _ | a
  · exact hfailed hl
  · change ∃ r, (Prog.runFaulty machine F ((hostsUnavailable s).tryCatch (creationFailed s)) n w').result = some r ∧ _ ∧
      Leaked s.id (Prog.runFaulty machine F ((hostsUnavailable s).tryCatch (creationFailed s)) n w').world
    have hleft := leaked_releasePlayer (F := F) (i := n) hl
    rw [Prog.runFaulty_tryCatch, hostsUnavailable, Prog.runFaulty_bind]
    cases h : (Prog.runFaulty machine F (releasePlayer s) n w').result with
    | none => exact hfailed hleft
    | some _ => exact ⟨_, rfl, by simp, hleft⟩
  · exact absurd rfl (hr a)

/-- On a free lock the creation is harmless only in the ways its allocation ended. -/
theorem harmless_cases (hp : w.player s.playerId = none) (h₀ : F 0 ≠ .rejected) (h : Harmless w s F) :
    Answered F 0 (lookups w s) ∧ Delivered (w.claims s.gameId) w.deliverable F (lookups w s) (candidates w s) ∨
    (∀ x ∈ candidates w s, w.claims s.gameId x = false) ∧ Answered F 0 (lookups w s + (candidates w s).length) ∧
      CleansUp F (lookups w s + (candidates w s).length) ∨
    ∃ f, f ≤ lookups w s + (candidates w s).findIdx (w.claims s.gameId) ∧ f < lookups w s + (candidates w s).length ∧
      Answered F 0 f ∧ F f ≠ .answered ∧
      (f = lookups w s + (candidates w s).findIdx (w.claims s.gameId) → F f = .rejected) ∧ Unlocks F (f + 1) := by
  cases h with
  | locked h => exact absurd hp h
  | refused h => exact absurd h h₀
  | delivered ha hd => exact .inl ⟨ha, hd⟩
  | unavailable hc ha hu => exact .inr (.inl ⟨hc, ha, hu⟩)
  | stopped f hf hq ha hp hx hu => exact .inr (.inr ⟨f, hq, hf, ha, hp, hx, hu⟩)

end route

/-- **Once the lock is released nothing is left of a session that only took the lock**, and only then. -/
theorem Released.gone_iff {s : Session} {w w' : World} {seconds : Nat} {good : Prop} (hnew : New s.id w)
    (hp : w.player s.playerId = none) (h : Released s good (w.lockPlayer s.playerId s.id seconds) w') :
    Gone s.id w' ↔ good := by
  have hlock : (w.lockPlayer s.playerId s.id seconds).player s.playerId = some s.id := by
    rw [player_lockPlayer w hp, if_pos rfl]
  rcases h with ⟨rfl, hg⟩ | ⟨rfl, hg⟩
  · refine ⟨fun _ => hg, fun _ => ?_⟩
    rw [lockPlayer_of_none w hp]
    refine ⟨hnew.lease, fun p => ?_, hnew.gone.session⟩
    rw [← lockPlayer_of_none w hp, player_unlockPlayer, player_lockPlayer w hp]
    split
    · nofun
    · exact hnew.player p
  · exact ⟨fun h => absurd hlock (h.player _), fun h => absurd h hg⟩

/-- **Creation is atomic on failure exactly where it is harmless**: whatever the store, the sockets and the fate of every
command, an answer other than 202 leaves nothing of the new session live if and only if `Harmless` holds. -/
theorem postSessions_gone_iff (w : World) (F : Nat → Fate) (id : SessionId) (roomId : RoomId) (playerId : PlayerId)
    (request : SessionRequest) (hnew : New id w) :
    (∀ r, (Prog.runFaulty machine F (postSessions id roomId playerId request) 0 w).result = some r → r.status ≠ 202 →
      Gone id (Prog.runFaulty machine F (postSessions id roomId playerId request) 0 w).world) ↔
    Harmless w (newSession id roomId w.now playerId request) F := by
  obtain ⟨s, hs⟩ : ∃ s, s = newSession id roomId w.now playerId request := ⟨_, rfl⟩
  have hid : s.id = id := by rw [hs]; rfl
  have hpl : s.playerId = playerId := by rw [hs]; rfl
  have hat : s.attemptedHostIds = [] := by rw [hs]; rfl
  have heq : Prog.runFaulty machine F (postSessions id roomId playerId request) 0 w =
      Prog.runFaulty machine F ((createSession s).tryCatch (creationFailed s)) 0 w := by rw [hs]; rfl
  rw [heq, ← hs]
  subst hid
  by_cases hfree : w.player s.playerId = none ∧ F 0 ≠ .rejected
  swap
  · -- the lock was not taken
    have hor : w.player s.playerId ≠ none ∨ F 0 = .rejected := by
      by_cases h : w.player s.playerId = none
      · exact .inr (by by_contra hc; exact hfree ⟨h, hc⟩)
      · exact .inl h
    rw [createSession_still (hnew.player _) hor]
    exact ⟨fun _ => hor.elim .locked .refused, fun _ _ _ _ => hnew.gone⟩
  obtain ⟨hp, h₀⟩ := hfree
  obtain ⟨o, ht, ho⟩ := createSession_tried (F := F) hat hp h₀
  rw [ho]
  generalize hw₁ : w.lockPlayer s.playerId s.id (sessionTtl s.durationSeconds) = w₁ at ht
  have hlock : w₁.player s.playerId = some s.id := by rw [← hw₁, player_lockPlayer w hp, if_pos rfl]
  have hrel : ∀ {good : Prop} {w'}, Released s good w₁ w' → (Gone s.id w' ↔ good) := by
    rw [← hw₁]
    exact fun hr => hr.gone_iff hnew hp
  have hlook : 0 < lookups w s := by unfold lookups; split <;> decide
  cases ht with
  | delivered a hr ha hd =>
    rw [Nat.zero_add] at hd
    refine ⟨fun _ => .delivered ha hd, fun _ r hr' hst => ?_⟩
    obtain ⟨res, n, w'⟩ := o
    subst hr
    cases hr'
    exact absurd rfl hst
  | unavailable hc ha ho =>
    subst ho
    rw [Nat.zero_add]
    obtain ⟨r, n, w', hrun, hst, hw'⟩ := faulty_unavailable (F := F)
      (i := lookups w s + (candidates w s).length) hlock
    change (∀ r, (Prog.runFaulty machine F _ _ w₁).result = _ → _ → Gone _ (Prog.runFaulty machine F _ _ w₁).world) ↔ _
    rw [hrun]
    refine ⟨fun h => .unavailable hc ha ((hrel hw').1 (h r rfl hst)), fun h _ _ _ => (hrel hw').2 ?_⟩
    rcases harmless_cases hp h₀ h with ⟨-, hd⟩ | ⟨-, -, hu⟩ | ⟨f, -, hf, -, hpf, -⟩
    · have := List.findIdx_lt_length.1 hd.reaches.1
      obtain ⟨x, hx, hcx⟩ := this
      rw [hc x hx] at hcx; cases hcx
    · exact hu
    · exact absurd (by simpa using ha f hf) hpf
  | stopped f hf hq ha hpf hx ho =>
    subst ho
    simp only [Nat.zero_add] at hpf hx ⊢
    obtain ⟨n, hrun⟩ := faulty_creationFailed (F := F) (s := s) (i := f + 1) (w := w₁)
    have hw' := released_releasePlayer (F := F) (i := f + 1) hlock
    change (∀ r, (Prog.runFaulty machine F _ _ w₁).result = _ → _ → Gone _ (Prog.runFaulty machine F _ _ w₁).world) ↔ _
    rw [hrun]
    refine ⟨fun h => .stopped f hf hq ha hpf hx ((hrel hw').1 (h _ rfl (by simp))), fun h _ _ _ => (hrel hw').2 ?_⟩
    rcases harmless_cases hp h₀ h with ⟨ha', hd⟩ | ⟨-, ha', -⟩ | ⟨f', -, -, ha', hpf', -, hu⟩
    · have := answered_add.2 ⟨ha', by rw [Nat.zero_add]; exact hd.reaches.2⟩
      exact absurd (by simpa using this f (by omega)) hpf
    · exact absurd (by simpa using ha' f hf) hpf
    · rwa [first_fault_unique ha hpf ha' hpf']
  | leaked hr hl hq ha hpf hd =>
    rw [Nat.zero_add] at hpf hd
    obtain ⟨r, hr', hst, hleak⟩ := leaked_answerTo (F := F) hr hl
    refine ⟨fun h => absurd (h r hr' hst) hleak.not_gone, fun h => absurd h fun h => ?_⟩
    rcases harmless_cases hp h₀ h with ⟨-, hd'⟩ | ⟨hc, -, -⟩ | ⟨f', hq', -, ha', hpf', hx', -⟩
    · exact hd hd'
    · obtain ⟨x, hx, hcx⟩ := List.findIdx_lt_length.1 hq
      rw [hc x hx] at hcx; cases hcx
    · rcases Nat.lt_or_ge f' (lookups w s + (candidates w s).findIdx (w.claims s.gameId)) with hlt | hge
      · exact hpf' (by simpa using ha f' hlt)
      · obtain rfl : f' = lookups w s + (candidates w s).findIdx (w.claims s.gameId) := by omega
        exact hpf (hx' rfl)

/-- One host, connected and idle. -/
def sampleMarket : World := World.after ⟨60⟩ [.connect ⟨0⟩, .request (.presence (samplePresence ⟨0⟩ .idle))]

theorem new_sampleMarket : New ⟨100⟩ sampleMarket :=
  ⟨fun h => by rw [show sampleMarket.lease h = none from rfl]; nofun,
    fun p => by rw [show sampleMarket.player p = none from rfl]; nofun, rfl⟩

/-- The idle set cannot be read: the lock is deleted again. -/
theorem postSessions_gone_unread :
    let o := Prog.runFaulty machine (fun i => if i = 1 then .rejected else .answered)
      (postSessions ⟨100⟩ ⟨100⟩ ⟨"player"⟩ sampleRequest) 0 sampleMarket
    o.result.map Response.status = some 503 ∧ Gone ⟨100⟩ o.world := by
  intro o
  have hst : o.result.map Response.status = some 503 := by decide +kernel
  obtain ⟨r, hr, hs⟩ := Option.map_eq_some_iff.1 hst
  refine ⟨hst, (postSessions_gone_iff sampleMarket _ ⟨100⟩ ⟨100⟩ ⟨"player"⟩ sampleRequest new_sampleMarket).2 ?_ r hr (by omega)⟩
  exact .stopped 1 (by decide +kernel) (by decide +kernel) (fun j hj => by rw [show j = 0 by omega]; rfl) (by decide)
    (fun h => rfl) ⟨rfl, by decide⟩

/-- The one idle host is connected, and more than 64 KiB wait to be sent to it. -/
def congestedMarket : World := sampleMarket.ambient (.congest ⟨0⟩ true)

theorem new_congestedMarket : New ⟨100⟩ congestedMarket :=
  ⟨fun h => by rw [show congestedMarket.lease h = none from rfl]; nofun,
    fun p => by rw [show congestedMarket.player p = none from rfl]; nofun, rfl⟩

/-- Every command is answered, the only candidate refuses the prepare: the answer is 409 and the record stays reserved. -/
theorem not_postSessions_gone : ¬∀ (w : World) (F : Nat → Fate) (id : SessionId) (roomId : RoomId) (playerId : PlayerId)
    (request : SessionRequest), New id w → ∀ r,
    (Prog.runFaulty machine F (postSessions id roomId playerId request) 0 w).result = some r → r.status ≠ 202 →
      Gone id (Prog.runFaulty machine F (postSessions id roomId playerId request) 0 w).world := by
  intro hall
  have hst : (Prog.runFaulty machine (fun _ => .answered) (postSessions ⟨100⟩ ⟨100⟩ ⟨"player"⟩ sampleRequest) 0
      congestedMarket).result.map Response.status = some 409 := by decide +kernel
  have hrec : ((Prog.runFaulty machine (fun _ => .answered) (postSessions ⟨100⟩ ⟨100⟩ ⟨"player"⟩ sampleRequest) 0
      congestedMarket).world.session ⟨100⟩).map Session.state = some .reserved := by decide +kernel
  obtain ⟨r, hr, hs⟩ := Option.map_eq_some_iff.1 hst
  obtain ⟨s, hs', hres⟩ := Option.map_eq_some_iff.1 hrec
  have hg := hall congestedMarket (fun _ => .answered) ⟨100⟩ ⟨100⟩ ⟨"player"⟩ sampleRequest new_congestedMarket r hr (by omega)
  have := hg.session s hs'
  rw [hres] at this
  cases this

end Market
end CloudGaming
