import CloudGaming.Async.Along
import Mathlib.Algebra.Group.Nat.Defs
/-!
# Reconnect — the signaling connections of the page and the tokens they present

A connection presents the page's token, which the server accepts once; its `session-ready` carries the next one.  When a
connection closes the page tries again after a while, with the token it then has.  Events of a connection that is not the
current one are ignored.  Connections and tokens are numbered.
-/
namespace CloudGaming
namespace Client
namespace Reconnect

open Async

/-- How far the server is with a connection: the time is that of the claim of its token. -/
inductive Stage where
  | arriving
  | verified
  | claimed (time : Nat)
  | joined (time next : Nat)
  | refused (time : Option Nat)
  deriving DecidableEq, Repr

def Stage.claimedAt : Stage → Option Nat
  | .arriving | .verified => none
  | .claimed time => some time
  | .joined time _ => some time
  | .refused time => time

/-- Where the `session-ready` of a connection is. -/
inductive Ready where
  | unsent
  | inFlight
  | handled
  | lost
  deriving DecidableEq, Repr

structure Link where
  token : Nat
  generation : Nat
  stage : Stage := .arriving
  ready : Ready := .unsent
  -- the page has had its `close` event
  closed : Bool := false
  deriving DecidableEq, Repr

/-- The connection has closed for the page; what was on its way does not come. -/
def Link.close (l : Link) : Link := { l with closed := true, ready := if l.ready = .inFlight then .lost else l.ready }

/-- A signed token; `source` is the connection that was sent it, `none` where it is the matchmaker's. -/
structure Token where
  expires : Nat
  source : Option Nat
  deriving DecidableEq, Repr

structure Timer where
  generation : Nat
  link : Nat
  due : Nat
  deriving DecidableEq, Repr

/-- `used` are the records of the claims, each with the time it lapses. -/
structure State where
  now : Nat := 0
  tokens : List Token := []
  links : List Link := []
  used : List (Nat × Nat) := []
  currentPairingToken : Option Nat := none
  signalingGeneration : Nat := 0
  ws : Option Nat := none
  reconnectAttempt : Nat := 0
  reconnectTimer : Option Timer := none
  deriving DecidableEq, Repr

inductive Joining where
  | joined
  -- the socket has closed in the meantime, or the room does not take the player
  | failed
  deriving DecidableEq, Repr

/-- `opens` says that `connectToSignalingServer` gets its `WebSocket`. -/
inductive Move where
  | tick (ms : Nat)
  | newSession (expires : Nat) (opens : Bool)
  | verify (i : Nat)
  | claim (i : Nat)
  | join (i : Nat) (outcome : Joining)
  | sessionReady (i : Nat)
  | close (i : Nat)
  | fire (opens : Bool)
  -- the answer of the host is set
  | answered
  deriving DecidableEq, Repr

namespace State

variable (s : State)

def connectToSignalingServer (pairingToken : Option Nat) (opens : Bool) : State :=
  let s := { s with
    currentPairingToken := pairingToken
    reconnectTimer := none
    signalingGeneration := s.signalingGeneration + 1 }
  match pairingToken, opens with
  | some token, true =>
    { s with ws := some s.links.length, links := s.links ++ [{ token, generation := s.signalingGeneration }] }
  | _, _ => s

/-- `generation === signalingGeneration && socket === ws`. -/
def isCurrent (i : Nat) (l : Link) : Bool := l.generation = s.signalingGeneration && s.ws = some i

def set (i : Nat) (l : Link) : State := { s with links := s.links.set i l }

/-- The delay before the next attempt. -/
def delay (reconnectAttempt : Nat) : Nat := min (1000 * 2 ^ (reconnectAttempt - 1)) 15000

def onclose (i : Nat) (l : Link) : State :=
  let t := s.set i l.close
  if s.isCurrent i l then
    { t with
      reconnectAttempt := s.reconnectAttempt + 1
      reconnectTimer := some (Timer.mk l.generation i (s.now + delay (s.reconnectAttempt + 1))) }
  else t

end State

/-- `ttlMs` is the lifetime of the tokens that the server signs. -/
def step (ttlMs : Nat) (s : State) : Move → Option State
  | .tick ms => some { s with now := s.now + ms }
  | .newSession expires opens =>
    some ({ s with tokens := s.tokens ++ [Token.mk expires none] }.connectToSignalingServer (some s.tokens.length) opens)
  | .verify i =>
    match s.links[i]? with
    | some l =>
      if l.stage = .arriving then
        some (s.set i { l with
          stage := if (s.tokens[l.token]?).any (s.now < ·.expires) then .verified else .refused none })
      else none
    | none => none
  | .claim i =>
    match s.links[i]? with
    | some l =>
      if l.stage = .verified then
        if s.used.any fun r => r.1 = l.token ∧ s.now < r.2 then some (s.set i { l with stage := .refused none })
        else
          let expires := ((s.tokens[l.token]?).map Token.expires).getD 0
          some { s.set i { l with stage := .claimed s.now } with
            used := (l.token, s.now + max 1 (expires - s.now)) :: s.used }
      else none
    | none => none
  | .join i outcome =>
    match s.links[i]? with
    | some l =>
      match l.stage with
      | .claimed time =>
        match outcome with
        | .joined => some { s.set i { l with
            stage := .joined time s.tokens.length
            ready := if l.closed then .lost else .inFlight } with
          tokens := s.tokens ++ [⟨s.now + ttlMs, some i⟩] }
        | .failed => some (s.set i { l with stage := .refused (some time) })
      | _ => none
    | none => none
  | .sessionReady i =>
    match s.links[i]? with
    | some l =>
      match l.stage, l.ready with
      | .joined _ next, .inFlight =>
        if s.isCurrent i l then
          some { s.set i { l with ready := .handled } with currentPairingToken := some next }
        else some (s.set i { l with ready := .lost })
      | _, _ => none
    | none => none
  | .close i =>
    match s.links[i]? with
    | some l => if l.closed then none else some (s.onclose i l)
    | none => none
  | .fire opens =>
    match s.reconnectTimer with
    | some t =>
      if t.due ≤ s.now then
        if t.generation = s.signalingGeneration ∧ s.ws = some t.link then
          some ({ s with reconnectTimer := none }.connectToSignalingServer s.currentPairingToken opens)
        else some { s with reconnectTimer := none }
      else none
    | none => none
  | .answered => some { s with reconnectAttempt := 0 }

/-! ## The chain of the connections -/

/-- The token came to the page from the matchmaker, or with the `session-ready` of a connection before `n`. -/
def Came (s : State) (n token : Nat) : Prop :=
  ∃ k, s.tokens[token]? = some k ∧ ∀ j, k.source = some j →
    j < n ∧ ∃ m, s.links[j]? = some m ∧ m.ready = .handled ∧ ∃ time, m.stage = .joined time token

/-- Each connection presents a token that came to the page; of two that were accepted with one token, one was so after it
had expired.  A pending retry is that of the current connection, which has closed; and when it has closed a retry is
pending. -/
structure Chained (s : State) : Prop where
  came : ∀ i l, s.links[i]? = some l → Came s i l.token
  once : ∀ (i j : Nat) (l m : Link) (a b : Nat) (k : Token), s.links[i]? = some l → s.links[j]? = some m → i ≠ j →
    l.token = m.token →
    l.stage.claimedAt = some a → m.stage.claimedAt = some b → s.tokens[l.token]? = some k → k.expires ≤ max a b
  timer : ∀ t, s.reconnectTimer = some t → t.due ≤ s.now + 15000 ∧
    ∃ l, s.links[t.link]? = some l ∧ s.isCurrent t.link l = true ∧ l.closed = true ∧ t.generation = l.generation
  retried : ∀ i l, s.links[i]? = some l → s.isCurrent i l = true → l.closed = true → s.reconnectTimer ≠ none

/-- Where the tokens come from. -/
structure Known (s : State) : Prop where
  came : ∀ i l, s.links[i]? = some l → Came s i l.token
  pageCame : ∀ t, s.currentPairingToken = some t → Came s s.links.length t
  sent : ∀ (i : Nat) (l : Link) (time next : Nat), s.links[i]? = some l → l.stage = .joined time next →
    ∃ k, s.tokens[next]? = some k ∧ k.source = some i

/-- What is recorded of the claims. -/
structure Recorded (s : State) : Prop where
  recorded : ∀ (i : Nat) (l : Link) (a : Nat) (k : Token), s.links[i]? = some l → l.stage.claimedAt = some a →
    s.tokens[l.token]? = some k → a ≤ s.now ∧ ∃ lapses, (l.token, lapses) ∈ s.used ∧ k.expires ≤ lapses
  once : ∀ (i j : Nat) (l m : Link) (a b : Nat) (k : Token), s.links[i]? = some l → s.links[j]? = some m → i ≠ j →
    l.token = m.token → l.stage.claimedAt = some a → m.stage.claimedAt = some b → s.tokens[l.token]? = some k →
    k.expires ≤ max a b

/-- How the page retries. -/
structure Retrying (s : State) : Prop where
  generations : ∀ l ∈ s.links, l.generation ≤ s.signalingGeneration
  timer : ∀ t, s.reconnectTimer = some t → t.due ≤ s.now + 15000 ∧
    ∃ l, s.links[t.link]? = some l ∧ s.isCurrent t.link l = true ∧ l.closed = true ∧ t.generation = l.generation
  retried : ∀ i l, s.links[i]? = some l → s.isCurrent i l = true → l.closed = true → s.reconnectTimer ≠ none
  presents : ∀ (i : Nat) (l : Link), s.links[i]? = some l → s.isCurrent i l = true →
    (∀ time next, l.stage ≠ .joined time next) → s.currentPairingToken = some l.token

/-! ### A connection that changes -/

/-- What a step may do to a connection. -/
structure Evolves (l l' : Link) : Prop where
  token : l'.token = l.token
  generation : l'.generation = l.generation
  joined : ∀ time next, l.stage = .joined time next → l'.stage = .joined time next
  handled : ∀ time next, l.stage = .joined time next → l.ready = .handled → l'.ready = .handled

section
variable {s s' : State} {i : Nat} {l l' : Link}

theorem lookup_set {xs : List Link} (hl : xs[i]? = some l) {j : Nat} {m : Link} (hm : (xs.set i l')[j]? = some m) :
    (j = i ∧ m = l') ∨ (j ≠ i ∧ xs[j]? = some m) := by
  by_cases hj : j = i
  · subst hj
    rw [List.getElem?_set_self (List.getElem?_eq_some_iff.1 hl).1] at hm
    exact .inl ⟨rfl, (Option.some.inj hm).symm⟩
  · rw [List.getElem?_set_ne (Ne.symm hj)] at hm
    exact .inr ⟨hj, hm⟩

theorem lookup_append {α : Type} {xs : List α} {a b : α} {j : Nat} (h : (xs ++ [a])[j]? = some b) :
    xs[j]? = some b ∨ (j = xs.length ∧ b = a) := by
  by_cases hj : j < xs.length
  · exact .inl (by rwa [List.getElem?_append_left hj] at h)
  · rw [List.getElem?_append_right (Nat.le_of_not_lt hj)] at h
    have hzero : j - xs.length = 0 := by
      have := (List.getElem?_eq_some_iff.1 h).1
      simpa using this
    rw [hzero] at h
    exact .inr ⟨by omega, (Option.some.inj h).symm⟩

theorem append_lookup {α : Type} {xs : List α} {a : α} {j : Nat} (h : xs[j]? = some a) (ys : List α) :
    (xs ++ ys)[j]? = some a := by
  rw [List.getElem?_append_left (List.getElem?_eq_some_iff.1 h).1]
  exact h

/-- A token came to the page for good. -/
theorem Came.set (hl : s.links[i]? = some l) (he : Evolves l l') {n token : Nat} (h : Came s n token) :
    Came (s.set i l') n token := by
  obtain ⟨k, hk, hsource⟩ := h
  refine ⟨k, hk, fun j hj => ?_⟩
  obtain ⟨hlt, m, hm, hready, time, hstage⟩ := hsource j hj
  refine ⟨hlt, ?_⟩
  by_cases hji : j = i
  · subst hji
    obtain rfl := Option.some.inj (hl.symm.trans hm)
    exact ⟨l', List.getElem?_set_self (List.getElem?_eq_some_iff.1 hl).1, he.handled _ _ hstage hready, time,
      he.joined _ _ hstage⟩
  · exact ⟨m, by rw [State.set, List.getElem?_set_ne (Ne.symm hji)]; exact hm, hready, time, hstage⟩

theorem Came.mono {n n' token : Nat} (hn : n ≤ n') (h : Came s n token) : Came s n' token := by
  obtain ⟨k, hk, hsource⟩ := h
  exact ⟨k, hk, fun j hj => ⟨Nat.lt_of_lt_of_le (hsource j hj).1 hn, (hsource j hj).2⟩⟩

/-- More tokens and more connections take nothing away. -/
theorem Came.append {n token : Nat} (h : Came s n token) {tokens : List Token} {links : List Link} {t : State}
    (ht : t.tokens = s.tokens ++ tokens) (hl : t.links = s.links ++ links) : Came t n token := by
  obtain ⟨k, hk, hsource⟩ := h
  refine ⟨k, ht ▸ append_lookup hk tokens, fun j hj => ?_⟩
  obtain ⟨hlt, m, hm, hrest⟩ := hsource j hj
  exact ⟨hlt, m, hl ▸ append_lookup hm links, hrest⟩

theorem Known.set (h : Known s) (hl : s.links[i]? = some l) (he : Evolves l l')
    (hsent : ∀ time next, l'.stage = .joined time next → ∃ k, s.tokens[next]? = some k ∧ k.source = some i) :
    Known (s.set i l') where
  came j m hm := by
    rcases lookup_set hl hm with ⟨rfl, rfl⟩ | ⟨-, hm⟩
    · exact he.token ▸ (h.came _ l hl).set hl he
    · exact (h.came j m hm).set hl he
  pageCame t ht := by
    simp only [State.set, List.length_set]
    exact (h.pageCame t ht).set hl he
  sent j m time next hm hstage := by
    rcases lookup_set hl hm with ⟨rfl, rfl⟩ | ⟨-, hm⟩
    · exact hsent time next hstage
    · exact h.sent j m time next hm hstage

theorem Recorded.set (h : Recorded s) (hl : s.links[i]? = some l) (ht : l'.token = l.token)
    (hc : l'.stage.claimedAt = l.stage.claimedAt) : Recorded (s.set i l') where
  recorded j m a k hm ha hk := by
    rcases lookup_set hl hm with ⟨rfl, rfl⟩ | ⟨-, hm⟩
    · rw [ht] at hk ⊢
      exact h.recorded _ l a k hl (hc ▸ ha) hk
    · exact h.recorded j m a k hm ha hk
  once j j' m m' a b k hm hm' hne htoken ha hb hk := by
    rcases lookup_set hl hm with ⟨hj, rfl⟩ | ⟨-, hold⟩ <;> rcases lookup_set hl hm' with ⟨hj', rfl⟩ | ⟨-, hold'⟩
    · exact absurd (hj.trans hj'.symm) hne
    · exact h.once _ _ _ _ a b k hl hold' (hj ▸ hne) (ht ▸ htoken) (hc ▸ ha) hb (by rw [← ht]; exact hk)
    · exact h.once _ _ _ _ a b k hold hl (hj' ▸ hne) (ht ▸ htoken) ha (hc ▸ hb) hk
    · exact h.once _ _ _ _ a b k hold hold' hne htoken ha hb hk

theorem isCurrent_eq (he : Evolves l l') (j : Nat) : s.isCurrent j l' = s.isCurrent j l := by
  simp only [State.isCurrent, he.generation]

theorem Retrying.set (h : Retrying s) (hl : s.links[i]? = some l) (he : Evolves l l') (hc : l'.closed = l.closed) :
    Retrying (s.set i l') where
  generations m hm := by
    obtain ⟨j, hj, rfl⟩ := List.getElem_of_mem hm
    rcases lookup_set hl (List.getElem?_eq_getElem hj) with ⟨-, hm⟩ | ⟨-, hm⟩
    · rw [hm, he.generation]
      exact h.generations l (List.mem_of_getElem? hl)
    · exact h.generations _ (List.mem_of_getElem? hm)
  timer t ht := by
    obtain ⟨hdue, m, hm, hcurrent, hclosed, hgen⟩ := h.timer t ht
    refine ⟨hdue, ?_⟩
    by_cases hji : t.link = i
    · subst hji
      obtain rfl := Option.some.inj (hl.symm.trans hm)
      exact ⟨l', List.getElem?_set_self (List.getElem?_eq_some_iff.1 hl).1, (isCurrent_eq he _).trans hcurrent,
        hc.trans hclosed, hgen.trans he.generation.symm⟩
    · exact ⟨m, by rw [State.set, List.getElem?_set_ne (Ne.symm hji)]; exact hm, hcurrent, hclosed, hgen⟩
  retried j m hm hcurrent hclosed := by
    rcases lookup_set hl hm with ⟨rfl, rfl⟩ | ⟨-, hm⟩
    · exact h.retried _ l hl ((isCurrent_eq he _).symm.trans hcurrent) (hc.symm.trans hclosed)
    · exact h.retried j m hm hcurrent hclosed
  presents j m hm hcurrent hnot := by
    rcases lookup_set hl hm with ⟨rfl, rfl⟩ | ⟨-, hm⟩
    · rw [he.token]
      exact h.presents _ l hl ((isCurrent_eq he _).symm.trans hcurrent) fun t n hs => hnot t n (he.joined t n hs)
    · exact h.presents j m hm hcurrent hnot

/-! ### Tokens and attempts -/

theorem Known.sign (h : Known s) (k : Token) : Known { s with tokens := s.tokens ++ [k] } where
  came j m hm := (h.came j m hm).append rfl (List.append_nil _).symm
  pageCame t ht := (h.pageCame t ht).append rfl (List.append_nil _).symm
  sent j m time next hm hstage := by
    obtain ⟨k', hk', hsource⟩ := h.sent j m time next hm hstage
    exact ⟨k', append_lookup hk' _, hsource⟩

/-- The token of a connection is one of those signed before. -/
theorem Known.signed (h : Known s) {j : Nat} {m : Link} (hm : s.links[j]? = some m) {k x : Token}
    (hk : (s.tokens ++ [x])[m.token]? = some k) : s.tokens[m.token]? = some k := by
  obtain ⟨k', hk', -⟩ := h.came j m hm
  rw [append_lookup hk'] at hk
  exact hk ▸ hk'

theorem Recorded.sign (h : Recorded s) (hknown : Known s) (k : Token) :
    Recorded { s with tokens := s.tokens ++ [k] } where
  recorded j m a k' hm ha hk := h.recorded j m a k' hm ha (hknown.signed hm hk)
  once j j' m m' a b k' hm hm' hne ht ha hb hk := h.once j j' m m' a b k' hm hm' hne ht ha hb (hknown.signed hm hk)

theorem Known.connect (h : Known s) {pairingToken : Option Nat} (ht : ∀ t, pairingToken = some t → Came s s.links.length t)
    (opens : Bool) : Known (s.connectToSignalingServer pairingToken opens) := by
  unfold State.connectToSignalingServer
  simp only
  split
  · rename_i token
    have hgrow : ∀ {n t : Nat} {f : State}, Came s n t → f.tokens = s.tokens →
        f.links = s.links ++ [{ token, generation := s.signalingGeneration + 1 }] → Came f n t :=
      fun hc htokens hlinks => hc.append (htokens.trans (List.append_nil _).symm) hlinks
    refine ⟨fun j m hm => ?_, fun t htoken => ?_, fun j m time next hm hstage => ?_⟩
    · rcases lookup_append hm with hm | ⟨rfl, rfl⟩
      · exact hgrow (h.came j m hm) rfl rfl
      · exact hgrow (ht _ rfl) rfl rfl
    · refine Came.mono (n := s.links.length) (by simp) ?_
      exact hgrow (ht t htoken) rfl rfl
    · rcases lookup_append hm with hm | ⟨rfl, rfl⟩
      · exact h.sent j m time next hm hstage
      · cases hstage
  · exact ⟨h.came, fun t htoken => ht t htoken, h.sent⟩

theorem Recorded.connect (h : Recorded s) (pairingToken : Option Nat) (opens : Bool) :
    Recorded (s.connectToSignalingServer pairingToken opens) := by
  unfold State.connectToSignalingServer
  simp only
  split
  · rename_i token
    refine ⟨fun j m a k hm ha hk => ?_, fun j j' m m' a b k hm hm' hne ht ha hb hk => ?_⟩
    · rcases lookup_append hm with hm | ⟨-, rfl⟩
      · exact h.recorded j m a k hm ha hk
      · cases ha
    · rcases lookup_append hm with hm | ⟨-, rfl⟩
      · rcases lookup_append hm' with hm' | ⟨-, rfl⟩
        · exact h.once j j' m m' a b k hm hm' hne ht ha hb hk
        · cases hb
      · cases ha
  · exact ⟨h.recorded, h.once⟩

theorem Retrying.connect (hg : ∀ l ∈ s.links, l.generation ≤ s.signalingGeneration) (pairingToken : Option Nat)
    (opens : Bool) : Retrying (s.connectToSignalingServer pairingToken opens) := by
  -- the connections there were are of an earlier generation
  have hold : ∀ m ∈ s.links, m.generation ≠ s.signalingGeneration + 1 := fun m hm => by
    have := hg m hm
    omega
  unfold State.connectToSignalingServer
  simp only
  split
  · refine ⟨fun m hm => ?_, nofun, fun j m hm hcurrent hclosed => ?_, fun j m hm hcurrent _ => ?_⟩
    · rcases List.mem_append.1 hm with hm | hm
      · exact Nat.le_succ_of_le (hg m hm)
      · obtain rfl := List.mem_singleton.1 hm
        exact Nat.le_refl _
    · rcases lookup_append hm with hm | ⟨-, rfl⟩
      · simp [State.isCurrent, hold m (List.mem_of_getElem? hm)] at hcurrent
      · cases hclosed
    · rcases lookup_append hm with hm | ⟨-, rfl⟩
      · simp [State.isCurrent, hold m (List.mem_of_getElem? hm)] at hcurrent
      · rfl
  · refine ⟨fun m hm => Nat.le_succ_of_le (hg m hm), nofun, fun j m hm hcurrent hclosed => ?_,
      fun j m hm hcurrent _ => ?_⟩
    all_goals simp [State.isCurrent, hold m (List.mem_of_getElem? hm)] at hcurrent

/-- The server takes a token that no record holds. -/
theorem Recorded.claim (h : Recorded s) (hl : s.links[i]? = some l) (hfree : ∀ r ∈ s.used, r.1 = l.token → r.2 ≤ s.now) :
    Recorded { s.set i { l with stage := .claimed s.now } with
      used := (l.token, s.now + max 1 (((s.tokens[l.token]?).map Token.expires).getD 0 - s.now)) :: s.used } where
  recorded j m a k hm ha hk := by
    rcases lookup_set hl hm with ⟨-, rfl⟩ | ⟨-, hm⟩
    · obtain rfl := Option.some.inj ha
      have hk : s.tokens[l.token]? = some k := hk
      refine ⟨Nat.le_refl _, _, List.mem_cons_self, ?_⟩
      rw [hk]
      simp only [Option.map_some, Option.getD_some]
      omega
    · obtain ⟨hle, lapses, hmem, hlapses⟩ := h.recorded j m a k hm ha hk
      exact ⟨hle, lapses, List.mem_cons_of_mem _ hmem, hlapses⟩
  once j j' m m' a b k hm hm' hne ht ha hb hk := by
    -- the record of the one has lapsed when the other is accepted
    have hlapsed : ∀ {x : Nat} {y : Link} {c : Nat}, s.links[x]? = some y → y.token = l.token →
        y.stage.claimedAt = some c → s.tokens[l.token]? = some k → k.expires ≤ s.now := by
      intro x y c hy hty hc hk
      obtain ⟨-, lapses, hmem, hlapses⟩ := h.recorded x y c k hy hc (hty ▸ hk)
      exact Nat.le_trans hlapses (hfree _ hmem hty)
    rcases lookup_set hl hm with ⟨hj, rfl⟩ | ⟨-, hold⟩ <;> rcases lookup_set hl hm' with ⟨hj', rfl⟩ | ⟨-, hold'⟩
    · exact absurd (hj.trans hj'.symm) hne
    · obtain rfl := Option.some.inj ha
      exact Nat.le_trans (hlapsed hold' ht.symm hb hk) (Nat.le_max_left _ _)
    · obtain rfl := Option.some.inj hb
      exact Nat.le_trans (hlapsed hold ht ha (ht ▸ hk)) (Nat.le_max_right _ _)
    · exact h.once _ _ _ _ a b k hold hold' hne ht ha hb hk

/-! ### The page's events -/

theorem Known.handle (h : Known s) (hl : s.links[i]? = some l) {time next : Nat} (hstage : l.stage = .joined time next) :
    Known { s.set i { l with ready := .handled } with currentPairingToken := some next } := by
  have he : Evolves l { l with ready := .handled } := ⟨rfl, rfl, fun _ _ h => h, fun _ _ _ _ => rfl⟩
  have hset := h.set hl he fun t n hs => h.sent i l t n hl hs
  refine ⟨hset.came, fun t ht => ?_, hset.sent⟩
  obtain rfl := Option.some.inj ht
  obtain ⟨k, hk, hsource⟩ := h.sent i l time next hl hstage
  have hi := (List.getElem?_eq_some_iff.1 hl).1
  refine ⟨k, hk, fun j hj => ?_⟩
  obtain rfl := Option.some.inj (hsource.symm.trans hj)
  exact ⟨by simpa [State.set] using hi, _, List.getElem?_set_self hi, rfl, time, hstage⟩

theorem delay_le (n : Nat) : State.delay n ≤ 15000 := Nat.min_le_right _ _

theorem Link.evolves_close (l : Link) : Evolves l l.close :=
  ⟨rfl, rfl, fun _ _ h => h, fun _ _ _ hr => by simp [Link.close, hr]⟩

theorem Known.onclose (h : Known s) (hl : s.links[i]? = some l) : Known (s.onclose i l) := by
  have hset := h.set hl l.evolves_close fun t n hs => h.sent i l t n hl hs
  unfold State.onclose
  simp only
  split
  · exact ⟨hset.came, hset.pageCame, hset.sent⟩
  · exact hset

theorem Recorded.onclose (h : Recorded s) (hl : s.links[i]? = some l) : Recorded (s.onclose i l) := by
  have hset : Recorded (s.set i l.close) := h.set hl rfl rfl
  unfold State.onclose
  simp only
  split
  · exact ⟨hset.recorded, hset.once⟩
  · exact hset

theorem Retrying.onclose (h : Retrying s) (hl : s.links[i]? = some l) : Retrying (s.onclose i l) := by
  have hi := (List.getElem?_eq_some_iff.1 hl).1
  have hself : (s.links.set i l.close)[i]? = some l.close := List.getElem?_set_self hi
  have hgenerations : ∀ m ∈ s.links.set i l.close, m.generation ≤ s.signalingGeneration := by
    intro m hm
    rcases List.mem_or_eq_of_mem_set hm with hm | rfl
    · exact h.generations m hm
    · exact h.generations l (List.mem_of_getElem? hl)
  have hpresents : ∀ (j : Nat) (m : Link), (s.links.set i l.close)[j]? = some m → s.isCurrent j m = true →
      (∀ time next, m.stage ≠ .joined time next) → s.currentPairingToken = some m.token := by
    intro j m hm hcurrent hnot
    rcases lookup_set hl hm with ⟨rfl, rfl⟩ | ⟨-, hm⟩
    · exact h.presents _ l hl hcurrent hnot
    · exact h.presents j m hm hcurrent hnot
  unfold State.onclose
  simp only
  split
  · rename_i hcurrent
    refine ⟨hgenerations, fun t ht => ?_, nofun, hpresents⟩
    obtain rfl := Option.some.inj ht
    exact ⟨Nat.add_le_add_left (delay_le _) _, l.close, hself, hcurrent, rfl, rfl⟩
  · rename_i hnot
    refine ⟨hgenerations, fun t ht => ?_, fun j m hm hcurrent hclosed => ?_, hpresents⟩
    · obtain ⟨hdue, m, hm, hcurrent, hrest⟩ := h.timer t ht
      have hne : i ≠ t.link := by
        rintro rfl
        obtain rfl := Option.some.inj (hl.symm.trans hm)
        exact hnot hcurrent
      exact ⟨hdue, m, by rw [State.set, List.getElem?_set_ne hne]; exact hm, hcurrent, hrest⟩
    · rcases lookup_set hl hm with ⟨rfl, rfl⟩ | ⟨-, hm⟩
      · exact absurd hcurrent hnot
      · exact h.retried j m hm hcurrent hclosed

theorem Retrying.tick (h : Retrying s) (ms : Nat) : Retrying { s with now := s.now + ms } where
  generations := h.generations
  timer t ht := by
    obtain ⟨hdue, hrest⟩ := h.timer t ht
    exact ⟨by simp only; omega, hrest⟩
  retried := h.retried
  presents := h.presents

theorem Recorded.tick (h : Recorded s) (ms : Nat) : Recorded { s with now := s.now + ms } where
  recorded j m a k hm ha hk := by
    obtain ⟨hle, hrest⟩ := h.recorded j m a k hm ha hk
    exact ⟨Nat.le_add_right_of_le hle, hrest⟩
  once := h.once

/-- What holds of the page and the server. -/
structure Inv (s : State) : Prop where
  known : Known s
  recorded : Recorded s
  retrying : Retrying s

theorem Inv.set (h : Inv s) (hl : s.links[i]? = some l) {stage : Stage} {ready : Ready}
    (hjoined : ∀ time next, l.stage = .joined time next → stage = l.stage ∧ (l.ready = .handled → ready = .handled))
    (hsent : ∀ time next, stage = .joined time next → ∃ k, s.tokens[next]? = some k ∧ k.source = some i)
    (hc : stage.claimedAt = l.stage.claimedAt) : Inv (s.set i { l with stage, ready }) := by
  have he : Evolves l { l with stage, ready } :=
    ⟨rfl, rfl, fun t n hs => (hjoined t n hs).1.trans hs, fun t n hs => (hjoined t n hs).2⟩
  exact ⟨h.known.set hl he hsent, h.recorded.set hl rfl hc, h.retrying.set hl he rfl⟩

theorem Inv.connect (h : Inv s) {pairingToken : Option Nat}
    (ht : ∀ t, pairingToken = some t → Came s s.links.length t) (opens : Bool) :
    Inv (s.connectToSignalingServer pairingToken opens) :=
  ⟨h.known.connect ht opens, h.recorded.connect pairingToken opens,
    Retrying.connect h.retrying.generations pairingToken opens⟩

theorem Inv.sign (h : Inv s) (k : Token) : Inv { s with tokens := s.tokens ++ [k] } :=
  ⟨h.known.sign k, h.recorded.sign h.known k,
    ⟨h.retrying.generations, h.retrying.timer, h.retrying.retried, h.retrying.presents⟩⟩

theorem Inv.step {ttlMs : Nat} {m : Move} (h : Inv s) (hs : Reconnect.step ttlMs s m = some s') : Inv s' := by
  cases m with
  | tick ms => exact Option.some.inj hs ▸ ⟨⟨h.known.came, h.known.pageCame, h.known.sent⟩, h.recorded.tick ms,
      h.retrying.tick ms⟩
  | newSession expires opens =>
    refine Option.some.inj hs ▸ (h.sign (Token.mk expires none)).connect (fun t ht => ?_) opens
    obtain rfl := Option.some.inj ht
    exact ⟨⟨expires, none⟩, List.getElem?_concat_length, nofun⟩
  | verify i =>
    simp only [Reconnect.step] at hs
    split at hs
    · rename_i l hl
      split at hs
      · rename_i hstage
        refine Option.some.inj hs ▸ h.set hl (by simp [hstage]) ?_ ?_ <;> split <;> simp [hstage, Stage.claimedAt]
      · cases hs
    · cases hs
  | claim i =>
    simp only [Reconnect.step] at hs
    split at hs
    · rename_i l hl
      split at hs
      · rename_i hstage
        split at hs
        · exact Option.some.inj hs ▸ h.set hl (by simp [hstage]) nofun (by simp [hstage, Stage.claimedAt])
        · rename_i hfree
          simp only [List.any_eq_true, decide_eq_true_eq, not_exists, not_and, Nat.not_lt] at hfree
          have he : Evolves l { l with stage := .claimed s.now } := ⟨rfl, rfl, by simp [hstage], by simp [hstage]⟩
          have hknown := h.known.set hl he nofun
          have hretrying := h.retrying.set hl he rfl
          exact Option.some.inj hs ▸ ⟨⟨hknown.came, hknown.pageCame, hknown.sent⟩,
            h.recorded.claim hl fun r hr ht => hfree r hr ht,
            ⟨hretrying.generations, hretrying.timer, hretrying.retried, hretrying.presents⟩⟩
      · cases hs
    · cases hs
  | join i outcome =>
    simp only [Reconnect.step] at hs
    split at hs
    · rename_i l hl
      split at hs
      · rename_i time hstage
        cases outcome with
        | joined =>
          refine Option.some.inj hs ▸ (h.sign ⟨s.now + ttlMs, some i⟩).set hl (by simp [hstage]) (fun t n hn => ?_)
            (by simp [hstage, Stage.claimedAt])
          obtain ⟨-, rfl⟩ := Stage.joined.inj hn
          exact ⟨_, List.getElem?_concat_length, rfl⟩
        | failed => exact Option.some.inj hs ▸ h.set hl (by simp [hstage]) nofun (by simp [hstage, Stage.claimedAt])
      · cases hs
    · cases hs
  | sessionReady i =>
    simp only [Reconnect.step] at hs
    split at hs
    · rename_i l hl
      split at hs
      · rename_i time next hstage hready
        split at hs
        · rename_i hcurrent
          have hset : Inv (s.set i { l with ready := .handled }) :=
            h.set hl (fun _ _ _ => ⟨rfl, fun _ => rfl⟩) (fun t n hn => h.known.sent i l t n hl hn) rfl
          refine Option.some.inj hs ▸ ⟨h.known.handle hl hstage, ⟨hset.recorded.recorded, hset.recorded.once⟩,
            ⟨hset.retrying.generations, hset.retrying.timer, hset.retrying.retried, fun j m hm hc hnot => ?_⟩⟩
          -- the current connection has joined
          simp only [State.isCurrent, Bool.and_eq_true, decide_eq_true_eq] at hcurrent hc
          obtain rfl := Option.some.inj (hcurrent.2.symm.trans hc.2)
          rcases lookup_set hl hm with ⟨-, rfl⟩ | ⟨hne, -⟩
          · exact absurd hstage (hnot time next)
          · exact absurd rfl hne
        · exact Option.some.inj hs ▸ h.set hl (by simp [hready]) (fun t n hn => h.known.sent i l t n hl hn) rfl
      · cases hs
    · cases hs
  | close i =>
    simp only [Reconnect.step] at hs
    split at hs
    · rename_i l hl
      split at hs
      · cases hs
      · exact Option.some.inj hs ▸ ⟨h.known.onclose hl, h.recorded.onclose hl, h.retrying.onclose hl⟩
    · cases hs
  | fire opens =>
    simp only [Reconnect.step] at hs
    split at hs
    · rename_i t ht
      split at hs
      · obtain ⟨-, l, -, hcurrent, -, hgen⟩ := h.retrying.timer t ht
        simp only [State.isCurrent, Bool.and_eq_true, decide_eq_true_eq] at hcurrent
        rw [if_pos ⟨hgen.trans hcurrent.1, hcurrent.2⟩] at hs
        have hknown : Known { s with reconnectTimer := none } := ⟨h.known.came, h.known.pageCame, h.known.sent⟩
        have hrecorded : Recorded { s with reconnectTimer := none } := ⟨h.recorded.recorded, h.recorded.once⟩
        exact Option.some.inj hs ▸ ⟨hknown.connect h.known.pageCame opens, hrecorded.connect _ opens,
          Retrying.connect h.retrying.generations _ opens⟩
      · cases hs
    · cases hs
  | answered =>
    exact Option.some.inj hs ▸ ⟨⟨h.known.came, h.known.pageCame, h.known.sent⟩, ⟨h.recorded.recorded, h.recorded.once⟩,
      ⟨h.retrying.generations, h.retrying.timer, h.retrying.retried, h.retrying.presents⟩⟩

theorem Inv.start : Inv {} := by
  refine ⟨⟨?_, ?_, ?_⟩, ⟨?_, ?_⟩, ⟨?_, ?_, ?_, ?_⟩⟩ <;> simp

theorem Inv.chained (h : Inv s) : Chained s :=
  ⟨h.known.came, h.recorded.once, h.retrying.timer, h.retrying.retried⟩

end

/-- **However the page, the server and the network take turns**, a connection presents a token that the matchmaker signed
for the page or that came with the `session-ready` of an earlier connection, no token is accepted twice before it expires,
and the page retries exactly its current connection, after it has closed, within fifteen seconds. -/
theorem connections_chained (ttlMs : Nat) (moves : List Move) : Throughout (step ttlMs) Chained {} moves :=
  (Throughout.of_along (fun _ _ _ h _ hs => h.step hs) Inv.start along_true).mono fun _ h => h.chained

/-! ## A token that is lost -/

/-- What the current connection may be when it does not bring a token any more. -/
def Quiet (t : Nat) (l : Link) : Prop :=
  match l.stage with
  | .arriving | .verified => l.token = t
  | .claimed _ => False
  | .joined _ _ => l.ready ≠ .inFlight
  | .refused _ => True

/-- The page is left with a token that has been accepted; `n` connections were there when it was. -/
structure Spent (t : Nat) (k : Token) (n : Nat) (s : State) : Prop where
  signed : s.tokens[t]? = some k
  record : ∃ lapses, (t, lapses) ∈ s.used ∧ k.expires ≤ lapses
  late : ∀ (j : Nat) (m : Link) (b : Nat), n ≤ j → s.links[j]? = some m → m.stage.claimedAt = some b → k.expires ≤ b
  page : s.now < k.expires → s.currentPairingToken = some t
  same : s.now < k.expires → ∀ (j : Nat) (m : Link), n ≤ j → s.links[j]? = some m → m.token = t
  quiet : s.now < k.expires → ∀ (j : Nat) (m : Link), s.links[j]? = some m → s.isCurrent j m = true → Quiet t m

def Move.isNewSession : Move → Bool
  | .newSession .. => true
  | _ => false

section
variable {s s' : State} {t n i : Nat} {k : Token} {l l' : Link}

theorem Spent.set (h : Spent t k n s) (hl : s.links[i]? = some l) (ht : l'.token = l.token)
    (hg : l'.generation = l.generation) (hlate : ∀ b, n ≤ i → l'.stage.claimedAt = some b → k.expires ≤ b)
    (hquiet : s.now < k.expires → s.isCurrent i l = true → Quiet t l → Quiet t l') : Spent t k n (s.set i l') where
  signed := h.signed
  record := h.record
  late j m b hj hm hb := by
    rcases lookup_set hl hm with ⟨rfl, rfl⟩ | ⟨-, hm⟩
    · exact hlate b hj hb
    · exact h.late j m b hj hm hb
  page := h.page
  same hnow j m hj hm := by
    rcases lookup_set hl hm with ⟨rfl, rfl⟩ | ⟨-, hm⟩
    · exact ht.trans (h.same hnow _ l hj hl)
    · exact h.same hnow j m hj hm
  quiet hnow j m hm hcurrent := by
    rcases lookup_set hl hm with ⟨rfl, rfl⟩ | ⟨-, hm⟩
    · have hcurrent : s.isCurrent j l = true := by
        simp only [State.isCurrent, ← hg]
        exact hcurrent
      exact hquiet hnow hcurrent (h.quiet hnow _ l hl hcurrent)
    · exact h.quiet hnow j m hm hcurrent

theorem Spent.connect (h : Spent t k n s) (hg : ∀ l ∈ s.links, l.generation ≤ s.signalingGeneration) (opens : Bool) :
    Spent t k n (s.connectToSignalingServer s.currentPairingToken opens) := by
  have hold : ∀ m ∈ s.links, m.generation ≠ s.signalingGeneration + 1 := fun m hm => by
    have := hg m hm
    omega
  unfold State.connectToSignalingServer
  simp only
  split
  · rename_i token htoken
    have hnew : s.now < k.expires → token = t := fun hnow => Option.some.inj (htoken.symm.trans (h.page hnow))
    refine ⟨h.signed, h.record, fun j m b hj hm hb => ?_, h.page, fun hnow j m hj hm => ?_,
      fun hnow j m hm hcurrent => ?_⟩
    · rcases lookup_append hm with hm | ⟨-, rfl⟩
      · exact h.late j m b hj hm hb
      · cases hb
    · rcases lookup_append hm with hm | ⟨-, rfl⟩
      · exact h.same hnow j m hj hm
      · exact hnew hnow
    · rcases lookup_append hm with hm | ⟨-, rfl⟩
      · simp [State.isCurrent, hold m (List.mem_of_getElem? hm)] at hcurrent
      · exact hnew hnow
  · refine ⟨h.signed, h.record, h.late, h.page, h.same, fun hnow j m hm hcurrent => ?_⟩
    simp [State.isCurrent, hold m (List.mem_of_getElem? hm)] at hcurrent

/-- The token is refused while it has not expired. -/
theorem Spent.refused (h : Spent t k n s) (hnow : s.now < k.expires) (hl : l.token = t) :
    s.used.any (fun r => r.1 = l.token ∧ s.now < r.2) = true := by
  obtain ⟨lapses, hmem, hle⟩ := h.record
  exact List.any_eq_true.2 ⟨_, hmem, by simp [hl, Nat.lt_of_lt_of_le hnow hle]⟩

theorem Spent.step {ttlMs : Nat} {m : Move} (h : Spent t k n s) (hi : Inv s) (hm : m.isNewSession = false)
    (hs : Reconnect.step ttlMs s m = some s') : Spent t k n s' := by
  cases m with
  | newSession expires opens => cases hm
  | tick ms =>
    obtain rfl := Option.some.inj hs
    have hsoon : s.now + ms < k.expires → s.now < k.expires := fun hlt => by omega
    exact ⟨h.signed, h.record, h.late, fun hlt => h.page (hsoon hlt), fun hlt => h.same (hsoon hlt),
      fun hlt => h.quiet (hsoon hlt)⟩
  | verify i =>
    simp only [Reconnect.step] at hs
    split at hs
    · rename_i l hl
      split at hs
      · rename_i hstage
        refine Option.some.inj hs ▸ h.set hl rfl rfl ?_ ?_ <;> split <;> simp_all [Stage.claimedAt, Quiet]
      · cases hs
    · cases hs
  | claim i =>
    simp only [Reconnect.step] at hs
    split at hs
    · rename_i l hl
      split at hs
      · rename_i hstage
        split at hs
        · exact Option.some.inj hs ▸ h.set hl rfl rfl nofun fun _ _ _ => trivial
        · rename_i hfree
          -- a token that is accepted now is another one, or has expired
          have hother : s.now < k.expires → l.token ≠ t := fun hnow ht => hfree (h.refused hnow ht)
          have hset : Spent t k n (s.set i { l with stage := .claimed s.now }) := by
            refine h.set hl rfl rfl (fun b hj hb => ?_) (fun hnow _ hq => ?_)
            · obtain rfl := Option.some.inj hb
              exact Nat.le_of_not_lt fun hnow => hother hnow (h.same hnow i l hj hl)
            · simp only [Quiet, hstage] at hq
              exact hother hnow hq
          obtain ⟨lapses, hmem, hle⟩ := hset.record
          exact Option.some.inj hs ▸ ⟨hset.signed, ⟨lapses, List.mem_cons_of_mem _ hmem, hle⟩, hset.late, hset.page,
            hset.same, hset.quiet⟩
      · cases hs
    · cases hs
  | join i outcome =>
    simp only [Reconnect.step] at hs
    split at hs
    · rename_i l hl
      split at hs
      · rename_i time hstage
        have hlate : ∀ b, n ≤ i → l.stage.claimedAt = some b → k.expires ≤ b := fun b hj hb => h.late i l b hj hl hb
        have hnever : ∀ l', Quiet t l → Quiet t l' := fun l' hq => by
          simp only [Quiet, hstage] at hq
        cases outcome with
        | joined =>
          have hset : Spent t k n (s.set i { l with
              stage := .joined time s.tokens.length
              ready := if l.closed then .lost else .inFlight }) :=
            h.set hl rfl rfl (by rwa [hstage] at hlate) fun _ _ => hnever _
          exact Option.some.inj hs ▸ ⟨append_lookup hset.signed _, hset.record, hset.late, hset.page, hset.same,
            hset.quiet⟩
        | failed =>
          exact Option.some.inj hs ▸ h.set hl rfl rfl (by rwa [hstage] at hlate) fun _ _ => hnever _
      · cases hs
    · cases hs
  | sessionReady i =>
    simp only [Reconnect.step] at hs
    split at hs
    · rename_i l hl
      split at hs
      · rename_i time next hstage hready
        have hlate : ∀ b, n ≤ i → l.stage.claimedAt = some b → k.expires ≤ b := fun b hj hb => h.late i l b hj hl hb
        have hnever : ∀ l', Quiet t l → Quiet t l' := fun l' hq => by
          simp [Quiet, hstage, hready] at hq
        split at hs
        · rename_i hcurrent
          have hset : Spent t k n (s.set i { l with ready := .handled }) :=
            h.set hl rfl rfl hlate fun _ _ => hnever _
          -- while the token has not expired the current connection brings no other
          have hpast : ¬s.now < k.expires := fun hnow => by
            have := h.quiet hnow i l hl hcurrent
            simp [Quiet, hstage, hready] at this
          exact Option.some.inj hs ▸ ⟨hset.signed, hset.record, hset.late, fun hnow => absurd hnow hpast, hset.same,
            hset.quiet⟩
        · exact Option.some.inj hs ▸ h.set hl rfl rfl hlate fun _ _ => hnever _
      · cases hs
    · cases hs
  | close i =>
    simp only [Reconnect.step] at hs
    split at hs
    · rename_i l hl
      split at hs
      · cases hs
      · have hset : Spent t k n (s.set i l.close) := by
          refine h.set hl rfl rfl (fun b hj hb => h.late i l b hj hl hb) fun _ _ hq => ?_
          cases hstage : l.stage <;> simp_all [Quiet, Link.close]
        obtain rfl := Option.some.inj hs
        unfold State.onclose
        simp only
        split
        · exact ⟨hset.signed, hset.record, hset.late, hset.page, hset.same, hset.quiet⟩
        · exact hset
    · cases hs
  | fire opens =>
    simp only [Reconnect.step] at hs
    split at hs
    · rename_i x hx
      split at hs
      · have hrest : Spent t k n { s with reconnectTimer := none } :=
          ⟨h.signed, h.record, h.late, h.page, h.same, h.quiet⟩
        split at hs
        · exact Option.some.inj hs ▸ hrest.connect hi.retrying.generations opens
        · exact Option.some.inj hs ▸ hrest
      · cases hs
    · cases hs
  | answered => exact Option.some.inj hs ▸ ⟨h.signed, h.record, h.late, h.page, h.same, h.quiet⟩

end

/-- **A token that was accepted and whose `session-ready` is lost is the page's last**: where the page's token has been
accepted and its current connection brings no other, no connection it makes in the same session is accepted before the
token has expired. -/
theorem lost_token_is_final (ttlMs : Nat) {moves more : List Move} {s s' : State} {t i : Nat} {l : Link} {k : Token}
    (hs : after (step ttlMs) {} moves = some s) (ht : s.currentPairingToken = some t) (hk : s.tokens[t]? = some k)
    (hl : s.links[i]? = some l) (hlt : l.token = t) (haccepted : l.stage.claimedAt ≠ none)
    (hcurrent : ∀ j m, s.links[j]? = some m → s.isCurrent j m = true →
      (∀ time, m.stage ≠ .claimed time) ∧ m.ready ≠ .inFlight)
    (hmore : after (step ttlMs) s more = some s') (hsame : ∀ m ∈ more, m.isNewSession = false) :
    ∀ j m, s.links.length ≤ j → s'.links[j]? = some m → ∀ b, m.stage.claimedAt = some b → k.expires ≤ b := by
  have hinv : Inv s := (Throughout.of_along (fun _ _ _ h _ hs => h.step hs) Inv.start along_true).after hs
  obtain ⟨a, ha⟩ := Option.ne_none_iff_exists'.1 haccepted
  have hspent : Spent t k s.links.length s := by
    have hend : ∀ {j : Nat} {m : Link}, s.links.length ≤ j → s.links[j]? ≠ some m := fun hj hm => by
      rw [List.getElem?_eq_none hj] at hm
      cases hm
    refine ⟨hk, ?_, fun j m b hj hm _ => absurd hm (hend hj), fun _ => ht, fun _ j m hj hm => absurd hm (hend hj),
      fun _ j m hm hc => ?_⟩
    · exact hlt ▸ (hinv.recorded.recorded i l a k hl ha (hlt ▸ hk)).2
    · obtain ⟨hclaimed, hready⟩ := hcurrent j m hm hc
      have htoken : (∀ time next, m.stage ≠ .joined time next) → m.token = t := fun hnot =>
        Option.some.inj ((hinv.retrying.presents j m hm hc hnot).symm.trans ht)
      cases hstage : m.stage <;> simp_all [Quiet]
  have hthroughout : Throughout (step ttlMs) (fun s' => Spent t k s.links.length s' ∧ Inv s') s more :=
    .of_along (fun _ _ _ h hm hs => ⟨h.1.step h.2 hm hs, h.2.step hs⟩) ⟨hspent, hinv⟩ (along_of_forall hsame)
  exact fun j m hj hm b hb => (hthroughout.after hmore).1.late j m b hj hm hb

/-- The first connection is lost when it has joined, and so is its `session-ready`. -/
def lostReady : List Move := [.newSession 120000 true, .verify 0, .claim 0, .join 0 .joined, .close 0]

def lost : State where
  tokens := [⟨120000, none⟩, ⟨120000, some 0⟩]
  links := [{ token := 0, generation := 1, stage := .joined 0 1, ready := .lost, closed := true }]
  used := [(0, 120000)]
  currentPairingToken := some 0
  signalingGeneration := 1
  ws := some 0
  reconnectAttempt := 1
  reconnectTimer := some ⟨1, 0, 1000⟩

/-- The page tries again a second later. -/
def retry : List Move := [.tick 1000, .fire true, .verify 1, .claim 1]

theorem lost_token_is_final_retry : ∃ s', after (step 120000) lost retry = some s' ∧
    ∀ j m, lost.links.length ≤ j → s'.links[j]? = some m → ∀ b, m.stage.claimedAt = some b → 120000 ≤ b := by
  obtain ⟨s', hretry⟩ : ∃ s', after (step 120000) lost retry = some s' := ⟨_, rfl⟩
  have hlost : after (step 120000) {} lostReady = some lost := rfl
  refine ⟨s', hretry, lost_token_is_final 120000 (k := ⟨120000, none⟩) (i := 0) hlost rfl rfl rfl rfl nofun
    (fun j m hm _ => ?_) hretry (by decide)⟩
  have hm := List.mem_of_getElem? hm
  simp only [lost, List.mem_singleton] at hm
  subst hm
  simp

end Reconnect
end Client
end CloudGaming
