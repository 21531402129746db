import CloudGaming.Client.Convergence
import CloudGaming.Signaling.Routing
import Mathlib.Algebra.Order.Field.Rat
import Mathlib.Tactic.Linarith
/-!
# RateLimits — the token bucket of a connection, and the limiter that stands in for Redis

Every connection has a bucket that fills up again while time passes and gives a token to every message that
`handleMessage` goes on with.  The limits for addresses and rooms are counted in Redis; while it is out of reach they
are counted in a map of this process, in windows that begin with their first call.
-/
namespace CloudGaming
namespace Signaling
namespace RateLimits

/-! ## The token bucket -/

/-- `ws._rate`; times are in milliseconds. -/
structure Rate where
  tokens : ℚ
  lastRefill : Int
  deriving DecidableEq

/-- A frame with the time at which it is handled, its connection and the others of the room. -/
structure Arrival where
  time : Int
  ws : Socket
  peers : List Socket
  frame : Frame

section

variable (cfg : Config) (rateLimitMessagesPer10s : Nat)

def refillTokens (now : Int) (rate : Rate) : Rate :=
  let elapsed := now - rate.lastRefill
  if elapsed ≤ 0 then rate
  else
    let tokensToAdd : ℚ := rateLimitMessagesPer10s / 10000 * elapsed
    ⟨min rateLimitMessagesPer10s (rate.tokens + tokensToAdd), now⟩

/-- The frame is dropped before the bucket is asked. -/
def Arrival.dropped (a : Arrival) : Bool := a.ws.disconnected || a.frame.size > cfg.messageMaxBytes

/-- `handleMessage`, up to its first await. -/
def handleMessage (rate : Rate) (a : Arrival) : Verdict × Rate :=
  if a.dropped cfg then (.drop, rate)
  else
    let rate := refillTokens rateLimitMessagesPer10s a.time rate
    if rate.tokens ≤ 0 then (.drop, rate)
    else (screen cfg a.ws a.peers true a.frame, { rate with tokens := rate.tokens - 1 })

/-- The bucket gives the message a token. -/
def accepts (rate : Rate) (a : Arrival) : Bool :=
  !a.dropped cfg && decide (0 < (refillTokens rateLimitMessagesPer10s a.time rate).tokens)

/-- The times of the messages that the bucket accepts. -/
def acceptedTimes (rate : Rate) : List Arrival → List Int
  | [] => []
  | a :: rest =>
    (if accepts cfg rateLimitMessagesPer10s rate a then [a.time] else []) ++
      acceptedTimes (handleMessage cfg rateLimitMessagesPer10s rate a).2 rest

end

section

variable {cfg : Config} {limit : Nat} {rate : Rate} {a : Arrival} {s t : ℚ}

/-- **What becomes of a frame hangs on the bucket by its answer alone.** -/
theorem handleMessage_fst (cfg : Config) (limit : Nat) (rate : Rate) (a : Arrival) :
    (handleMessage cfg limit rate a).1 = screen cfg a.ws a.peers (accepts cfg limit rate a) a.frame := by
  unfold handleMessage accepts
  by_cases hd : a.dropped cfg = true
  · rw [if_pos hd, hd, screen, if_pos (by simp)]
  · rw [if_neg hd]
    by_cases ht : (refillTokens limit a.time rate).tokens ≤ 0
    · simp [ht, screen]
    · simp [ht, hd, not_le.1 ht]

/-- The tokens there would be at a time. -/
def level (limit : Nat) (rate : Rate) (t : ℚ) : ℚ :=
  if t ≤ rate.lastRefill then rate.tokens else min limit (rate.tokens + limit / 10000 * (t - rate.lastRefill))

theorem tokens_refillTokens (limit : Nat) (rate : Rate) (now : Int) :
    (refillTokens limit now rate).tokens = level limit rate now := by
  unfold refillTokens level
  by_cases h : now ≤ rate.lastRefill
  · rw [if_pos (by omega), if_pos (by exact_mod_cast h)]
  · rw [if_neg (by omega), if_neg (by exact_mod_cast h)]
    push_cast
    rfl

/-- Nothing is added at the time of the last refill or before. -/
theorem level_of_le (h : t ≤ rate.lastRefill) : level limit rate t = rate.tokens := if_pos h

theorem le_lastRefill (limit : Nat) (rate : Rate) (now : Int) :
    (now : ℚ) ≤ (refillTokens limit now rate).lastRefill := by
  unfold refillTokens
  dsimp only
  split
  · have : now ≤ rate.lastRefill := by omega
    exact_mod_cast this
  · exact le_refl _

theorem gain_nonneg (limit : Nat) (h : s ≤ t) : 0 ≤ (limit : ℚ) / 10000 * (t - s) :=
  mul_nonneg (div_nonneg (Nat.cast_nonneg limit) (by norm_num)) (by linarith)

/-- The bucket fills up at its rate at most. -/
theorem level_le_add (limit : Nat) (rate : Rate) (h : s ≤ t) : level limit rate t ≤ level limit rate s + limit / 10000 * (t - s) := by
  have hgain := gain_nonneg limit h
  unfold level
  by_cases ht : t ≤ rate.lastRefill
  · rw [if_pos ht, if_pos (h.trans ht)]
    linarith
  rw [if_neg ht]
  by_cases hs : s ≤ rate.lastRefill
  · rw [if_pos hs]
    have hlate := gain_nonneg limit hs
    exact (min_le_right _ _).trans (by linarith)
  · rw [if_neg hs]
    rcases min_choice (limit : ℚ) (rate.tokens + limit / 10000 * (s - rate.lastRefill)) with hm | hm
    · rw [hm]
      exact (min_le_left _ _).trans (by linarith)
    · rw [hm]
      exact (min_le_right _ _).trans (by linarith)

/-- More than a token is never owed, and more than the limit never saved. -/
structure Sound (limit : Nat) (rate : Rate) : Prop where
  owed : -1 ≤ rate.tokens
  saved : rate.tokens ≤ limit

theorem Sound.level (h : Sound limit rate) (t : ℚ) : -1 ≤ level limit rate t ∧ level limit rate t ≤ limit := by
  unfold RateLimits.level
  split
  · exact ⟨h.owed, h.saved⟩
  · rename_i ht
    have hgain := gain_nonneg limit (le_of_not_ge ht)
    have hlimit : (0 : ℚ) ≤ limit := Nat.cast_nonneg limit
    exact ⟨le_min (by linarith) (by linarith [h.owed]), min_le_left _ _⟩

/-- **A message takes its token from what the bucket has at its time.** -/
theorem level_handleMessage (cfg : Config) (h : Sound limit rate) (a : Arrival) :
    Sound limit (handleMessage cfg limit rate a).2 ∧
      level limit (handleMessage cfg limit rate a).2 a.time =
        level limit rate a.time - if accepts cfg limit rate a then 1 else 0 := by
  unfold handleMessage accepts
  by_cases hd : a.dropped cfg = true
  · simp [hd, h]
  have hnow := le_lastRefill limit rate a.time
  have htokens := tokens_refillTokens limit rate a.time
  obtain ⟨howed, hsaved⟩ := h.level a.time
  by_cases ht : (refillTokens limit a.time rate).tokens ≤ 0
  · simp only [hd, ht, if_true, Bool.false_eq_true, if_false, not_lt.2 ht, decide_false, Bool.and_false, sub_zero]
    rw [level_of_le hnow, htokens]
    exact ⟨⟨by rw [htokens]; exact howed, by rw [htokens]; exact hsaved⟩, rfl⟩
  · simp only [hd, ht, Bool.false_eq_true, if_false, not_le.1 ht, decide_true, Bool.not_false, Bool.and_true, if_true]
    rw [level_of_le (by exact hnow), htokens]
    rw [htokens] at ht
    exact ⟨⟨by dsimp only; linarith, by dsimp only; linarith⟩, rfl⟩

theorem mem_acceptedTimes {t : Int} : ∀ {arrivals : List Arrival} {rate : Rate},
    t ∈ acceptedTimes cfg limit rate arrivals → ∃ a ∈ arrivals, a.time = t
  | [], _, h => by cases h
  | a :: rest, rate, h => by
    rcases List.mem_append.1 h with h | h
    · split at h
      · exact ⟨a, by simp, (List.mem_singleton.1 h).symm⟩
      · cases h
    · obtain ⟨b, hb, ht⟩ := mem_acceptedTimes h
      exact ⟨b, by simp [hb], ht⟩

/-- **From a time on, no more messages are accepted than the bucket holds then, what it gains, and one.** -/
theorem countP_acceptedTimes_le (cfg : Config) {limit : Nat} {stop : ℚ} : ∀ {arrivals : List Arrival} {rate : Rate}
    {now : ℚ}, Sound limit rate → now ≤ stop → (∀ a ∈ arrivals, now ≤ a.time) →
    arrivals.Pairwise (fun a b => a.time ≤ b.time) →
    ((acceptedTimes cfg limit rate arrivals).countP (fun t : Int => decide ((t : ℚ) ≤ stop)) : ℚ) ≤
      level limit rate now + 1 + limit / 10000 * (stop - now)
  | [], rate, now, hs, hle, _, _ => by
    have := (hs.level now).1
    have := gain_nonneg limit hle
    simp only [acceptedTimes, List.countP_nil, Nat.cast_zero]
    linarith
  | a :: rest, rate, now, hs, hle, hlate, hsorted => by
    obtain ⟨hs', hlevel⟩ := level_handleMessage cfg hs a
    obtain ⟨hrest, hsorted'⟩ := List.pairwise_cons.1 hsorted
    have hnow : now ≤ a.time := hlate a (by simp)
    have hrest' : ∀ b ∈ rest, (a.time : ℚ) ≤ b.time := fun b hb => by exact_mod_cast hrest b hb
    by_cases hstop : (a.time : ℚ) ≤ stop
    · have ih := countP_acceptedTimes_le cfg hs' hstop hrest' hsorted'
      rw [hlevel] at ih
      simp only [acceptedTimes, List.countP_append, Nat.cast_add]
      have hgain := level_le_add limit rate hnow
      split at ih
      · rename_i ha
        rw [if_pos ha, List.countP_singleton, if_pos (by simpa using hstop)]
        push_cast
        linarith
      · rename_i ha
        rw [if_neg ha]
        simp only [List.countP_nil, Nat.cast_zero]
        linarith
    · have hnone : ((acceptedTimes cfg limit rate (a :: rest)).countP fun t : Int => decide ((t : ℚ) ≤ stop)) = 0 := by
        rw [List.countP_eq_zero]
        intro t ht
        obtain ⟨b, hb, rfl⟩ := mem_acceptedTimes ht
        have hlater : (a.time : ℚ) ≤ b.time := by
          rcases List.mem_cons.1 hb with rfl | hb
          · exact le_refl _
          · exact hrest' b hb
        simp only [decide_eq_true_eq, not_le]
        exact (not_le.1 hstop).trans_le hlater
      rw [hnone]
      have := (hs.level now).1
      have := gain_nonneg limit hle
      push_cast
      linarith

/-- Those that come before a time have only the bucket in common with those after. -/
theorem countP_within_le (cfg : Config) {limit : Nat} {start stop : ℚ} (hle : start ≤ stop) :
    ∀ {arrivals : List Arrival} {rate : Rate}, Sound limit rate →
      arrivals.Pairwise (fun a b => a.time ≤ b.time) →
      ((acceptedTimes cfg limit rate arrivals).countP (fun t : Int => decide (start ≤ t ∧ t ≤ stop)) : ℚ) ≤
        limit + 1 + limit / 10000 * (stop - start)
  | [], rate, _, _ => by
    have : (0 : ℚ) ≤ limit := Nat.cast_nonneg limit
    have := gain_nonneg limit hle
    simp only [acceptedTimes, List.countP_nil, Nat.cast_zero]
    linarith
  | a :: rest, rate, hs, hsorted => by
    obtain ⟨hrest, hsorted'⟩ := List.pairwise_cons.1 hsorted
    by_cases hstart : start ≤ a.time
    · have hlate : ∀ b ∈ a :: rest, start ≤ b.time := by
        intro b hb
        rcases List.mem_cons.1 hb with rfl | hb
        · exact hstart
        · have : (a.time : ℚ) ≤ b.time := by exact_mod_cast hrest b hb
          exact hstart.trans this
      have hall := countP_acceptedTimes_le cfg hs hle hlate hsorted
      have hmono : ((acceptedTimes cfg limit rate (a :: rest)).countP
          (fun t : Int => decide (start ≤ t ∧ t ≤ stop))) ≤
            (acceptedTimes cfg limit rate (a :: rest)).countP fun t : Int => decide ((t : ℚ) ≤ stop) :=
        List.countP_mono_left fun t _ ht => by simp only [decide_eq_true_eq] at ht ⊢; exact ht.2
      have hmono' := (Nat.cast_le (α := ℚ)).2 hmono
      have := (hs.level start).2
      linarith
    · have ih := countP_within_le cfg hle (level_handleMessage cfg hs a).1 hsorted'
      rw [acceptedTimes, List.countP_append]
      have hnone : ((if accepts cfg limit rate a then [a.time] else []).countP fun t : Int =>
          decide (start ≤ t ∧ t ≤ stop)) = 0 := by
        split
        · rw [List.countP_singleton, if_neg (by simp [hstart])]
        · rfl
      rw [hnone, zero_add]
      exact ih

/-- **The bucket of a connection, from when it is set up**: in any time it accepts one message more than the limit and
what it gains in it, at most. -/
theorem bucket_accepts_le (cfg : Config) (limit : Nat) (setup : Int) (arrivals : List Arrival)
    (hsorted : arrivals.Pairwise fun a b => a.time ≤ b.time) (start stop : ℚ) (hle : start ≤ stop) :
    ((acceptedTimes cfg limit ⟨limit, setup⟩ arrivals).countP (fun t : Int => decide (start ≤ t ∧ t ≤ stop)) : ℚ) ≤
      limit + 1 + limit * (stop - start) / 10000 := by
  have hlimit : (0 : ℚ) ≤ limit := Nat.cast_nonneg limit
  have hfull : Sound limit ⟨limit, setup⟩ := ⟨by dsimp only; linarith, le_refl _⟩
  have h := countP_within_le cfg hle hfull hsorted
  calc _ ≤ (limit : ℚ) + 1 + limit / 10000 * (stop - start) := h
    _ = limit + 1 + limit * (stop - start) / 10000 := by ring

/-- A client that sends without a pause. -/
def burst : List Arrival := [0, 5, 10, 15].map fun time => ⟨time, Sample.player Sample.hostId, [], ⟨100, none⟩⟩

theorem bucket_accepts_le_burst :
    ((acceptedTimes Sample.config 2 ⟨(2 : Nat), 0⟩ burst).countP
      (fun t : Int => decide ((0 : ℚ) ≤ t ∧ (t : ℚ) ≤ 15)) : ℚ) ≤ (2 : Nat) + 1 + (2 : Nat) * (15 - 0) / 10000 :=
  bucket_accepts_le Sample.config 2 0 burst (by decide) 0 15 (by norm_num)

end

/-! ## The map of this process -/

/-- An entry of `fallback`. -/
structure Entry (κ : Type) where
  key : κ
  count : Nat
  expiresAt : Int
  deriving DecidableEq

structure Limiter (κ : Type) where
  fallback : List (Entry κ) := []
  lastSweep : Int := 0

/-- A call of the limiter while Redis is out of reach. -/
structure Call (κ : Type) where
  key : κ
  limit : Nat
  periodSeconds : Nat
  time : Int

def Limiter.sweep {κ : Type} (s : Limiter κ) (now : Int) : Limiter κ :=
  if 60000 < now - s.lastSweep then ⟨s.fallback.filter (now < ·.expiresAt), now⟩ else s

section

variable {κ : Type} {s : Limiter κ} {e : Entry κ}

theorem mem_sweep (now : Int) (he : e ∈ (s.sweep now).fallback) : e ∈ s.fallback := by
  unfold Limiter.sweep at he
  split at he
  · exact (List.mem_filter.1 he).1
  · exact he

theorem length_sweep_le (s : Limiter κ) (now : Int) : (s.sweep now).fallback.length ≤ s.fallback.length := by
  unfold Limiter.sweep
  split
  · exact List.length_filter_le _ _
  · exact le_refl _

/-- **The sweep takes expired entries only.** -/
theorem mem_sweep_of_lt {now : Int} (he : e ∈ s.fallback) (hlive : now < e.expiresAt) : e ∈ (s.sweep now).fallback := by
  unfold Limiter.sweep
  split
  · exact List.mem_filter.2 ⟨he, by simpa using hlive⟩
  · exact he

end

section

variable {κ : Type} [DecidableEq κ]

namespace Limiter

def get (s : Limiter κ) (key : κ) : Option (Entry κ) := s.fallback.find? (·.key = key)

/-- A window begins with the call. -/
def opens (s : Limiter κ) (c : Call κ) : Bool :=
  match s.get c.key with
  | some existing => existing.expiresAt ≤ c.time
  | none => true

/-- The entry of the call's window, before the call is counted. -/
def entry (s : Limiter κ) (c : Call κ) : Entry κ :=
  match s.get c.key with
  | some existing => if existing.expiresAt ≤ c.time then ⟨c.key, 0, c.time + c.periodSeconds * 1000⟩ else existing
  | none => ⟨c.key, 0, c.time + c.periodSeconds * 1000⟩

/-- `!existing && fallback.size >= 10000` -/
def full (s : Limiter κ) (c : Call κ) : Bool := (s.get c.key).isNone && decide (10000 ≤ s.fallback.length)

/-- The entry with the call counted. -/
def counted (s : Limiter κ) (c : Call κ) : Entry κ := { s.entry c with count := (s.entry c).count + 1 }

def allowFallback (s : Limiter κ) (c : Call κ) : Bool × Limiter κ :=
  let s := s.sweep c.time
  if s.full c then (false, s)
  else ((s.counted c).count ≤ c.limit, { s with fallback := Client.mapSet Entry.key s.fallback (s.counted c) })

end Limiter

/-- A call that was allowed, with the number of its window and when that expires. -/
structure Allowed (κ : Type) where
  key : κ
  time : Int
  window : Nat
  expiresAt : Int

/-- The limiter; the rest is history: the keys of the windows that began, and the calls allowed, the last first. -/
structure History (κ : Type) where
  limiter : Limiter κ := {}
  opened : List κ := []
  allowed : List (Allowed κ) := []

namespace History

/-- The windows of a key so far. -/
def windows (h : History κ) (key : κ) : Nat := h.opened.count key

def step (h : History κ) (c : Call κ) : History κ :=
  let s := h.limiter.sweep c.time
  let r := h.limiter.allowFallback c
  let opened := if !s.full c && s.opens c then c.key :: h.opened else h.opened
  { limiter := r.2
    opened
    allowed :=
      if r.1 then ⟨c.key, c.time, opened.count c.key, (s.entry c).expiresAt⟩ :: h.allowed else h.allowed }

def run (h : History κ) (calls : List (Call κ)) : History κ := calls.foldl step h

/-- The calls for a key that were allowed in a window of it. -/
def inWindow (h : History κ) (key : κ) (window : Nat) : Nat :=
  h.allowed.countP fun r => decide (r.key = key ∧ r.window = window)

/-- … and in a time. -/
def within (h : History κ) (key : κ) (start stop : ℚ) : Nat :=
  h.allowed.countP fun r => decide (r.key = key ∧ start ≤ r.time ∧ r.time < stop)

end History

/-! ## What a call does -/

section

variable {s : Limiter κ} {h : History κ} {c : Call κ} {key : κ} {e : Entry κ}

theorem mem_of_get (hg : s.get key = some e) : e ∈ s.fallback ∧ e.key = key :=
  ⟨List.mem_of_find?_eq_some hg, by simpa using List.find?_some hg⟩

theorem key_ne_of_get (hg : s.get key = none) : ∀ e ∈ s.fallback, e.key ≠ key := by
  intro e he hk
  exact absurd (List.find?_eq_none.1 hg e he) (by simp [hk])

theorem mem_mapSet_of_ne {l : List (Entry κ)} {a : Entry κ} (he : e ∈ l) (hne : e.key ≠ a.key) :
    e ∈ Client.mapSet Entry.key l a := by
  unfold Client.mapSet
  split
  · exact List.mem_map.2 ⟨e, he, if_neg hne⟩
  · exact List.mem_append_left _ he

theorem self_mem_mapSet (l : List (Entry κ)) (a : Entry κ) : a ∈ Client.mapSet Entry.key l a := by
  unfold Client.mapSet
  split
  · rename_i hany
    obtain ⟨b, hb, hk⟩ := List.any_eq_true.1 hany
    exact List.mem_map.2 ⟨b, hb, if_pos (by simpa using hk)⟩
  · simp

theorem length_mapSet (l : List (Entry κ)) (a : Entry κ) :
    (Client.mapSet Entry.key l a).length = if l.any (·.key = a.key) then l.length else l.length + 1 := by
  unfold Client.mapSet
  split <;> simp

/-- A call that is refused because the map is full leaves what the sweep leaves. -/
theorem step_of_full (hf : (h.limiter.sweep c.time).full c = true) :
    h.step c = { h with limiter := h.limiter.sweep c.time } := by
  unfold History.step Limiter.allowFallback
  simp [hf]

/-- The entry of a call that is counted: its own key's, where that has not expired, and a new one otherwise. -/
theorem entry_cases (s : Limiter κ) (c : Call κ) :
    (s.opens c = false ∧ s.entry c ∈ s.fallback ∧ (s.entry c).key = c.key ∧ c.time < (s.entry c).expiresAt) ∨
    (s.opens c = true ∧ s.entry c = ⟨c.key, 0, c.time + c.periodSeconds * 1000⟩ ∧
      ((∀ e ∈ s.fallback, e.key ≠ c.key) ∨ ∃ e ∈ s.fallback, e.key = c.key ∧ e.expiresAt ≤ c.time)) := by
  unfold Limiter.opens Limiter.entry
  cases hg : s.get c.key with
  | none => exact .inr ⟨rfl, rfl, .inl (key_ne_of_get hg)⟩
  | some existing =>
    obtain ⟨hmem, hkey⟩ := mem_of_get hg
    by_cases hx : existing.expiresAt ≤ c.time
    · exact .inr ⟨by simpa using hx, by simp [hx], .inr ⟨existing, hmem, hkey, hx⟩⟩
    · exact .inl ⟨by simpa using hx, by simpa [hx] using hmem, by simpa [hx] using hkey, by simp [hx]; omega⟩

/-- A call that is counted. -/
theorem step_of_counted (hf : (h.limiter.sweep c.time).full c = false) :
    h.step c =
      let s := h.limiter.sweep c.time
      let opened := if s.opens c then c.key :: h.opened else h.opened
      { limiter := { s with fallback := Client.mapSet Entry.key s.fallback (s.counted c) }
        opened
        allowed :=
          if (s.counted c).count ≤ c.limit then
            ⟨c.key, c.time, opened.count c.key, (s.entry c).expiresAt⟩ :: h.allowed
          else h.allowed } := by
  unfold History.step Limiter.allowFallback
  simp [hf]

theorem key_entry (s : Limiter κ) (c : Call κ) : (s.entry c).key = c.key := by
  rcases entry_cases s c with ⟨-, -, hk, -⟩ | ⟨-, he, -⟩
  · exact hk
  · rw [he]

/-- **The map never holds more than 10000 entries.** -/
theorem length_step_le (hle : h.limiter.fallback.length ≤ 10000) (c : Call κ) :
    (h.step c).limiter.fallback.length ≤ 10000 := by
  have hswept := (length_sweep_le h.limiter c.time).trans hle
  by_cases hf : (h.limiter.sweep c.time).full c = true
  · rw [step_of_full hf]
    exact hswept
  · rw [step_of_counted (by simpa using hf)]
    dsimp only
    rw [length_mapSet]
    split
    · exact hswept
    · rename_i hnew
      -- a key the map has not: there was room for it
      have hnone : ((h.limiter.sweep c.time).get c.key).isNone = true := by
        cases hg : (h.limiter.sweep c.time).get c.key with
        | none => rfl
        | some existing =>
          obtain ⟨hmem, hkey⟩ := mem_of_get hg
          refine absurd (List.any_eq_true.2 ⟨existing, hmem, ?_⟩) hnew
          simp [Limiter.counted, key_entry, hkey]
      simp only [Limiter.full, hnone, Bool.true_and, decide_eq_true_eq] at hf
      omega

theorem get_sweep {now : Int} (hg : s.get key = some e) (hlive : now < e.expiresAt) :
    (s.sweep now).get key = some e := by
  unfold Limiter.sweep
  split
  · obtain ⟨hkey, before, after, hsplit, hbefore⟩ := List.find?_eq_some_iff_append.1 hg
    refine List.find?_eq_some_iff_append.2 ⟨hkey, before.filter (now < ·.expiresAt), after.filter (now < ·.expiresAt), ?_,
      fun b hb => hbefore b (List.mem_filter.1 hb).1⟩
    rw [hsplit, List.filter_append, List.filter_cons_of_pos (by simpa using hlive)]
  · exact hg

theorem find?_mapSet_of_ne {a : Entry κ} (hne : a.key ≠ key) (l : List (Entry κ)) :
    (Client.mapSet Entry.key l a).find? (·.key = key) = l.find? (·.key = key) := by
  unfold Client.mapSet
  split
  · rw [List.find?_map]
    have hsame : ((fun b : Entry κ => decide (b.key = key)) ∘ fun b => if b.key = a.key then a else b) =
        fun b => decide (b.key = key) := by
      funext b
      by_cases hb : b.key = a.key <;> simp [hb]
    rw [hsame]
    cases hf : l.find? (·.key = key) with
    | none => rfl
    | some b =>
      have hb : b.key = key := by simpa using List.find?_some hf
      simp [hb, hne.symm]
  · rw [List.find?_append, List.find?_cons_of_neg (by simpa using hne), List.find?_nil, Option.or_none]

/-- **A call leaves the unexpired entry of another key as it is.** -/
theorem get_step (hg : h.limiter.get key = some e) (hlive : c.time < e.expiresAt) (hne : c.key ≠ key) :
    (h.step c).limiter.get key = some e := by
  have hswept := get_sweep hg hlive
  by_cases hf : (h.limiter.sweep c.time).full c = true
  · rw [step_of_full hf]
    exact hswept
  · rw [step_of_counted (by simpa using hf)]
    exact (find?_mapSet_of_ne (by simpa [Limiter.counted, key_entry] using hne) _).trans hswept

end

/-! ## The windows of a key -/

/-- What holds of a key that is always called with the limit `limit` and a period of `period` milliseconds, up to the
time `now`.  Windows are at least a period apart. -/
structure Fixed (key : κ) (limit : Nat) (period now : Int) (h : History κ) : Prop where
  numbered : ∀ r ∈ h.allowed, r.key = key → r.window ≤ h.windows key
  span : ∀ r ∈ h.allowed, r.key = key → (0 < period → r.time < r.expiresAt) ∧ r.expiresAt ≤ r.time + period
  apart : ∀ r ∈ h.allowed, ∀ r' ∈ h.allowed, r.key = key → r'.key = key → r.window < r'.window →
    r.expiresAt + ((r'.window : Int) - r.window) * period ≤ r'.expiresAt
  limited : ∀ window, h.inWindow key window ≤ limit
  current : ∀ e ∈ h.limiter.fallback, e.key = key → e.expiresAt ≤ now + period ∧
    h.inWindow key (h.windows key) ≤ e.count ∧
    ∀ r ∈ h.allowed, r.key = key → r.expiresAt + ((h.windows key : Int) - r.window) * period ≤ e.expiresAt
  gone : (∀ e ∈ h.limiter.fallback, e.key ≠ key) →
    ∀ r ∈ h.allowed, r.key = key → r.expiresAt + ((h.windows key : Int) - r.window) * period ≤ now

section

variable {h : History κ} {key : κ} {limit : Nat} {period now : Int} {c : Call κ}

theorem fixed_sweep (hf : Fixed key limit period now h) {later : Int} (hle : now ≤ later) :
    Fixed key limit period later { h with limiter := h.limiter.sweep later } := by
  refine ⟨hf.numbered, hf.span, hf.apart, hf.limited, fun e he hk => ?_, fun hgone r hr hk => ?_⟩
  · obtain ⟨hnow, hcount, hlast⟩ := hf.current e (mem_sweep later he) hk
    exact ⟨by omega, hcount, hlast⟩
  · by_cases hnone : ∀ e ∈ h.limiter.fallback, e.key ≠ key
    · exact (hf.gone hnone r hr hk).trans hle
    · -- the entry was swept, so it had expired
      simp only [not_forall, not_not] at hnone
      obtain ⟨e, he, hek⟩ := hnone
      have hexpired : e.expiresAt ≤ later := not_lt.1 fun hlive => hgone e (mem_sweep_of_lt he hlive) hek
      exact ((hf.current e he hek).2.2 r hr hk).trans hexpired

theorem inWindow_eq (h : History κ) (key : κ) (window : Nat) :
    h.inWindow key window = (h.allowed.filter (·.key = key)).countP (·.window = window) := by
  rw [List.countP_filter]
  exact List.countP_congr fun r _ => by simp [and_comm]

/-- What holds of a key hangs on its own calls, windows and entry. -/
theorem Fixed.congr (hf : Fixed key limit period now h) {h' : History κ}
    (hallowed : h'.allowed.filter (·.key = key) = h.allowed.filter (·.key = key))
    (hwindows : h'.windows key = h.windows key)
    (hentries : ∀ e : Entry κ, e.key = key → (e ∈ h'.limiter.fallback ↔ e ∈ h.limiter.fallback)) :
    Fixed key limit period now h' := by
  have hmem : ∀ r ∈ h'.allowed, r.key = key → r ∈ h.allowed := by
    intro r hr hk
    have : r ∈ h'.allowed.filter (·.key = key) := List.mem_filter.2 ⟨hr, by simpa using hk⟩
    rw [hallowed] at this
    exact (List.mem_filter.1 this).1
  have hin : ∀ window, h'.inWindow key window = h.inWindow key window := by
    intro window
    rw [inWindow_eq, inWindow_eq, hallowed]
  refine ⟨fun r hr hk => ?_, fun r hr hk => hf.span r (hmem r hr hk) hk, fun r hr r' hr' hk hk' =>
    hf.apart r (hmem r hr hk) r' (hmem r' hr' hk') hk hk', fun window => ?_, fun e he hk => ?_, fun hgone r hr hk => ?_⟩
  · rw [hwindows]
    exact hf.numbered r (hmem r hr hk) hk
  · rw [hin]
    exact hf.limited window
  · rw [hwindows, hin]
    obtain ⟨hnow, hcount, hlast⟩ := hf.current e ((hentries e hk).1 he) hk
    exact ⟨hnow, hcount, fun r hr hrk => hlast r (hmem r hr hrk) hrk⟩
  · rw [hwindows]
    exact hf.gone (fun e he hek => hgone e ((hentries e hek).2 he) hek) r (hmem r hr hk) hk

/-- A call for another key. -/
theorem fixed_other (hf : Fixed key limit period now h) (hne : c.key ≠ key)
    (hroom : (h.limiter.sweep c.time).full c = false) (hle : now ≤ c.time) :
    Fixed key limit period c.time (h.step c) := by
  have hswept := fixed_sweep hf hle
  rw [step_of_counted hroom]
  refine hswept.congr ?_ ?_ fun e hek => ?_
  · dsimp only
    split
    · rw [List.filter_cons_of_neg (by simpa using hne)]
    · rfl
  · unfold History.windows
    dsimp only
    split
    · rw [List.count_cons_of_ne (by exact hne)]
    · rfl
  · constructor
    · intro he
      rcases Client.mem_mapSet he with rfl | ⟨he, -⟩
      · exact absurd ((key_entry _ c).symm.trans hek) hne
      · exact he
    · exact fun he => mem_mapSet_of_ne he (by rw [hek]; simpa [Limiter.counted, key_entry] using hne.symm)

/-- A call for the key itself is counted in an entry `e`, in the window `window`. -/
theorem fixed_counted (hf : Fixed key limit period now h) (e : Entry κ) (opened : List κ) (hkey : e.key = key)
    (hspan : (0 < period → now < e.expiresAt) ∧ e.expiresAt ≤ now + period)
    (hcount : h.inWindow key (opened.count key) ≤ e.count)
    (hlast : ∀ r ∈ h.allowed, r.key = key → r.window ≤ opened.count key ∧
      r.expiresAt + ((opened.count key : Int) - r.window) * period ≤ e.expiresAt) :
    Fixed key limit period now
      { limiter :=
          { h.limiter with fallback := Client.mapSet Entry.key h.limiter.fallback ⟨e.key, e.count + 1, e.expiresAt⟩ }
        opened
        allowed :=
          if e.count + 1 ≤ limit then ⟨key, now, opened.count key, e.expiresAt⟩ :: h.allowed else h.allowed } := by
  subst hkey
  -- the map has one entry of the key, the one that counts the call
  have hone : ∀ e' ∈ Client.mapSet Entry.key h.limiter.fallback ⟨e.key, e.count + 1, e.expiresAt⟩, e'.key = e.key →
      e' = ⟨e.key, e.count + 1, e.expiresAt⟩ := by
    intro e' he' hk
    rcases Client.mem_mapSet he' with rfl | ⟨-, hne⟩
    · rfl
    · exact absurd hk hne
  have hself := self_mem_mapSet h.limiter.fallback ⟨e.key, e.count + 1, e.expiresAt⟩
  by_cases hl : e.count + 1 ≤ limit
  · rw [if_pos hl]
    have hin : ∀ window, (History.inWindow ⟨h.limiter, h.opened,
        ⟨e.key, now, opened.count e.key, e.expiresAt⟩ :: h.allowed⟩ e.key window) =
          h.inWindow e.key window + if opened.count e.key = window then 1 else 0 := by
      intro window
      unfold History.inWindow
      simp [List.countP_cons]
    refine ⟨fun r hr hk => ?_, fun r hr hk => ?_, fun r hr r' hr' hk hk' hlt => ?_, fun window => ?_,
      fun e' he' hk => ?_, fun hgone => absurd rfl (hgone ⟨e.key, e.count + 1, e.expiresAt⟩ hself)⟩
    · rcases List.mem_cons.1 hr with rfl | hr
      · exact le_refl _
      · exact (hlast r hr hk).1
    · rcases List.mem_cons.1 hr with rfl | hr
      · exact hspan
      · exact hf.span r hr hk
    · rcases List.mem_cons.1 hr with rfl | hr
      · rcases List.mem_cons.1 hr' with rfl | hr'
        · exact absurd hlt (lt_irrefl _)
        · exact absurd ((hlast r' hr' hk').1) (not_le.2 hlt)
      · rcases List.mem_cons.1 hr' with rfl | hr'
        · exact (hlast r hr hk).2
        · exact hf.apart r hr r' hr' hk hk' hlt
    · refine (hin window).trans_le ?_
      split
      · rename_i hw
        subst hw
        omega
      · exact hf.limited window
    · rw [hone e' he' hk]
      refine ⟨hspan.2, ?_, fun r hr hrk => ?_⟩
      · refine (hin (opened.count e.key)).trans_le ?_
        rw [if_pos rfl]
        exact Nat.add_le_add_right hcount 1
      · rcases List.mem_cons.1 hr with rfl | hr
        · simp [History.windows]
        · exact (hlast r hr hrk).2
  · rw [if_neg hl]
    refine ⟨fun r hr hk => (hlast r hr hk).1, hf.span, hf.apart, hf.limited, fun e' he' hk => ?_,
      fun hgone => absurd rfl (hgone ⟨e.key, e.count + 1, e.expiresAt⟩ hself)⟩
    rw [hone e' he' hk]
    exact ⟨hspan.2, Nat.le_succ_of_le hcount, fun r hr hrk => (hlast r hr hrk).2⟩

theorem fixed_step (hf : Fixed key limit period now h) (hle : now ≤ c.time)
    (hfixed : c.key = key → c.limit = limit ∧ (c.periodSeconds : Int) * 1000 = period) :
    Fixed key limit period c.time (h.step c) := by
  have hswept := fixed_sweep hf hle
  by_cases hroom : (h.limiter.sweep c.time).full c = true
  · rw [step_of_full hroom]
    exact hswept
  replace hroom : (h.limiter.sweep c.time).full c = false := by simpa using hroom
  by_cases hk : c.key = key
  swap
  · exact fixed_other hf hk hroom hle
  obtain ⟨rfl, rfl⟩ := hfixed hk
  subst hk
  rw [step_of_counted hroom]
  generalize h.limiter.sweep c.time = s at *
  rcases entry_cases s c with ⟨ho, hmem, hkey, hlive⟩ | ⟨ho, he, hend⟩
  · obtain ⟨hnow, hcount, hlast⟩ := hswept.current _ hmem hkey
    have h' := fixed_counted hswept (s.entry c) h.opened hkey ⟨fun _ => hlive, hnow⟩ hcount
      fun r hr hrk => ⟨hswept.numbered r hr hrk, hlast r hr hrk⟩
    dsimp only
    rw [ho]
    exact h'
  · have hbefore : ∀ r ∈ h.allowed, r.key = c.key →
        r.expiresAt + ((h.windows c.key : Int) - r.window) * (c.periodSeconds * 1000) ≤ c.time := by
      rcases hend with hnone | ⟨e, hemem, hek, hexpired⟩
      · exact hswept.gone hnone
      · exact fun r hr hrk => ((hswept.current e hemem hek).2.2 r hr hrk).trans hexpired
    have hcount : (c.key :: h.opened).count c.key = h.windows c.key + 1 := List.count_cons_self
    have hfresh : History.inWindow ⟨s, h.opened, h.allowed⟩ c.key (h.windows c.key + 1) = 0 := by
      refine List.countP_eq_zero.2 fun r hr hin => ?_
      obtain ⟨hrk, hw⟩ := of_decide_eq_true hin
      have : r.window ≤ h.windows c.key := hswept.numbered r hr hrk
      omega
    have h' := fixed_counted hswept (s.entry c) (c.key :: h.opened) (key_entry s c)
      (by rw [he]; exact ⟨fun hp => by dsimp only; omega, le_refl _⟩) (by rw [hcount, hfresh]; exact Nat.zero_le _)
      fun r hr hrk => ?_
    · dsimp only
      rw [ho]
      exact h'
    · have hlt := hbefore r hr hrk
      have hnum : r.window ≤ h.windows c.key := hswept.numbered r hr hrk
      rw [hcount, he]
      refine ⟨by omega, ?_⟩
      push_cast
      linarith

theorem fixed_run : ∀ {calls : List (Call κ)} {h : History κ} {now : Int}, Fixed key limit period now h →
    (∀ c ∈ calls, now ≤ c.time) →
    (∀ c ∈ calls, c.key = key → c.limit = limit ∧ (c.periodSeconds : Int) * 1000 = period) →
    calls.Pairwise (fun a b => a.time ≤ b.time) → ∃ later, Fixed key limit period later (h.run calls)
  | [], _, now, hf, _, _, _ => ⟨now, hf⟩
  | c :: rest, h, _, hf, hlate, hfixed, hsorted => by
    change ∃ later, Fixed key limit period later ((h.step c).run rest)
    obtain ⟨hrest, hsorted'⟩ := List.pairwise_cons.1 hsorted
    exact fixed_run (fixed_step hf (hlate c (by simp)) (hfixed c (by simp))) hrest
      (fun d hd => hfixed d (by simp [hd])) hsorted'

theorem fixed_empty (key : κ) (limit : Nat) (period now : Int) : Fixed key limit period now {} :=
  ⟨by simp, by simp, by simp, by simp [History.inWindow], by simp, by simp⟩

theorem length_run_le : ∀ (calls : List (Call κ)) {h : History κ}, h.limiter.fallback.length ≤ 10000 →
    (h.run calls).limiter.fallback.length ≤ 10000
  | [], _, hle => hle
  | c :: rest, _, hle => length_run_le rest (length_step_le hle c)

theorem countP_le_add {α : Type} {p q r : α → Bool} : ∀ {l : List α}, (∀ a ∈ l, p a = true → q a = true ∨ r a = true) →
    l.countP p ≤ l.countP q + l.countP r
  | [], _ => Nat.le_refl 0
  | a :: l, h => by
    have ih := countP_le_add fun b hb => h b (List.mem_cons_of_mem a hb)
    have ha := h a (by simp)
    rw [List.countP_cons, List.countP_cons, List.countP_cons]
    split
    · rename_i hp
      rcases ha hp with hq | hr
      · rw [if_pos hq]
        omega
      · rw [if_pos hr]
        omega
    · omega

/-- **A time of one period meets two windows at most.** -/
theorem within_le (hf : Fixed key limit period now h) (start : ℚ) : h.within key start (start + period) ≤ 2 * limit := by
  by_cases hex : ∃ w, ∃ r ∈ h.allowed, r.key = key ∧ start ≤ r.time ∧ (r.time : ℚ) < start + period ∧ r.window = w
  · classical
    obtain ⟨first, ⟨r, hr, hk, hstart, hstop, hw⟩, hmin⟩ : ∃ w, (∃ r ∈ h.allowed, r.key = key ∧ start ≤ r.time ∧
        (r.time : ℚ) < start + period ∧ r.window = w) ∧ ∀ r ∈ h.allowed, r.key = key → start ≤ r.time →
          (r.time : ℚ) < start + period → w ≤ r.window :=
      ⟨Nat.find hex, Nat.find_spec hex, fun r hr hk h1 h2 => Nat.find_min' hex ⟨r, hr, hk, h1, h2, rfl⟩⟩
    have hpos : 0 < period := by
      have : (0 : ℚ) < period := by linarith
      exact_mod_cast this
    have htwo : h.within key start (start + period) ≤ h.inWindow key first + h.inWindow key (first + 1) := by
      refine countP_le_add fun r' hr' hin => ?_
      obtain ⟨hk', hstart', hstop'⟩ := of_decide_eq_true hin
      have hge := hmin r' hr' hk' hstart' hstop'
      simp only [hk', true_and, decide_eq_true_eq]
      by_contra hfar
      -- a third window would begin a period after the first, behind the time
      have hapart := hf.apart r hr r' hr' hk hk' (by omega)
      have hlive := (hf.span r hr hk).1 hpos
      have hopen := (hf.span r' hr' hk').2
      have hgap : 2 * period ≤ ((r'.window : Int) - r.window) * period :=
        Int.mul_le_mul_of_nonneg_right (by omega) hpos.le
      have hlate : r.time + period < r'.time := by omega
      have hlate' : (r.time : ℚ) + period < r'.time := by exact_mod_cast hlate
      linarith
    have h1 := hf.limited first
    have h2 := hf.limited (first + 1)
    omega
  · have hnone : h.within key start (start + period) = 0 := by
      refine List.countP_eq_zero.2 fun r hr hin => hex ?_
      obtain ⟨hk, hstart, hstop⟩ := of_decide_eq_true hin
      exact ⟨r.window, r, hr, hk, hstart, hstop, rfl⟩
    rw [hnone]
    exact Nat.zero_le _

end

/-- **The limiter that stands in for Redis.**  The map is bounded; a key that is always called with one limit and one
period is allowed `limit` calls in each of its windows, and twice as many in any period; and a call leaves the unexpired
entries of the other keys as they are. -/
theorem fallback_limits (calls : List (Call κ)) (hsorted : calls.Pairwise fun a b => a.time ≤ b.time) :
    let h := ({} : History κ).run calls
    h.limiter.fallback.length ≤ 10000 ∧
      (∀ (key : κ) (limit periodSeconds : Nat),
        (∀ c ∈ calls, c.key = key → c.limit = limit ∧ c.periodSeconds = periodSeconds) →
        (∀ window, h.inWindow key window ≤ limit) ∧
          ∀ start : ℚ, h.within key start (start + periodSeconds * 1000) ≤ 2 * limit) ∧
      ∀ (c : Call κ) (e : Entry κ), h.limiter.get e.key = some e → c.key ≠ e.key → c.time < e.expiresAt →
        (h.step c).limiter.get e.key = some e := by
  intro h
  refine ⟨length_run_le calls (Nat.zero_le _), fun key limit periodSeconds hfixed => ?_,
    fun c e hg hne hlive => get_step hg hlive hne⟩
  have hcalls : ∀ c ∈ calls, c.key = key → c.limit = limit ∧ (c.periodSeconds : Int) * 1000 = periodSeconds * 1000 :=
    fun c hc hk => ⟨(hfixed c hc hk).1, by rw [(hfixed c hc hk).2]⟩
  obtain ⟨later, hf⟩ : ∃ later, Fixed key limit (periodSeconds * 1000) later h := by
    cases calls with
    | nil => exact ⟨0, fixed_empty key limit _ 0⟩
    | cons c rest =>
      refine fixed_run (fixed_empty key limit _ c.time) (fun d hd => ?_) hcalls hsorted
      rcases List.mem_cons.1 hd with rfl | hd
      · exact le_refl _
      · exact (List.pairwise_cons.1 hsorted).1 d hd
  refine ⟨hf.limited, fun start => ?_⟩
  have hwithin := within_le hf start
  push_cast at hwithin
  exact hwithin

end

/-- An address is over its limit, a room is not. -/
def outage : List (Call String) :=
  [⟨"msg-ip", 2, 10, 0⟩, ⟨"msg-room", 2, 10, 5⟩, ⟨"msg-ip", 2, 10, 6⟩, ⟨"msg-ip", 2, 10, 7⟩]

theorem fallback_limits_outage :
    (({} : History String).run outage).inWindow "msg-ip" 1 ≤ 2 ∧
      (({} : History String).run outage).within "msg-ip" 0 (0 + (10 : Nat) * 1000) ≤ 2 * 2 :=
  have h := (fallback_limits outage (by decide)).2.1 "msg-ip" 2 10 (by decide)
  ⟨h.1 1, h.2 0⟩

end RateLimits
end Signaling
end CloudGaming
