import CloudGaming.Async.Along
import CloudGaming.Async.Owned
import Mathlib.Data.Fin.VecNotation
/-!
# SampleBufPool — the buffers of the media samples, pooled by size

`getSampleBuf` and `putSampleBuf` are called by any number of goroutines at a time; a call is taken on by one access to
a `sync.Pool` or to a wrapper's data at a time.  A `sync.Pool` gives any of its items, or none, and drops items at any
time; every `make` makes an array of its own.
-/
namespace CloudGaming
namespace Host
namespace SampleBufPool

open Async

/-- A byte slice; `array` is history, the number of arrays made before its own, and `start` where it begins there. -/
structure Slice where
  array : Nat
  start : Nat
  len : Nat
  cap : Nat
  len_le : len ≤ cap
  deriving DecidableEq, Repr

/-- `make([]byte, size)`. -/
def Slice.make (array size : Nat) : Slice := ⟨array, 0, size, size, Nat.le_refl size⟩

/-- `b[:n]`; none where it panics. -/
def Slice.upTo (b : Slice) (n : Int) : Option Slice :=
  if h : 0 ≤ n ∧ n ≤ b.cap then some { b with
    len := n.toNat
    len_le := by omega } else none

/-- `b[:capacity]`, of the slice's own capacity. -/
def Slice.full (b : Slice) : Slice := { b with
  len := b.cap
  len_le := Nat.le_refl b.cap }

/-- The slice is `o`, up to its length. -/
def Slice.resliced (o b : Slice) : Bool := o.array = b.array ∧ o.start = b.start ∧ o.cap = b.cap

abbrev Tier := Fin 13

def sizes : Tier → Nat :=
  ![128, 256, 512, 1500, 4096, 8192, 16384, 32768, 65536, 131072, 262144, 524288, 1048576]

def preallocCounts : Tier → Nat := ![6, 6, 5, 4, 3, 2, 2, 1, 1, 1, 0, 0, 0]

def maxTierSize : Nat := sizes (Fin.last 12)

def getBufferTier (size : Int) : Tier := ((List.finRange 13).find? fun i => size ≤ sizes i).getD (Fin.last 12)

/-- The test by which a capacity goes to a tier of another size. -/
def near (capacity : Nat) (tier : Tier) : Bool := sizes tier / 2 ≤ capacity ∧ capacity ≤ sizes tier * 2

def smallerTier (tier : Tier) : Option Tier := if h : 0 < tier.val then some ⟨tier - 1, by omega⟩ else none

def largerTier (tier : Tier) : Option Tier := if h : tier.val < 12 then some ⟨tier + 1, by omega⟩ else none

/-- The tier to which `putSampleBuf` puts a buffer; none where it drops it. -/
def putTier (capacity : Nat) : Option Tier :=
  if capacity = 0 then none
  else if maxTierSize < capacity then none
  else
    let tier := getBufferTier capacity
    if capacity = sizes tier then some tier
    else if near capacity tier then some tier
    else ((smallerTier tier).filter (near capacity)).or ((largerTier tier).filter (near capacity))

/-- A call, by what it does next. -/
inductive Call where
  | getting (n : Int)
  | unwrapping (n : Int) (wrapper : Nat)
  | recycling (n : Int) (wrapper : Nat) (b : Option Slice)
  | checking (n : Int) (b : Option Slice)
  /-- `getSampleBuf(n)` has returned the slice, or has panicked. -/
  | got (n : Int) (b : Option Slice)
  | putting (tier : Tier) (b : Slice)
  | wrapping (tier : Tier) (b : Slice) (wrapper : Nat)
  | storing (tier : Tier) (wrapper : Nat)
  | done
  deriving DecidableEq, Repr

/-- `pools` has the wrappers of the thirteen pools, each with its tier, `wrappers` those of `pooledSliceWrappers`, and
`data` the data of every wrapper made.  `arrays` is history, and so is `outstanding`, what was got and not put since. -/
structure Pool where
  pools : List (Tier × Nat) := []
  wrappers : List Nat := []
  data : List (Option Slice) := []
  arrays : Nat := 0
  calls : List Call := []
  outstanding : List Slice := []
  deriving DecidableEq, Repr

/-- `pick` says what a `sync.Pool` gives or drops. -/
inductive Move where
  | get (n : Int)
  | put (b : Option Slice)
  | advance (i pick : Nat)
  | drop (pick : Nat)
  | dropWrapper (pick : Nat)
  deriving DecidableEq, Repr

namespace Pool

variable (s : Pool)

/-- A round of the loop of `initBufferPool`, when `pooledSliceWrappers` is empty. -/
def preallocate (tier : Tier) : Pool := { s with
  pools := (tier, s.data.length) :: s.pools
  data := s.data ++ [some (.make s.arrays (sizes tier))]
  arrays := s.arrays + 1 }

def call (i : Nat) (c : Call) : Pool := { s with calls := s.calls.set i c }

/-- `getSampleBuf` returns. -/
def answer (i : Nat) (n : Int) (b : Option Slice) : Pool := { s.call i (.got n b) with
  outstanding := b.toList ++ s.outstanding }

/-- `getSampleBuf` returns a slice of an array it has made. -/
def fresh (i : Nat) (n : Int) (b : Option Slice) : Pool := { s with arrays := s.arrays + 1 }.answer i n b

/-- A new buffer of the tier's size. -/
def miss (i : Nat) (n : Int) : Pool := s.fresh i n ((Slice.make s.arrays (sizes (getBufferTier n))).upTo n)

def capacity (b : Option Slice) : Nat := b.elim 0 Slice.cap

/-- What a call does next; `pick` says which item a `Get` takes. -/
def goOn (i pick : Nat) : Call → Pool
  | .getting n =>
    if n ≤ 0 then s.fresh i n (some (.make s.arrays 0))
    else if maxTierSize < n then s.fresh i n (some (.make s.arrays n.toNat))
    else
      -- Where there is no such item, or it is of another tier, the `Get` gives nil.
      match s.pools[pick]? with
      | some (tier, wrapper) =>
        if tier = getBufferTier n then { s.call i (.unwrapping n wrapper) with pools := s.pools.eraseIdx pick }
        else s.miss i n
      | none => s.miss i n
  | .unwrapping n wrapper =>
    { s.call i (.recycling n wrapper s.data[wrapper]?.join) with data := s.data.set wrapper none }
  | .recycling n wrapper b => { s.call i (.checking n b) with wrappers := wrapper :: s.wrappers }
  | .checking n b => if capacity b < n then s.miss i n else s.answer i n (b.bind (·.upTo n))
  | .putting tier b =>
    match s.wrappers[pick]? with
    | some wrapper => { s.call i (.wrapping tier b wrapper) with wrappers := s.wrappers.eraseIdx pick }
    | none => { s.call i (.wrapping tier b s.data.length) with data := s.data ++ [none] }
  | .wrapping tier b wrapper =>
    { s.call i (.storing tier wrapper) with data := s.data.set wrapper (some b.full) }
  | .storing tier wrapper => { s.call i .done with pools := (tier, wrapper) :: s.pools }
  | .got _ _ => s
  | .done => s

/-- `putSampleBuf` is called, and a slice given back. -/
def putSampleBuf (b : Slice) : Pool := { s with
  outstanding := s.outstanding.eraseP (·.resliced b)
  calls := s.calls ++ [match putTier b.cap with
    | some tier => .putting tier b
    | none => .done] }

end Pool

/-- A call that has returned is not gone on with. -/
def step (s : Pool) : Move → Option Pool
  | .get n => some { s with calls := s.calls ++ [.getting n] }
  | .put none => some { s with calls := s.calls ++ [.done] }
  | .put (some b) => some (s.putSampleBuf b)
  | .advance i pick => some (s.calls[i]?.elim s (s.goOn i pick))
  | .drop pick => some { s with pools := s.pools.eraseIdx pick }
  | .dropWrapper pick => some { s with wrappers := s.wrappers.eraseIdx pick }

def initBufferPool : Pool :=
  (List.finRange 13).foldl (fun s tier => (List.range (preallocCounts tier)).foldl (fun s _ => s.preallocate tier) s) {}

/-! ## Sizes and tiers -/

theorem le_sizes_getBufferTier {size : Int} (h : size ≤ maxTierSize) : size ≤ sizes (getBufferTier size) := by
  unfold getBufferTier
  cases hf : (List.finRange 13).find? fun i => decide (size ≤ sizes i) with
  | some i => simpa using List.find?_some hf
  | none => exact h

theorem getBufferTier_sizes (tier : Tier) : getBufferTier (sizes tier) = tier := by
  decide +revert

/-- A size of which there are pooled buffers. -/
def Tiered (n : Int) : Prop := 0 < n ∧ n ≤ maxTierSize

/-- A capacity `getSampleBuf` makes: none, one over every tier, or the size of a tier. -/
def Classed (cap : Nat) : Prop := cap = 0 ∨ maxTierSize < cap ∨ ∃ tier, cap = sizes tier

/-- **A buffer of such a capacity is put to the tier of its size**, or dropped. -/
theorem putTier_of_classed {cap : Nat} (h : Classed cap) {tier : Tier} (ht : putTier cap = some tier) :
    cap = sizes tier := by
  unfold putTier at ht
  split at ht
  · cases ht
  · rename_i hne
    split at ht
    · cases ht
    · rename_i hle
      obtain h0 | hmax | ⟨own, rfl⟩ := h
      · exact absurd h0 hne
      · exact absurd hmax hle
      · simp only [getBufferTier_sizes, if_true] at ht
        rw [Option.some.inj ht]

-- Of another capacity it can go to a tier it does not fill.
example : putTier 200 = some 1 ∧ sizes 1 = 256 := by decide

namespace Slice

theorem upTo_of_le {b : Slice} {n : Int} (h0 : 0 ≤ n) (hn : n ≤ b.cap) :
    ∃ c, b.upTo n = some c ∧ c.len = n.toNat ∧ c.cap = b.cap ∧ c.array = b.array :=
  ⟨_, dif_pos ⟨h0, hn⟩, rfl, rfl, rfl⟩

end Slice

namespace Pool

variable {s : Pool} {i pick : Nat} {n : Int}

/-! ## What a call does -/

/-- A slice of the next array, of the length that is asked for. -/
structure Fresh (s : Pool) (n : Int) (b : Slice) : Prop where
  array : b.array = s.arrays
  len : b.len = n.toNat
  classed : Classed b.cap

theorem miss_eq (h0 : 0 ≤ n) (hn : n ≤ maxTierSize) : ∃ b, Fresh s n b ∧ s.miss i n = s.fresh i n (some b) := by
  obtain ⟨b, hb, hlen, hcap, harray⟩ := Slice.upTo_of_le (b := .make s.arrays (sizes (getBufferTier n))) h0
    (le_sizes_getBufferTier hn)
  refine ⟨b, ⟨harray, hlen, .inr (.inr ⟨_, hcap⟩)⟩, ?_⟩
  unfold miss
  rw [hb]

/-- **A get makes a slice, or takes a wrapper of its tier**, for a size that the tier has. -/
theorem goOn_getting (s : Pool) (i pick : Nat) (n : Int) :
    (∃ b, Fresh s n b ∧ s.goOn i pick (.getting n) = s.fresh i n (some b)) ∨
    (∃ wrapper, Tiered n ∧ s.pools[pick]? = some (getBufferTier n, wrapper) ∧
      s.goOn i pick (.getting n) =
        { s.call i (.unwrapping n wrapper) with pools := s.pools.eraseIdx pick }) := by
  simp only [goOn]
  split
  · rename_i h0
    exact .inl ⟨_, ⟨rfl, (Int.toNat_of_nonpos h0).symm, .inl rfl⟩, rfl⟩
  · rename_i h0
    split
    · rename_i hmax
      exact .inl ⟨_, ⟨rfl, rfl, .inr (.inl (by simp only [Slice.make]; omega))⟩, rfl⟩
    · rename_i hmax
      have hmiss := miss_eq (s := s) (i := i) (n := n) (by omega) (by omega)
      split
      · rename_i tier wrapper hpick
        split
        · rename_i htier
          subst htier
          exact .inr ⟨wrapper, ⟨by omega, by omega⟩, hpick, rfl⟩
        · exact .inl hmiss
      · exact .inl hmiss

/-- **A get that has unwrapped a buffer returns it where it is large enough**, and a new one of the tier otherwise. -/
theorem goOn_checking (s : Pool) (pick : Nat) {b : Option Slice} (hn : Tiered n) :
    (∃ c, Fresh s n c ∧ s.goOn i pick (.checking n b) = s.fresh i n (some c)) ∨
    (∃ o c, b = some o ∧ c.len = n.toNat ∧ c.cap = o.cap ∧ c.array = o.array ∧
      s.goOn i pick (.checking n b) = s.answer i n (some c)) := by
  obtain ⟨h0, hmax⟩ := hn
  simp only [goOn]
  split
  · exact .inl (miss_eq (by omega) hmax)
  · rename_i hcap
    cases b with
    | none => exact absurd h0 hcap
    | some o =>
      obtain ⟨c, hc, hlen, hcap', harray⟩ := Slice.upTo_of_le (b := o) (by omega) (Int.not_lt.1 hcap)
      exact .inr ⟨o, c, rfl, hlen, hcap', harray, by rw [Option.bind_some, hc]⟩

/-! ## A get returns -/

section

@[simp] theorem call_calls (c : Call) : (s.call i c).calls = s.calls.set i c := rfl

@[simp] theorem answer_calls (b : Option Slice) : (s.answer i n b).calls = s.calls.set i (.got n b) := rfl

@[simp] theorem fresh_calls (b : Option Slice) : (s.fresh i n b).calls = s.calls.set i (.got n b) := rfl

/-- A call leaves the others as they are. -/
theorem goOn_calls_ne {j : Nat} (hj : i ≠ j) (c : Call) : (s.goOn i pick c).calls[j]? = s.calls[j]? := by
  have hset (c' : Call) : (s.calls.set i c')[j]? = s.calls[j]? := List.getElem?_set_ne hj
  cases c with
  | getting n =>
    obtain ⟨b, -, h⟩ | ⟨wrapper, -, -, h⟩ := goOn_getting s i pick n <;> rw [h] <;> exact hset _
  | unwrapping n wrapper => exact hset _
  | recycling n wrapper b => exact hset _
  | checking n b =>
    simp only [goOn]
    split <;> exact hset _
  | got n b => rfl
  | putting tier b =>
    simp only [goOn]
    split <;> exact hset _
  | wrapping tier b wrapper => exact hset _
  | storing tier wrapper => exact hset _
  | done => rfl

end

end Pool

/-- The call is the get of `n`, at most `k` steps of its own from its return; what it has returned has length `n`. -/
def Call.Serves (n : Int) (k : Nat) : Call → Prop
  | .getting m => m = n ∧ 4 ≤ k
  | .unwrapping m _ => m = n ∧ Tiered n ∧ 3 ≤ k
  | .recycling m _ _ => m = n ∧ Tiered n ∧ 2 ≤ k
  | .checking m _ => m = n ∧ Tiered n ∧ 1 ≤ k
  | .got m b => m = n ∧ ∃ c, b = some c ∧ c.len = n.toNat
  | .putting _ _ => False
  | .wrapping _ _ _ => False
  | .storing _ _ => False
  | .done => False

/-- A get with no step left has returned. -/
theorem Call.Serves.returned {n : Int} {c : Call} (h : c.Serves n 0) : ∃ b, c = .got n (some b) := by
  cases c with
  | got m r =>
    obtain ⟨rfl, b, rfl, -⟩ := h
    exact ⟨b, rfl⟩
  | getting m => exact absurd h.2 (by omega)
  | unwrapping m w => exact absurd h.2.2 (by omega)
  | recycling m w b => exact absurd h.2.2 (by omega)
  | checking m b => exact absurd h.2.2 (by omega)
  | putting tier b => exact h.elim
  | wrapping tier b w => exact h.elim
  | storing tier w => exact h.elim
  | done => exact h.elim

/-- The `i`-th call is such a call. -/
def Pool.Serving (s : Pool) (i : Nat) (n : Int) (k : Nat) : Prop := ∃ c, s.calls[i]? = some c ∧ c.Serves n k

/-- The move takes the `i`-th call on. -/
def Move.advances (i : Nat) : Move → Bool
  | .advance j _ => j = i
  | _ => false

section
variable {s s' : Pool} {i pick : Nat} {n : Int} {k : Nat}

/-- **A step of its own brings a get nearer to its return.** -/
theorem Pool.goOn_serving {c : Call} (hi : s.calls[i]? = some c) (hc : c.Serves n k) :
    (s.goOn i pick c).Serving i n (k - 1) := by
  have hset (c' : Call) : (s.calls.set i c')[i]? = some c' :=
    List.getElem?_set_self (List.getElem?_eq_some_iff.1 hi).1
  cases c with
  | getting m =>
    obtain ⟨rfl, hk⟩ := hc
    obtain ⟨b, hb, h⟩ | ⟨wrapper, hn, -, h⟩ := Pool.goOn_getting s i pick m
    · rw [h]
      exact ⟨_, hset _, rfl, b, rfl, hb.len⟩
    · rw [h]
      exact ⟨_, hset _, rfl, hn, by omega⟩
  | unwrapping m wrapper =>
    obtain ⟨rfl, hn, hk⟩ := hc
    exact ⟨_, hset _, rfl, hn, by omega⟩
  | recycling m wrapper b =>
    obtain ⟨rfl, hn, hk⟩ := hc
    exact ⟨_, hset _, rfl, hn, by omega⟩
  | checking m b =>
    obtain ⟨rfl, hn, hk⟩ := hc
    obtain ⟨c, hc, h⟩ | ⟨o, c, -, hlen, -, -, h⟩ := Pool.goOn_checking s pick (i := i) (b := b) hn
    · rw [h]
      exact ⟨_, hset _, rfl, c, rfl, hc.len⟩
    · rw [h]
      exact ⟨_, hset _, rfl, c, rfl, hlen⟩
  | got m b => exact ⟨_, hi, hc⟩
  | putting tier b => exact hc.elim
  | wrapping tier b wrapper => exact hc.elim
  | storing tier wrapper => exact hc.elim
  | done => exact hc.elim

/-- A move leaves a get as near to its return as it was, and the get's own brings it nearer. -/
theorem Pool.Serving.move (h : s.Serving i n k) {m : Move} (hm : step s m = some s') :
    s'.Serving i n (k - if m.advances i then 1 else 0) := by
  obtain ⟨c, hi, hc⟩ := h
  have happend (c' : Call) : (s.calls ++ [c'])[i]? = some c := by
    rw [List.getElem?_append_left (List.getElem?_eq_some_iff.1 hi).1]
    exact hi
  cases m with
  | get m =>
    obtain rfl := Option.some.inj hm
    exact ⟨c, happend _, hc⟩
  | put b =>
    cases b with
    | none =>
      obtain rfl := Option.some.inj hm
      exact ⟨c, happend _, hc⟩
    | some b =>
      obtain rfl := Option.some.inj hm
      exact ⟨c, happend _, hc⟩
  | advance j pick =>
    obtain rfl := Option.some.inj hm
    by_cases hj : j = i
    · subst hj
      rw [hi]
      simpa [Move.advances] using Pool.goOn_serving hi hc
    · rw [show (Move.advance j pick).advances i = false from by simpa [Move.advances] using hj]
      cases hcj : s.calls[j]? with
      | none => exact ⟨c, hi, hc⟩
      | some d => exact ⟨c, (Pool.goOn_calls_ne hj d).trans hi, hc⟩
  | drop pick =>
    obtain rfl := Option.some.inj hm
    exact ⟨c, hi, hc⟩
  | dropWrapper pick =>
    obtain rfl := Option.some.inj hm
    exact ⟨c, hi, hc⟩

/-- **Over a run, a get comes as much nearer to its return as it is taken on**, whatever the other calls do. -/
theorem Pool.Serving.run (h : s.Serving i n k) {ms : List Move} (hr : after step s ms = some s') :
    s'.Serving i n (k - ms.countP (·.advances i)) := by
  induction ms generalizing s k with
  | nil =>
    obtain rfl := Option.some.inj hr
    exact h
  | cons m ms ih =>
    obtain ⟨t, ht, hr⟩ := Option.bind_eq_some_iff.1 hr
    rw [List.countP_cons, Nat.add_comm, ← Nat.sub_sub]
    exact ih (h.move ht) hr

end

/-! ## Who holds what -/

/-- The wrapper a call holds. -/
def Call.wrapper : Call → Option Nat
  | .unwrapping _ wrapper => some wrapper
  | .recycling _ wrapper _ => some wrapper
  | .wrapping _ _ wrapper => some wrapper
  | .storing _ wrapper => some wrapper
  | _ => none

/-- The array of the slice a call holds. -/
def Call.array : Call → Option Nat
  | .recycling _ _ b => b.map Slice.array
  | .checking _ b => b.map Slice.array
  | .putting _ b => some b.array
  | .wrapping _ b _ => some b.array
  | _ => none

/-- The wrapper has a buffer of the tier's size. -/
def Fills (data : List (Option Slice)) (tier : Tier) (wrapper : Nat) : Prop :=
  ∃ b, data[wrapper]? = some (some b) ∧ b.cap = sizes tier

/-- A call asks for a size of a tier, and what it holds has a capacity that it may be put or got with. -/
def Call.Sized (data : List (Option Slice)) : Call → Prop
  | .unwrapping n wrapper => Tiered n ∧ ∃ tier, Fills data tier wrapper
  | .recycling n _ b => Tiered n ∧ ∃ c, b = some c ∧ Classed c.cap
  | .checking n b => Tiered n ∧ ∃ c, b = some c ∧ Classed c.cap
  | .putting tier b => b.cap = sizes tier
  | .wrapping tier b _ => b.cap = sizes tier
  | .storing tier wrapper => Fills data tier wrapper
  | _ => True

namespace Pool

def wrapperOwners (s : Pool) (x : Nat) : Nat :=
  held (fun e => some e.2) s.pools x + held some s.wrappers x + held Call.wrapper s.calls x

def arrayOwners (s : Pool) (x : Nat) : Nat :=
  held (·.map Slice.array) s.data x + held Call.array s.calls x + held (fun b => some b.array) s.outstanding x

/-- Every tier has buffers of its size only. -/
def Exact (s : Pool) : Prop := ∀ tier wrapper, (tier, wrapper) ∈ s.pools → Fills s.data tier wrapper

/-- No two slices that are out share an array. -/
def Apart (s : Pool) : Prop := (s.outstanding.map Slice.array).Nodup

/-- **What the calls keep**: a wrapper or an array is in one place at most, and every buffer has a size of the pool. -/
structure Sound (s : Pool) : Prop where
  wrappers : Owned s.wrapperOwners s.data.length
  arrays : Owned s.arrayOwners s.arrays
  exact : s.Exact
  calls : ∀ c ∈ s.calls, c.Sized s.data
  outstanding : ∀ b ∈ s.outstanding, Classed b.cap

end Pool

section
variable {s : Pool} {data data' : List (Option Slice)} {tier : Tier} {i x : Nat} {c c' : Call}

theorem Fills.of_eq (h : Fills data tier x) (he : data'[x]? = data[x]?) : Fills data' tier x := by
  obtain ⟨b, hb, hcap⟩ := h
  exact ⟨b, he.trans hb, hcap⟩

/-- A call depends on its own wrapper's data only. -/
theorem Call.Sized.of_eq (h : c.Sized data) (he : ∀ w, c.wrapper = some w → data'[w]? = data[w]?) : c.Sized data' := by
  cases c with
  | unwrapping n w =>
    obtain ⟨hn, tier, hw⟩ := h
    exact ⟨hn, tier, hw.of_eq (he w rfl)⟩
  | storing tier w => exact Fills.of_eq h (he w rfl)
  | getting n => trivial
  | recycling n w b => exact h
  | checking n b => exact h
  | got n b => trivial
  | putting tier b => exact h
  | wrapping tier b w => exact h
  | done => trivial

theorem Pool.Sound.apart (h : s.Sound) : s.Apart := by
  refine nodup_of_held fun x => ?_
  have hx : s.arrayOwners x ≤ 1 := h.arrays.le_one
  unfold Pool.arrayOwners at hx
  omega

/-- The calls after one of them has gone on. -/
theorem sized_set (hi : s.calls[i]? = some c) (h : ∀ d ∈ s.calls.eraseIdx i, d.Sized data) (hc : c'.Sized data) :
    ∀ d ∈ s.calls.set i c', d.Sized data := by
  intro d hd
  rw [(set_perm_cons hi).mem_iff, List.mem_cons] at hd
  obtain rfl | hd := hd
  · exact hc
  · exact h d hd

/-- **Writing the data of the wrapper a call holds leaves what the pools and the other calls hold as it was.** -/
theorem Pool.Sound.write (h : s.Sound) (hi : s.calls[i]? = some c) (hc : c.wrapper = some x) (d : Option Slice) :
    (∀ tier w, (tier, w) ∈ s.pools → Fills (s.data.set x d) tier w) ∧
    ∀ e ∈ s.calls.eraseIdx i, e.Sized (s.data.set x d) := by
  have hone : s.wrapperOwners x ≤ 1 := h.wrappers.le_one
  unfold Pool.wrapperOwners at hone
  rw [held_eraseIdx hi, hc, holds_self] at hone
  constructor
  · intro tier w hw
    have hne : x ≠ w := by
      rintro rfl
      have : 0 < held (fun e : Tier × Nat => some e.2) s.pools x := held_pos hw rfl
      omega
    exact (h.exact tier w hw).of_eq (List.getElem?_set_ne hne)
  · intro e he
    refine (h.calls e (List.mem_of_mem_eraseIdx he)).of_eq fun w hw => List.getElem?_set_ne ?_
    rintro rfl
    have := held_pos he hw
    omega

end

/-! ## What a step keeps -/

namespace Pool

variable {s s' : Pool} {i pick : Nat} {n : Int} {c : Call} {b : Slice}

/-- The wrappers in the pools, and those the calls hold, have been made. -/
theorem Sound.pooled_lt (h : s.Sound) {tier : Tier} {w : Nat} (hw : (tier, w) ∈ s.pools) : w < s.data.length := by
  refine h.wrappers.lt ?_
  have hpos : 0 < held (fun e : Tier × Nat => some e.2) s.pools w := held_pos hw rfl
  unfold wrapperOwners
  omega

theorem Sound.called_lt (h : s.Sound) {w : Nat} (hc : c ∈ s.calls) (hw : c.wrapper = some w) : w < s.data.length := by
  refine h.wrappers.lt ?_
  have hpos : 0 < held Call.wrapper s.calls w := held_pos hc hw
  unfold wrapperOwners
  omega

/-- A call that goes on with no more than it held, and with what it has of its size. -/
theorem Sound.wrappers_call (h : s.Sound) (hi : s.calls[i]? = some c) {c' : Call}
    (hle : ∀ x, holds c'.wrapper x ≤ holds c.wrapper x) : Owned (s.call i c').wrapperOwners s.data.length := by
  refine h.wrappers.mono fun x => ?_
  have hx := hle x
  simp only [wrapperOwners, call_calls, held_set hi, held_eraseIdx hi]
  simp only [call]
  omega

theorem Sound.arrays_call (h : s.Sound) (hi : s.calls[i]? = some c) {c' : Call}
    (hle : ∀ x, holds c'.array x ≤ holds c.array x) : Owned (s.call i c').arrayOwners s.arrays := by
  refine h.arrays.mono fun x => ?_
  have hx := hle x
  simp only [arrayOwners, call_calls, held_set hi, held_eraseIdx hi]
  simp only [call]
  omega

theorem Sound.calls_call (h : s.Sound) (hi : s.calls[i]? = some c) {c' : Call} (hc : c'.Sized s.data) :
    ∀ d ∈ s.calls.set i c', d.Sized s.data :=
  sized_set hi (fun d hd => h.calls d (List.mem_of_mem_eraseIdx hd)) hc

/-- A get returns a slice of a new array. -/
theorem Sound.fresh (h : s.Sound) (hi : s.calls[i]? = some c) (hb : Fresh s n b) : (s.fresh i n (some b)).Sound where
  wrappers := h.wrappers_call hi fun _ => Nat.zero_le _
  arrays := by
    refine h.arrays.make fun x => ?_
    simp only [arrayOwners, fresh_calls, held_set hi, held_eraseIdx hi]
    simp only [Pool.fresh, answer, call, Call.array, holds_none, Option.toList_some, List.singleton_append, held_cons,
      hb.array]
    omega
  exact := h.exact
  calls := h.calls_call hi trivial
  outstanding := List.forall_mem_cons.2 ⟨hb.classed, h.outstanding⟩

/-- A get returns the slice that it holds. -/
theorem Sound.answer (h : s.Sound) (hi : s.calls[i]? = some c) (ha : c.array = some b.array) (hb : Classed b.cap) :
    (s.answer i n (some b)).Sound where
  wrappers := h.wrappers_call hi fun _ => Nat.zero_le _
  arrays := by
    refine h.arrays.mono fun x => ?_
    simp only [arrayOwners, answer_calls, held_set hi, held_eraseIdx hi, ha]
    simp only [Pool.answer, call, Call.array, holds_none, Option.toList_some, List.singleton_append, held_cons]
    omega
  exact := h.exact
  calls := h.calls_call hi trivial
  outstanding := List.forall_mem_cons.2 ⟨hb, h.outstanding⟩

/-- A get takes a wrapper out of a pool. -/
theorem Sound.take (h : s.Sound) (hi : s.calls[i]? = some (.getting n)) (hn : Tiered n) {tier : Tier} {w : Nat}
    (hpick : s.pools[pick]? = some (tier, w)) :
    Sound { s.call i (.unwrapping n w) with pools := s.pools.eraseIdx pick } where
  wrappers := by
    refine h.wrappers.mono fun x => ?_
    simp only [wrapperOwners, held_set hi, held_eraseIdx hi, held_eraseIdx hpick, call, Call.wrapper, holds_none]
    omega
  arrays := h.arrays_call hi fun _ => Nat.zero_le _
  exact := fun tier' w' hw' => h.exact tier' w' (List.mem_of_mem_eraseIdx hw')
  calls := h.calls_call hi ⟨hn, tier, h.exact tier w (List.mem_of_getElem? hpick)⟩
  outstanding := h.outstanding

/-- A get takes the slice out of its wrapper. -/
theorem Sound.unwrap (h : s.Sound) {w : Nat} (hi : s.calls[i]? = some (.unwrapping n w)) :
    (s.goOn i pick (.unwrapping n w)).Sound := by
  obtain ⟨hn, tier, b, hb, hcap⟩ : (Call.unwrapping n w).Sized s.data := h.calls _ (List.mem_of_getElem? hi)
  have hj : s.data[w]?.join = some b := by rw [hb, Option.join_some]
  simp only [goOn, hj]
  obtain ⟨hpools, hcalls⟩ := h.write hi rfl none
  refine ⟨?_, ?_, hpools, sized_set hi hcalls ⟨hn, b, rfl, .inr (.inr ⟨tier, hcap⟩)⟩, h.outstanding⟩
  · rw [List.length_set]
    exact h.wrappers_call hi fun _ => Nat.le_refl _
  · refine h.arrays.mono fun x => ?_
    simp only [arrayOwners, held_set hi, held_eraseIdx hi, held_set hb, held_eraseIdx hb, call, Call.array,
      Option.map_some, Option.map_none, holds_none]
    omega

/-- A get gives its wrapper back. -/
theorem Sound.recycle (h : s.Sound) {w : Nat} {o : Option Slice} (hi : s.calls[i]? = some (.recycling n w o)) :
    (s.goOn i pick (.recycling n w o)).Sound where
  wrappers := by
    refine h.wrappers.mono fun x => ?_
    simp only [goOn, wrapperOwners, held_set hi, held_eraseIdx hi, held_cons, call, Call.wrapper, holds_none]
    omega
  arrays := h.arrays_call hi fun _ => Nat.le_refl _
  exact := h.exact
  calls := h.calls_call hi (h.calls (.recycling n w o) (List.mem_of_getElem? hi))
  outstanding := h.outstanding

/-- A get returns what it has unwrapped, or a new buffer. -/
theorem Sound.check (h : s.Sound) {o : Option Slice} (hi : s.calls[i]? = some (.checking n o)) :
    (s.goOn i pick (.checking n o)).Sound := by
  obtain ⟨hn, b, rfl, hb⟩ : (Call.checking n o).Sized s.data := h.calls _ (List.mem_of_getElem? hi)
  obtain ⟨c, hc, he⟩ | ⟨b, c, ho, -, hcap, harray, he⟩ := goOn_checking s pick (i := i) (b := some b) hn
  · rw [he]
    exact h.fresh hi hc
  · obtain rfl := Option.some.inj ho
    rw [he]
    exact h.answer hi (congrArg some harray.symm) (hcap ▸ hb)

/-- A put takes a wrapper, or makes one. -/
theorem Sound.wrap (h : s.Sound) {tier : Tier} (hi : s.calls[i]? = some (.putting tier b)) :
    (s.goOn i pick (.putting tier b)).Sound := by
  have hb : b.cap = sizes tier := h.calls _ (List.mem_of_getElem? hi)
  simp only [goOn]
  split
  · rename_i w hpick
    refine ⟨?_, h.arrays_call hi fun _ => Nat.le_refl _, h.exact, h.calls_call hi hb, h.outstanding⟩
    refine h.wrappers.mono fun x => ?_
    simp only [wrapperOwners, held_set hi, held_eraseIdx hi, held_eraseIdx hpick, call, Call.wrapper, holds_none]
    omega
  · refine ⟨?_, ?_, fun tier' w hw => (h.exact tier' w hw).of_eq (List.getElem?_append_left (h.pooled_lt hw)),
      sized_set hi (fun d hd => ?_) hb, h.outstanding⟩
    · rw [List.length_append]
      refine h.wrappers.make fun x => ?_
      simp only [wrapperOwners, held_set hi, held_eraseIdx hi, call, Call.wrapper, holds_none]
      omega
    · refine h.arrays.mono fun x => ?_
      simp only [arrayOwners, held_set hi, held_eraseIdx hi, held_append, held_cons, held_nil, call, Call.array,
        Option.map_none, holds_none]
      omega
    · have hmem : d ∈ s.calls := List.mem_of_mem_eraseIdx hd
      exact (h.calls d hmem).of_eq fun w hw => List.getElem?_append_left (h.called_lt hmem hw)

/-- A put puts the slice into its wrapper. -/
theorem Sound.fill (h : s.Sound) {tier : Tier} {w : Nat} (hi : s.calls[i]? = some (.wrapping tier b w)) :
    (s.goOn i pick (.wrapping tier b w)).Sound := by
  have hb : b.cap = sizes tier := h.calls _ (List.mem_of_getElem? hi)
  have hw : w < s.data.length := h.called_lt (List.mem_of_getElem? hi) rfl
  obtain ⟨hpools, hcalls⟩ := h.write hi rfl (some b.full)
  simp only [goOn]
  refine ⟨?_, ?_, hpools, sized_set hi hcalls ⟨b.full, List.getElem?_set_self hw, hb⟩, h.outstanding⟩
  · rw [List.length_set]
    exact h.wrappers_call hi fun _ => Nat.le_refl _
  · refine h.arrays.mono fun x => ?_
    have hd := List.getElem?_eq_getElem hw
    simp only [arrayOwners, held_set hi, held_eraseIdx hi, held_set hd, held_eraseIdx hd, call, Call.array,
      Option.map_some, Slice.full, holds_none]
    omega

/-- A put puts its wrapper into the pool of the tier. -/
theorem Sound.store (h : s.Sound) {tier : Tier} {w : Nat} (hi : s.calls[i]? = some (.storing tier w)) :
    (s.goOn i pick (.storing tier w)).Sound where
  wrappers := by
    refine h.wrappers.mono fun x => ?_
    simp only [goOn, wrapperOwners, held_set hi, held_eraseIdx hi, held_cons, call, Call.wrapper, holds_none]
    omega
  arrays := h.arrays_call hi fun _ => Nat.zero_le _
  exact := by
    intro tier' w' hw'
    obtain heq | hw' := List.mem_cons.1 hw'
    · obtain ⟨rfl, rfl⟩ := Prod.mk.inj heq
      exact h.calls _ (List.mem_of_getElem? hi)
    · exact h.exact tier' w' hw'
  calls := h.calls_call hi trivial
  outstanding := h.outstanding

/-- **A call begins with slices that were out**, or with none; those it does not take are dropped. -/
theorem Sound.append (h : s.Sound) {out : List Slice} (hw : c.wrapper = none) (hc : c.Sized s.data)
    (hout : ∀ x, held (fun b => some b.array) out x + holds c.array x ≤ held (fun b => some b.array) s.outstanding x)
    (hsub : ∀ b ∈ out, b ∈ s.outstanding) : Sound { s with
      outstanding := out
      calls := s.calls ++ [c] } where
  wrappers := by
    refine h.wrappers.mono fun x => ?_
    simp only [wrapperOwners, held_append, held_cons, held_nil, hw, holds_none]
    omega
  arrays := by
    refine h.arrays.mono fun x => ?_
    have hx := hout x
    simp only [arrayOwners, held_append, held_cons, held_nil]
    omega
  exact := h.exact
  calls := List.forall_mem_append.2 ⟨h.calls, List.forall_mem_singleton.2 hc⟩
  outstanding := fun d hd => h.outstanding d (hsub d hd)

/-- **A slice that is out is put back**, with another length perhaps. -/
theorem Sound.put (h : s.Sound) (hb : ∃ o ∈ s.outstanding, o.resliced b = true) : (s.putSampleBuf b).Sound := by
  obtain ⟨o, ho, hob⟩ := hb
  obtain ⟨o, ho, hob, hout⟩ := held_eraseP (f := fun b : Slice => some b.array) (p := (·.resliced b)) ho hob
  obtain ⟨harray, -, hcap⟩ : o.array = b.array ∧ o.start = b.start ∧ o.cap = b.cap := of_decide_eq_true hob
  unfold putSampleBuf
  cases ht : putTier b.cap with
  | none =>
    refine h.append rfl trivial (fun x => ?_) fun d hd => List.mem_of_mem_eraseP hd
    rw [hout]
    exact Nat.add_le_add_left (Nat.zero_le _) _
  | some tier =>
    have hsize : b.cap = sizes tier := putTier_of_classed (hcap ▸ h.outstanding o ho) ht
    refine h.append rfl hsize (fun x => ?_) fun d hd => List.mem_of_mem_eraseP hd
    rw [hout, harray]
    exact Nat.le_refl _

/-- **A call that goes on keeps the pool sound.** -/
theorem Sound.goOn (h : s.Sound) (hi : s.calls[i]? = some c) : (s.goOn i pick c).Sound := by
  cases c with
  | getting n =>
    obtain ⟨b, hb, he⟩ | ⟨wrapper, hn, hpick, he⟩ := goOn_getting s i pick n
    · rw [he]
      exact h.fresh hi hb
    · rw [he]
      exact h.take hi hn hpick
  | unwrapping n w => exact h.unwrap hi
  | recycling n w b => exact h.recycle hi
  | checking n b => exact h.check hi
  | got n b => exact h
  | putting tier b => exact h.wrap hi
  | wrapping tier b w => exact h.fill hi
  | storing tier w => exact h.store hi
  | done => exact h

/-- A buffer is made before the first call. -/
theorem Sound.preallocate (h : s.Sound) (tier : Tier) : (s.preallocate tier).Sound := by
  have hnew {w : Nat} (hw : w < s.data.length) (d : Option Slice) : (s.data ++ [d])[w]? = s.data[w]? :=
    List.getElem?_append_left hw
  refine ⟨?_, ?_, ?_, ?_, h.outstanding⟩
  · simp only [Pool.preallocate, List.length_append, List.length_singleton]
    refine h.wrappers.make fun x => ?_
    simp only [wrapperOwners, held_cons]
    omega
  · refine h.arrays.make fun x => ?_
    simp only [Pool.preallocate, arrayOwners, held_append, held_cons, held_nil, Option.map_some, Slice.make]
    omega
  · intro tier' w hw
    obtain heq | hw := List.mem_cons.1 hw
    · obtain ⟨rfl, rfl⟩ := Prod.mk.inj heq
      exact ⟨.make s.arrays (sizes tier'), by simp [Pool.preallocate], rfl⟩
    · exact (h.exact tier' w hw).of_eq (hnew (h.pooled_lt hw) _)
  · exact fun c hc => (h.calls c hc).of_eq fun w hw => hnew (h.called_lt hc hw) _

theorem sound_empty : Sound {} where
  wrappers := fun _ => Nat.zero_le _
  arrays := fun _ => Nat.zero_le _
  exact := fun _ _ hw => absurd hw List.not_mem_nil
  calls := fun _ hc => absurd hc List.not_mem_nil
  outstanding := fun _ hb => absurd hb List.not_mem_nil

end Pool

theorem sound_initBufferPool : initBufferPool.Sound := by
  unfold initBufferPool
  refine List.foldlRecOn (motive := Pool.Sound) _ _ Pool.sound_empty fun s hs tier _ => ?_
  exact List.foldlRecOn (motive := Pool.Sound) _ _ hs fun s hs _ _ => hs.preallocate tier

/-- A slice is put that is out, with another length perhaps; nil may be put at any time. -/
def Obtained (s : Pool) : Move → Prop
  | .put (some b) => ∃ o ∈ s.outstanding, o.resliced b = true
  | _ => True

instance (s : Pool) : DecidablePred (Obtained s)
  | .get _ => .isTrue trivial
  | .put none => .isTrue trivial
  | .put (some b) => inferInstanceAs (Decidable (∃ o ∈ s.outstanding, o.resliced b = true))
  | .advance _ _ => .isTrue trivial
  | .drop _ => .isTrue trivial
  | .dropWrapper _ => .isTrue trivial

/-- **A move that puts what is out only keeps the pool sound.** -/
theorem Pool.Sound.move {s s' : Pool} {m : Move} (h : s.Sound) (ho : Obtained s m) (hm : step s m = some s') :
    s'.Sound := by
  cases m with
  | get n =>
    obtain rfl := Option.some.inj hm
    exact h.append rfl trivial (fun _ => Nat.le_refl _) fun _ hb => hb
  | put b =>
    cases b with
    | none =>
      obtain rfl := Option.some.inj hm
      exact h.append rfl trivial (fun _ => Nat.le_refl _) fun _ hb => hb
    | some b =>
      obtain rfl := Option.some.inj hm
      exact h.put ho
  | advance i pick =>
    obtain rfl := Option.some.inj hm
    cases hi : s.calls[i]? with
    | none => exact h
    | some c => exact h.goOn hi
  | drop pick =>
    obtain rfl := Option.some.inj hm
    have hle (x : Nat) : held (fun e : Tier × Nat => some e.2) (s.pools.eraseIdx pick) x ≤
        held (fun e => some e.2) s.pools x := held_eraseIdx_le
    refine ⟨h.wrappers.mono fun x => ?_, h.arrays,
      fun tier w hw => h.exact tier w (List.mem_of_mem_eraseIdx hw), h.calls, h.outstanding⟩
    have := hle x
    simp only [Pool.wrapperOwners]
    omega
  | dropWrapper pick =>
    obtain rfl := Option.some.inj hm
    have hle (x : Nat) : held some (s.wrappers.eraseIdx pick) x ≤ held some s.wrappers x := held_eraseIdx_le
    refine ⟨h.wrappers.mono fun x => ?_, h.arrays, h.exact, h.calls, h.outstanding⟩
    have := hle x
    simp only [Pool.wrapperOwners]
    omega

/-- **The sample buffers.**  Whatever slices are put, a get returns once it is taken on four times, and what it returns
has the length that it asked for and at least that capacity.  Where only slices are put that are out, each tier has
buffers of its size only, and no two slices that are out share an array, throughout. -/
theorem sampleBufs_fit_and_stay_apart :
    (∀ (before : List Move) (s : Pool), after step initBufferPool before = some s →
      ∀ (n : Int) (rest : List Move) (s' : Pool), after step s (.get n :: rest) = some s' →
        (∀ m r, s'.calls[s.calls.length]? = some (.got m r) →
          m = n ∧ ∃ b, r = some b ∧ b.len = n.toNat ∧ n.toNat ≤ b.cap) ∧
        (4 ≤ rest.countP (·.advances s.calls.length) → ∃ b, s'.calls[s.calls.length]? = some (.got n (some b)))) ∧
    (∀ ms : List Move, Along step Obtained initBufferPool ms →
      Throughout step (fun s => s.Exact ∧ s.Apart) initBufferPool ms) := by
  constructor
  · intro before s _ n rest s' hr
    obtain ⟨t, ht, hr⟩ := Option.bind_eq_some_iff.1 hr
    obtain rfl := Option.some.inj ht
    have hget : Pool.Serving { s with calls := s.calls ++ [.getting n] } s.calls.length n 4 :=
      ⟨.getting n, by simp, rfl, by omega⟩
    obtain ⟨c, hi, hc⟩ := hget.run hr
    constructor
    · intro m r hgot
      obtain rfl := Option.some.inj (hi.symm.trans hgot)
      obtain ⟨rfl, b, rfl, hlen⟩ := hc
      exact ⟨rfl, b, rfl, hlen, hlen ▸ b.len_le⟩
    · intro hk
      rw [Nat.sub_eq_zero_of_le hk] at hc
      obtain ⟨b, rfl⟩ := hc.returned
      exact ⟨b, hi⟩
  · intro ms ho
    exact (Throughout.of_along (fun s m s' h ho hm => h.move ho hm) sound_initBufferPool ho).mono
      fun s h => ⟨h.exact, h.apart⟩


/-- A buffer of the first tier is got, put back cut short, and got again. -/
def reuse : List Move :=
  [.advance 0 30, .advance 0 0, .advance 0 0, .advance 0 0, .put (some ⟨0, 0, 40, 128, by decide⟩), .advance 1 0,
    .advance 1 0, .advance 1 0, .get 120, .advance 2 0, .advance 2 0, .advance 2 0, .advance 2 0]

theorem sampleBufs_fit_and_stay_apart_reuse :
    (∃ s, after step initBufferPool (.get 100 :: reuse) = some s ∧ ∃ b, s.calls[0]? = some (.got 100 (some b))) ∧
    Throughout step (fun s => s.Exact ∧ s.Apart) initBufferPool (.get 100 :: reuse) := by
  constructor
  · cases h : after step initBufferPool (.get 100 :: reuse) with
    | none => exact absurd h (by decide +kernel)
    | some s =>
      exact ⟨s, rfl, (sampleBufs_fit_and_stay_apart.1 [] initBufferPool rfl 100 reuse s h).2 (by decide +kernel)⟩
  · exact sampleBufs_fit_and_stay_apart.2 (.get 100 :: reuse) (by decide +kernel)

end SampleBufPool
end Host
end CloudGaming
