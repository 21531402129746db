import Mathlib.Tactic.SplitIfs
/-!
# NalUnits — the detection of IDR frames in an encoded packet

`IsIdrFromNalBytes` walks an Annex B byte string from start code to start code.  A byte is read with `data[i]?`, so that
`none` is a read outside the string.
-/
namespace CloudGaming
namespace Host
namespace NalUnits

/-- The length of the start code at a position, 0 where there is none. -/
def startCodeLen (data : List UInt8) (pos : Nat) : Option Nat := do
  if (← data[pos + 2]?) = 1 then pure 3
  else if pos + 4 ≤ data.length then
    if (← data[pos + 2]?) = 0 then
      if (← data[pos + 3]?) = 1 then pure 4 else pure 0
    else pure 0
  else pure 0

/-- NAL type 5. -/
def isIdrHeader (header : UInt8) : Bool := header &&& 0x1F == 5

def isIdrUnit (data : List UInt8) (nalStart : Nat) : Option Bool :=
  if nalStart < data.length then data[nalStart]?.map isIdrHeader else some false

/-- `data[pos] == 0 && data[pos + 1] == 0` -/
def twoZeros (data : List UInt8) (pos : Nat) : Option Bool := do
  if (← data[pos]?) = 0 then data[pos + 1]?.map (· == 0) else pure false

/-- The loop, from a position on. -/
def scan (data : List UInt8) (pos : Nat) : Option Bool :=
  if h : pos + 3 < data.length then do
    if ← twoZeros data pos then
      let len ← startCodeLen data pos
      if hlen : 0 < len then
        if ← isIdrUnit data (pos + len) then pure true
        else scan data (pos + len)
      else scan data (pos + 1)
    else scan data (pos + 1)
  else some false
termination_by data.length - pos

def isIdrFromNalBytes (data : List UInt8) : Option Bool := scan data 0

/-- `MakePendingSampleFromPacket`: the mark of a sample, from the encoder's flag and the bytes. -/
def isKeyframe (flagged : Bool) (data : List UInt8) : Option Bool :=
  if data.isEmpty then some false
  else if flagged then some true
  else isIdrFromNalBytes data

/-! ## What the loop finds -/

/-- A start code, and the header of an IDR unit behind it. -/
structure IdrAt (data : List UInt8) (i : Nat) : Prop where
  first : data[i]? = some 0
  second : data[i + 1]? = some 0
  one : data[i + 2]? = some 1
  header : ∃ b, data[i + 3]? = some b ∧ b &&& 0x1F = 5

section

variable {data : List UInt8} {pos : Nat} {a b c d : UInt8}

theorem IdrAt.lt (h : IdrAt data pos) : pos + 3 < data.length := by
  obtain ⟨b, hb, -⟩ := h.header
  exact (List.getElem?_eq_some_iff.1 hb).1

/-- The four bytes that the loop's condition puts inside the string. -/
theorem exists_bytes (h : pos + 3 < data.length) : ∃ a b c d, data[pos]? = some a ∧ data[pos + 1]? = some b ∧
    data[pos + 2]? = some c ∧ data[pos + 3]? = some d :=
  ⟨_, _, _, _, List.getElem?_eq_getElem (by omega), List.getElem?_eq_getElem (by omega),
    List.getElem?_eq_getElem (by omega), List.getElem?_eq_getElem h⟩

theorem twoZeros_eq (ha : data[pos]? = some a) (hb : data[pos + 1]? = some b) :
    twoZeros data pos = some (decide (a = 0 ∧ b = 0)) := by
  unfold twoZeros
  rw [ha, hb]
  by_cases h0 : a = 0
  · by_cases h1 : b = 0 <;> simp [h0, h1]
  · simp [h0]

theorem startCodeLen_eq (h : pos + 3 < data.length) (hc : data[pos + 2]? = some c) (hd : data[pos + 3]? = some d) :
    startCodeLen data pos = some (if c = 1 then 3 else if c = 0 ∧ d = 1 then 4 else 0) := by
  have hle : pos + 4 ≤ data.length := h
  unfold startCodeLen
  rw [hc, hd]
  by_cases h1 : c = 1
  · simp [h1]
  · by_cases h0 : c = 0
    · by_cases h3 : d = 1 <;> simp [h0, h3, hle]
    · simp [h1, h0, hle]

/-- A unit's header is looked at where the string has it. -/
theorem isIdrUnit_spec (data : List UInt8) (i : Nat) :
    ∃ found, isIdrUnit data i = some found ∧ (found = true ↔ ∃ b, data[i]? = some b ∧ b &&& 0x1F = 5) := by
  unfold isIdrUnit
  split
  · rename_i h
    rw [List.getElem?_eq_getElem h]
    exact ⟨_, rfl, by simp [isIdrHeader]⟩
  · rename_i h
    refine ⟨false, rfl, ?_⟩
    rw [List.getElem?_eq_none (by omega)]
    simp

/-- What is found from a position on, where nothing starts at the positions that were passed over. -/
theorem found_from {n : Nat} (hskip : ∀ i, pos ≤ i → i < pos + n → ¬ IdrAt data i) :
    (∃ i, pos + n ≤ i ∧ IdrAt data i) ↔ ∃ i, pos ≤ i ∧ IdrAt data i := by
  constructor
  · rintro ⟨i, hi, hat⟩
    exact ⟨i, by omega, hat⟩
  · rintro ⟨i, hi, hat⟩
    exact ⟨i, Nat.not_lt.1 fun hlt => hskip i hi hlt hat, hat⟩

/-- Behind a start code that ends at `k + 3`: its own unit, and those from there on. -/
theorem found_behind {k : Nat} (hk : pos ≤ k) (h0 : data[k]? = some 0) (h1 : data[k + 1]? = some 0)
    (h2 : data[k + 2]? = some 1) (hskip : ∀ i, pos ≤ i → i < k + 3 → IdrAt data i → i = k)
    (hrest : ∃ found, scan data (k + 3) = some found ∧ (found = true ↔ ∃ i, k + 3 ≤ i ∧ IdrAt data i)) :
    ∃ found, (do if ← isIdrUnit data (k + 3) then pure true else scan data (k + 3)) = some found ∧
      (found = true ↔ ∃ i, pos ≤ i ∧ IdrAt data i) := by
  obtain ⟨unit, hunit, hheader⟩ := isIdrUnit_spec data (k + 3)
  obtain ⟨found, hscan, hfound⟩ := hrest
  rw [hunit]
  cases unit with
  | true => exact ⟨true, rfl, iff_of_true rfl ⟨k, hk, h0, h1, h2, hheader.1 rfl⟩⟩
  | false =>
    refine ⟨found, hscan, hfound.trans ⟨fun ⟨i, hi, hat⟩ => ⟨i, by omega, hat⟩, fun ⟨i, hi, hat⟩ => ⟨i, ?_, hat⟩⟩⟩
    refine Nat.not_lt.1 fun hlt => ?_
    obtain rfl := hskip i hi hlt hat
    exact absurd (hheader.2 hat.header) (by simp)

end

/-- **The loop reads inside the string, ends, and finds a unit that starts where it is or behind.** -/
theorem scan_spec (data : List UInt8) (pos : Nat) :
    ∃ found, scan data pos = some found ∧ (found = true ↔ ∃ i, pos ≤ i ∧ IdrAt data i) := by
  rw [scan]
  split
  · rename_i h
    obtain ⟨a, b, c, d, ha, hb, hc, hd⟩ := exists_bytes h
    rw [twoZeros_eq ha hb, startCodeLen_eq h hc hd]
    -- one byte on: nothing starts at the byte that is left
    have hnext : ¬ IdrAt data pos →
        ∃ found, scan data (pos + 1) = some found ∧ (found = true ↔ ∃ i, pos ≤ i ∧ IdrAt data i) := by
      intro hnot
      obtain ⟨found, hscan, hfound⟩ := scan_spec data (pos + 1)
      refine ⟨found, hscan, hfound.trans (found_from fun i hi hlt => ?_)⟩
      obtain rfl : i = pos := by omega
      exact hnot
    by_cases hz : a = 0 ∧ b = 0
    · obtain ⟨rfl, rfl⟩ := hz
      simp only [and_self, decide_true, Option.bind_eq_bind, Option.bind_some, if_true]
      by_cases h1 : c = 1
      · subst h1
        rw [if_pos rfl, dif_pos (by decide)]
        refine found_behind (Nat.le_refl pos) ha hb hc (fun i hi hlt hat => ?_) (scan_spec data (pos + 3))
        -- the 1 of the start code is a zero of no other
        obtain rfl | rfl | rfl : i = pos ∨ i = pos + 1 ∨ i = pos + 2 := by omega
        · rfl
        · exact absurd (hc.symm.trans hat.second) (by decide)
        · exact absurd (hc.symm.trans hat.first) (by decide)
      rw [if_neg h1]
      by_cases h4 : c = 0 ∧ d = 1
      · obtain ⟨rfl, rfl⟩ := h4
        rw [if_pos ⟨rfl, rfl⟩, dif_pos (by decide)]
        refine found_behind (Nat.le_succ pos) hb hc hd (fun i hi hlt hat => ?_) (scan_spec data (pos + 1 + 3))
        obtain rfl | rfl | rfl | rfl : i = pos ∨ i = pos + 1 ∨ i = pos + 2 ∨ i = pos + 3 := by omega
        · exact absurd (hc.symm.trans hat.one) (by decide)
        · rfl
        · exact absurd (hd.symm.trans hat.second) (by decide)
        · exact absurd (hd.symm.trans hat.first) (by decide)
      · rw [if_neg h4, dif_neg (by decide)]
        exact hnext fun hat => h1 (Option.some.inj (hc.symm.trans hat.one))
    · simp only [hz, decide_false, Option.bind_eq_bind, Option.bind_some, Bool.false_eq_true, if_false]
      refine hnext fun hat => hz ⟨?_, ?_⟩
      · exact Option.some.inj (ha.symm.trans hat.first)
      · exact Option.some.inj (hb.symm.trans hat.second)
  · rename_i h
    refine ⟨false, rfl, ?_⟩
    simp only [Bool.false_eq_true, false_iff, not_exists, not_and]
    exact fun i hi hat => h (by have := hat.lt; omega)
termination_by data.length - pos

/-- **A packet is found to hold an IDR unit exactly where one starts in it**; the loop ends, and reads no byte outside
the packet. -/
theorem isIdrFromNalBytes_iff (data : List UInt8) :
    ∃ found, isIdrFromNalBytes data = some found ∧
      (found = true ↔ ∃ (i : Nat) (b : UInt8), data[i]? = some 0 ∧ data[i + 1]? = some 0 ∧ data[i + 2]? = some 1 ∧
        data[i + 3]? = some b ∧ b &&& 0x1F = 5) := by
  obtain ⟨found, hscan, hfound⟩ := scan_spec data 0
  refine ⟨found, hscan, hfound.trans ⟨?_, ?_⟩⟩
  · rintro ⟨i, -, h0, h1, h2, b, hb, h5⟩
    exact ⟨i, b, h0, h1, h2, hb, h5⟩
  · rintro ⟨i, b, h0, h1, h2, hb, h5⟩
    exact ⟨i, Nat.zero_le i, h0, h1, h2, b, hb, h5⟩

/-- A packet that the encoder did not flag is marked by its bytes alone. -/
theorem isKeyframe_iff (flagged : Bool) (data : List UInt8) :
    ∃ found, isKeyframe flagged data = some found ∧
      (found = true ↔ data ≠ [] ∧ (flagged = true ∨ ∃ i, IdrAt data i)) := by
  obtain ⟨found, hscan, hfound⟩ := scan_spec data 0
  unfold isKeyframe
  cases data with
  | nil => exact ⟨false, rfl, by simp⟩
  | cons b rest =>
    cases flagged with
    | true => exact ⟨true, rfl, by simp⟩
    | false => exact ⟨found, hscan, hfound.trans (by simp)⟩

end NalUnits
end Host
end CloudGaming
