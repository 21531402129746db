import Mathlib.Algebra.Order.Ring.Rat
/-!
# Json — parsed values, as the host reads them

The values its JSON library parses, with the accessors the host uses.  An integer literal of 64 bits is an integer,
any other number a float, and the members of an object are in key order.  Reading a field with the wrong type throws
(`none`).
-/
namespace CloudGaming
namespace Host

inductive Json where
  | null
  | bool (b : Bool)
  | int (n : Int)
  | float (q : ℚ)
  | str (s : String)
  | arr (items : List Json)
  | obj (fields : List (String × Json))

/-- The signed integer of `bits` bits that `n` is cast to. -/
def wrap (bits : Nat) (n : Int) : Int := (n + 2 ^ (bits - 1)) % 2 ^ bits - 2 ^ (bits - 1)

namespace Json

def field? : Json → String → Option Json
  | obj fields, key => fields.lookup key
  | _, _ => none

def contains (j : Json) (key : String) : Bool := (j.field? key).isSome

def isObject : Json → Bool
  | obj _ => true
  | _ => false

def isBoolean : Json → Bool
  | bool _ => true
  | _ => false

def isInteger : Json → Bool
  | int _ => true
  | _ => false

def isUnsigned : Json → Bool
  | int n => 0 ≤ n
  | _ => false

/-- The members of a container. -/
def size : Json → Nat
  | arr items => items.length
  | obj fields => fields.length
  | null => 0
  | _ => 1

def str? : Json → Option String
  | str s => some s
  | _ => none

def bool? : Json → Option Bool
  | bool b => some b
  | _ => none

/-- `get<std::int64_t>`; a float is truncated. -/
def int64? : Json → Option Int
  | int n => some (wrap 64 n)
  | float q => some (wrap 64 (if 0 ≤ q then q.floor else q.ceil))
  | _ => none

/-- `get<int>`, which takes a boolean as well. -/
def int32? : Json → Option Int
  | bool b => some (if b then 1 else 0)
  | j => j.int64?.map (wrap 32)

/-- `get<std::uint64_t>`. -/
def uint64? (j : Json) : Option Nat := j.int64?.map fun n => (n % 2 ^ 64).toNat

/-- `value(key, default)` at a string. -/
def valueStr (j : Json) (key : String) (default : String) : Option String :=
  match j.field? key with
  | none => some default
  | some v => v.str?

/-- `value(key, default)` at an `int`. -/
def valueInt (j : Json) (key : String) (default : Int) : Option Int :=
  match j.field? key with
  | none => some default
  | some v => v.int32?

/-- `value(key, default)` at a `bool`. -/
def valueBool (j : Json) (key : String) (default : Bool) : Option Bool :=
  match j.field? key with
  | none => some default
  | some v => v.bool?

end Json

/-! ## Truncation -/

/-- A floating-point number as an integer. -/
def truncate (q : ℚ) : Int := if 0 ≤ q then q.floor else q.ceil

@[simp] theorem truncate_intCast (n : Int) : truncate n = n := by
  unfold truncate
  split
  · exact Rat.floor_intCast n
  · exact Rat.ceil_intCast n

theorem truncate_of_nonneg {q : ℚ} (h : 0 ≤ q) : truncate q = q.floor := if_pos h

/-- A positive integer is at most a number exactly if it is at most the number truncated. -/
theorem le_truncate_iff {n : Int} (hn : 0 < n) (q : ℚ) : n ≤ truncate q ↔ (n : ℚ) ≤ q := by
  unfold truncate
  have hpos : (0 : ℚ) < n := by exact_mod_cast hn
  split
  · exact Rat.le_floor_iff
  · rename_i hq
    have hceil : q.ceil ≤ 0 := Rat.ceil_le_iff.2 (le_of_not_ge hq)
    exact iff_of_false (by omega) fun h => hq (hpos.le.trans h)

/-- A message as it arrives: its length in bytes, and what it parses to. -/
structure Payload where
  size : Nat
  value : Option Json

end Host
end CloudGaming
