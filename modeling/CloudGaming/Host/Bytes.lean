import Mathlib.Data.List.Basic
/-!
# Bytes — strings as the host has them

A string of the host is a sequence of bytes.  The classes of characters are those of the C locale; the JSON library writes
a string only where it is UTF-8.
-/
namespace CloudGaming
namespace Host

abbrev Bytes := List UInt8

namespace Bytes

/-- A text of ASCII characters. -/
def ascii (s : String) : Bytes := s.toList.map fun c => c.toNat.toUInt8

def iscntrl (c : UInt8) : Bool := c < 32 || c == 127

def isspace (c : UInt8) : Bool := c == 32 || (9 ≤ c && c ≤ 13)

def isdigit (c : UInt8) : Bool := 48 ≤ c && c ≤ 57

/-- `isalnum` of a character in lower case. -/
def isalnum (c : UInt8) : Bool := isdigit c || (97 ≤ c && c ≤ 122)

def tolower (c : UInt8) : UInt8 := if 65 ≤ c && c ≤ 90 then c + 32 else c

/-- The text that the bytes are in UTF-8. -/
def decode (b : Bytes) : Option String := String.fromUTF8? b.toByteArray

theorem decode_eq_some_iff {b : Bytes} {s : String} : decode b = some s ↔ s.toByteArray = b.toByteArray := by
  unfold decode String.fromUTF8?
  constructor
  · intro h
    split at h
    · obtain rfl := Option.some.inj h
      rfl
    · cases h
  · intro h
    rw [dif_pos (h ▸ s.isValidUTF8), Option.some.injEq, ← String.toByteArray_inj]
    exact h.symm

/-- Bytes below 128, as characters. -/
def chars (b : Bytes) : List Char := b.map fun c => Char.ofNat c.toNat

theorem toNat_ofNat_of_lt {n : Nat} (h : n < 128) : (Char.ofNat n).toNat = n := by
  have hvalid : n.isValidChar := .inl (by omega)
  rw [Char.ofNat, dif_pos hvalid]
  rfl

/-- An ASCII character is the byte of its number. -/
theorem toByteArray_ofList : ∀ {cs : List Char}, (∀ c ∈ cs, c.toNat < 128) →
    (String.ofList cs).toByteArray = (cs.map fun c => c.toNat.toUInt8).toByteArray
  | [], _ => rfl
  | c :: cs, h => by
    have hlt : c.toNat < 128 := h c List.mem_cons_self
    have hc : String.utf8EncodeChar c = [c.toNat.toUInt8] := by
      refine String.utf8EncodeChar_eq_singleton ?_
      rw [Char.utf8Size_eq_one_iff]
      exact UInt32.le_iff_toNat_le.2 (Nat.le_of_lt_succ hlt)
    have ih := toByteArray_ofList fun d hd => h d (List.mem_cons_of_mem c hd)
    rw [String.toByteArray_ofList] at ih ⊢
    rw [List.utf8Encode_cons, List.utf8Encode_singleton, hc, ih, ← List.toByteArray_append, List.map_cons,
      List.singleton_append]

/-- **Bytes below 128 are a text of as many characters.** -/
theorem decode_of_ascii {b : Bytes} (h : ∀ c ∈ b, c < 128) : decode b = some (String.ofList (chars b)) := by
  have hnat : ∀ c ∈ b, (Char.ofNat c.toNat).toNat = c.toNat := fun c hc =>
    toNat_ofNat_of_lt (UInt8.lt_iff_toNat_lt.1 (h c hc))
  have hback : (chars b).map (fun c => c.toNat.toUInt8) = b := by
    rw [chars, List.map_map]
    refine (List.map_congr_left fun c hc => ?_).trans (List.map_id b)
    rw [Function.comp_apply, hnat c hc, id]
    exact UInt8.ofNat_toNat
  rw [decode_eq_some_iff, toByteArray_ofList, hback]
  intro c hc
  obtain ⟨d, hd, rfl⟩ := List.mem_map.1 hc
  rw [hnat d hd]
  exact UInt8.lt_iff_toNat_lt.1 (h d hd)

/-- A text of ASCII characters has one spelling in bytes. -/
theorem eq_of_decode {b : Bytes} {s : String} (h : decode b = some s) (hs : ∀ c ∈ s.toList, c.toNat < 128) :
    b = s.toList.map fun c => c.toNat.toUInt8 := by
  rw [decode_eq_some_iff, ← String.ofList_toList (s := s), toByteArray_ofList hs] at h
  exact (List.toByteArray_inj.1 h).symm

theorem decode_ascii {s : String} (hs : ∀ c ∈ s.toList, c.toNat < 128) : decode (ascii s) = some s := by
  rw [decode_eq_some_iff]
  conv => lhs; rw [← String.ofList_toList (s := s)]
  exact toByteArray_ofList hs

end Bytes
end Host
end CloudGaming
