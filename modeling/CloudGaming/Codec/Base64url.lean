import Mathlib.Data.List.Basic
/-!
# Base64url — bytes as text of letters, digits, hyphens and underscores

Three bytes are four digits of six bits; one byte more is two digits, two bytes more are three.  There is no padding.
-/
namespace CloudGaming
namespace Codec
namespace Base64url

def alphabet : List Char := "ABCDEFGHIJKLMNOPQRSTUVWXYZabcdefghijklmnopqrstuvwxyz0123456789-_".toList

def char (digit : Nat) : Char := alphabet.getD digit 'A'

def digit? (c : Char) : Option Nat := alphabet.idxOf? c

/-- Bytes as digits. -/
def digits : List UInt8 → List Nat
  | [] => []
  | [a] => [a.toNat / 4, a.toNat % 4 * 16]
  | [a, b] => [a.toNat / 4, a.toNat % 4 * 16 + b.toNat / 16, b.toNat % 16 * 4]
  | a :: b :: c :: rest =>
    a.toNat / 4 :: (a.toNat % 4 * 16 + b.toNat / 16) :: (b.toNat % 16 * 4 + c.toNat / 64) :: c.toNat % 64 :: digits rest

/-- Digits as bytes; the bits that fill no byte are dropped. -/
def undigits : List Nat → List UInt8
  | v :: w :: x :: y :: rest =>
    (v * 4 + w / 16).toUInt8 :: (w % 16 * 16 + x / 4).toUInt8 :: (x % 4 * 64 + y).toUInt8 :: undigits rest
  | [v, w, x] => [(v * 4 + w / 16).toUInt8, (w % 16 * 16 + x / 4).toUInt8]
  | [v, w] => [(v * 4 + w / 16).toUInt8]
  | _ => []

def encode (bytes : List UInt8) : List Char := (digits bytes).map char

/-- A text of the alphabet; nothing is said of any other. -/
def decode (text : List Char) : Option (List UInt8) := (text.mapM digit?).map undigits

theorem char_mem : ∀ n < 64, char n ∈ alphabet := by decide

theorem digits_lt : ∀ bytes : List UInt8, ∀ n ∈ digits bytes, n < 64
  | [] => nofun
  | [a] => by
    have ha : a.toNat < 256 := a.toNat_lt
    intro n hn
    simp only [digits, List.mem_cons, List.not_mem_nil, or_false] at hn
    omega
  | [a, b] => by
    have ha : a.toNat < 256 := a.toNat_lt
    have hb : b.toNat < 256 := b.toNat_lt
    intro n hn
    simp only [digits, List.mem_cons, List.not_mem_nil, or_false] at hn
    omega
  | a :: b :: c :: rest => by
    have ha : a.toNat < 256 := a.toNat_lt
    have hb : b.toNat < 256 := b.toNat_lt
    have hc : c.toNat < 256 := c.toNat_lt
    intro n hn
    simp only [digits, List.mem_cons] at hn
    rcases hn with hn | hn | hn | hn | hn
    · omega
    · omega
    · omega
    · omega
    · exact digits_lt rest n hn

theorem mem_alphabet_of_mem_encode {bytes : List UInt8} {c : Char} (h : c ∈ encode bytes) : c ∈ alphabet := by
  obtain ⟨n, hn, rfl⟩ := List.mem_map.1 h
  exact char_mem n (digits_lt bytes n hn)

end Base64url
end Codec
end CloudGaming
