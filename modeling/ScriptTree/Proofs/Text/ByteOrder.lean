import Mathlib.Algebra.Group.Nat.Defs

/-!
# The order of texts

Texts are compared character by character.  UTF-8 keeps this order: the bytes of two texts are in
the same order as the texts, since the first byte tells how long a character is, and longer ones
come later.
-/

namespace ScriptTree.Text

/-- The number of bytes that follow the first byte of a character. -/
def trailingCount (n : Nat) : Nat :=
  if n ≤ 0x7f then 0 else if n ≤ 0x7ff then 1 else if n ≤ 0xffff then 2 else 3

/-- The first byte of a character. -/
def leadByte (n : Nat) : Nat :=
  if n ≤ 0x7f then n
  else if n ≤ 0x7ff then n / 64 + 0xc0
  else if n ≤ 0xffff then n / 4096 + 0xe0
  else n / 262144 + 0xf0

/-- The last digits of a code point to the base 64, as the bytes that follow the first one. -/
def trailingBytes : Nat → Nat → List UInt8
  | 0, _ => []
  | k + 1, n => UInt8.ofNat (n / 64 ^ k % 64 + 0x80) :: trailingBytes k n

theorem codePoint_lt (c : Char) : c.val.toNat < 0x110000 := by
  rcases c.valid with hlow | hhigh
  · exact Nat.lt_trans hlow (by decide)
  · exact hhigh.2

theorem utf8EncodeChar_eq (c : Char) :
    String.utf8EncodeChar c = UInt8.ofNat (leadByte c.val.toNat) ::
      trailingBytes (trailingCount c.val.toNat) c.val.toNat := by
  have hlt := codePoint_lt c
  rw [String.utf8EncodeChar]
  generalize c.val.toNat = n at hlt ⊢
  simp only [leadByte, trailingCount]
  split
  · rfl
  split
  · have hlead : n / 64 % 0x20 = n / 64 := Nat.mod_eq_of_lt (by omega)
    simp [hlead, trailingBytes]
  split
  · have hlead : n / 4096 % 0x10 = n / 4096 := Nat.mod_eq_of_lt (by omega)
    simp [hlead, trailingBytes]
  · have hlead : n / 262144 % 0x08 = n / 262144 := Nat.mod_eq_of_lt (by omega)
    simp [hlead, trailingBytes]

theorem leadByte_lt {n : Nat} (hn : n < 0x110000) : leadByte n < 256 := by
  grind [leadByte]

theorem leadByte_mono {m n : Nat} (h : m ≤ n) : leadByte m ≤ leadByte n := by
  grind [leadByte]

/-- Characters with the same first byte are equally long, and agree but for their last digits. -/
theorem digits_of_leadByte_eq {m n : Nat} (h : leadByte m = leadByte n) :
    trailingCount m = trailingCount n ∧
      m / 64 ^ trailingCount n = n / 64 ^ trailingCount n := by
  grind [leadByte, trailingCount]

/-- Numbers below 256 are compared as bytes are.  What follows decides where they are equal. -/
theorem ofNat_cons_lt {m n : Nat} {x y : List UInt8} (hn : n < 256) (hle : m ≤ n)
    (hrest : m = n → x < y) : UInt8.ofNat m :: x < UInt8.ofNat n :: y := by
  rw [List.cons_lt_cons_iff]
  by_cases heq : m = n
  · exact Or.inr ⟨congrArg UInt8.ofNat heq, hrest heq⟩
  · left
    rw [UInt8.lt_iff_toNat_lt, UInt8.toNat_ofNat', UInt8.toNat_ofNat']
    omega

theorem trailingBytes_lt {k m n : Nat} (hlt : m < n) (hsame : m / 64 ^ k = n / 64 ^ k)
    (x y : List UInt8) : trailingBytes k m ++ x < trailingBytes k n ++ y := by
  induction k with
  | zero =>
      rw [pow_zero, Nat.div_one, Nat.div_one] at hsame
      omega
  | succ k ih =>
      have hle : m / 64 ^ k ≤ n / 64 ^ k := Nat.div_le_div_right (Nat.le_of_lt hlt)
      rw [pow_succ, ← Nat.div_div_eq_div_mul, ← Nat.div_div_eq_div_mul] at hsame
      refine ofNat_cons_lt (by omega) (by omega) ?_
      intro hdigit
      exact ih (by omega)

theorem utf8EncodeChar_lt {c d : Char} (h : c < d) (x y : List UInt8) :
    String.utf8EncodeChar c ++ x < String.utf8EncodeChar d ++ y := by
  have hlt : c.val.toNat < d.val.toNat := h
  rw [utf8EncodeChar_eq, utf8EncodeChar_eq]
  refine ofNat_cons_lt (leadByte_lt (codePoint_lt d)) (leadByte_mono (Nat.le_of_lt hlt)) ?_
  intro hlead
  obtain ⟨hcount, hdigits⟩ := digits_of_leadByte_eq hlead
  rw [hcount]
  exact trailingBytes_lt hlt hdigits x y

theorem flatMap_utf8EncodeChar_lt {cs ds : List Char} (h : cs < ds) :
    cs.flatMap String.utf8EncodeChar < ds.flatMap String.utf8EncodeChar := by
  induction h with
  | nil =>
      rw [List.flatMap_cons, utf8EncodeChar_eq]
      exact List.nil_lt_cons _ _
  | rel hchar =>
      rw [List.flatMap_cons, List.flatMap_cons]
      exact utf8EncodeChar_lt hchar _ _
  | cons _ ih =>
      rw [List.flatMap_cons, List.flatMap_cons]
      exact List.append_left_lt ih

/-- The bytes of a text in UTF-8. -/
def bytes (s : String) : List UInt8 :=
  s.toUTF8.data.toList

theorem bytes_eq_flatMap (s : String) : bytes s = s.toList.flatMap String.utf8EncodeChar := by
  rw [bytes, String.toUTF8_eq_toByteArray, ← String.utf8Encode_toList, List.utf8Encode,
    List.toList_data_toByteArray]

theorem bytes_lt_bytes {s t : String} (h : s < t) : bytes s < bytes t := by
  rw [bytes_eq_flatMap, bytes_eq_flatMap]
  exact flatMap_utf8EncodeChar_lt h

/-- Texts are in the order of their bytes. -/
theorem bytes_le_bytes_iff {s t : String} : bytes s ≤ bytes t ↔ s ≤ t := by
  constructor
  · intro h
    rw [← String.not_lt]
    intro hlt
    exact List.not_lt.mpr h (bytes_lt_bytes hlt)
  · intro h
    by_cases heq : s = t
    · rw [heq]
      exact List.le_refl _
    · have hlt : s < t := String.not_le.mp fun hle => heq (String.le_antisymm h hle)
      exact List.le_of_lt (bytes_lt_bytes hlt)

end ScriptTree.Text
