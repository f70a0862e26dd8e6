import ScriptTree.Yaml.Scalar

/-!
# Numerals and lines as they are written

A decimal integer is written as digits behind a sign that may be missing, and a plain line as a
name, a colon, a space and a word.  All characters of names and words stand for themselves, and
numerals are words.
-/

namespace ScriptTree.Yaml

/-! ## Numerals -/

/-- What may stand before the digits of a number. -/
inductive Sign where
  | missing | plus | minus
deriving DecidableEq, Repr

def Sign.text : Sign → List Char
  | missing => []
  | plus => ['+']
  | minus => ['-']

/-- A decimal integer as it is written, with or without needless zeros. -/
structure Numeral where
  sign : Sign
  digits : List Char
  isDigit : ∀ c ∈ digits, c.isDigit = true
  ne_nil : digits ≠ []

namespace Numeral

def text (z : Numeral) : String :=
  String.ofList (z.sign.text ++ z.digits)

/-- The number that the digits stand for. -/
def magnitude (z : Numeral) : Nat :=
  Nat.ofDigitChars 10 z.digits 0

/-- The integer that a numeral stands for. -/
def value (z : Numeral) : Int :=
  match z.sign with
  | .minus => -(z.magnitude : Int)
  | .missing | .plus => z.magnitude

/-- The double of a numeral with a point and a zero behind it.  It is that of the integer, except
that a minus before a zero makes the negative zero. -/
def double (z : Numeral) : Float :=
  if z.sign = .minus ∧ z.magnitude = 0 then -Float.ofNat 0 else Float.ofInt z.value

/-- The shortest numeral for a number. -/
def ofNat (n : Nat) : Numeral where
  sign := .missing
  digits := Nat.toDigits 10 n
  isDigit _ hc := Nat.isDigit_of_mem_toDigits (by decide) (by decide) hc
  ne_nil := Nat.toDigits_ne_nil

theorem value_ofNat (n : Nat) : (ofNat n).value = n :=
  congrArg Int.ofNat Nat.ofDigitChars_ten_toDigits

end Numeral

namespace Scalar

/-- No needless zero stands in front of a number that is written out. -/
theorem head?_toDigits {n : Nat} (h : 0 < n) : (Nat.toDigits 10 n).head? ≠ some '0' := by
  induction n using Nat.strongRecOn with
  | ind n ih =>
      rw [Nat.toDigits_eq_if (by decide)]
      split
      case isTrue hlt =>
        rw [List.head?_cons, ne_eq, Option.some.injEq, Nat.digitChar_eq_zero]
        exact Nat.ne_of_gt h
      case isFalse hle =>
        have hrest := ih (n / 10) (by omega) (by omega)
        rw [List.head?_append]
        cases hdigits : Nat.toDigits 10 (n / 10) with
        | nil => exact absurd hdigits Nat.toDigits_ne_nil
        | cons c rest =>
            rw [hdigits] at hrest
            exact hrest

theorem hasLeadingZero_toDigits (n : Nat) : hasLeadingZero (Nat.toDigits 10 n) = false := by
  rcases Nat.eq_zero_or_pos n with rfl | hpos
  · rfl
  · have hhead := head?_toDigits hpos
    rw [hasLeadingZero]
    rintro c rest heq
    rw [heq] at hhead
    exact hhead rfl

end Scalar

/-! ## Words -/

/-- The characters that stand for themselves in names and numerals. -/
def isPlain (c : Char) : Bool :=
  isWordChar c || c == '+'

theorem isPlain_of_isDigit {c : Char} (h : c.isDigit = true) : isPlain c = true := by
  simp [isPlain, isWordChar, Char.isAlphanum, h]

/-- At least one plain character, and no hyphen alone, which would be an item of a sequence. -/
structure IsWord (cs : List Char) : Prop where
  plain : ∀ c ∈ cs, isPlain c = true
  ne_nil : cs ≠ []
  ne_hyphen : cs ≠ ['-']

theorem isWord_numeral (z : Numeral) : IsWord z.text.toList := by
  obtain ⟨sign, digits, hdigits, hne⟩ := z
  rw [Numeral.text, String.toList_ofList]
  have hplain : ∀ c ∈ digits, isPlain c = true := fun c hc => isPlain_of_isDigit (hdigits c hc)
  cases sign with
  | missing =>
      refine ⟨hplain, hne, ?_⟩
      rintro rfl
      exact absurd (hdigits '-' List.mem_cons_self) (by decide)
  | plus =>
      refine ⟨List.forall_mem_cons.mpr ⟨by decide, hplain⟩, List.cons_ne_nil _ _, fun h => ?_⟩
      exact absurd (List.head_eq_of_cons_eq h) (by decide)
  | minus =>
      refine ⟨List.forall_mem_cons.mpr ⟨by decide, hplain⟩, List.cons_ne_nil _ _, fun h => ?_⟩
      exact hne (List.tail_eq_of_cons_eq h)

/-! ## Lines -/

/-- A line with a name, a colon, a space and a word.  A name that is longer would be no key. -/
structure PlainLine where
  name : List Char
  word : List Char
  isWord_name : IsWord name
  isWord_word : IsWord word
  head_name : name.head? ≠ some '-'
  length_name : name.length ≤ 1024

namespace PlainLine

/-- The characters of a line. -/
def text (l : PlainLine) : List Char :=
  l.name ++ ':' :: ' ' :: (l.word ++ ['\n'])

/-- The text of lines. -/
def textOf (lines : List PlainLine) : List Char :=
  lines.flatMap PlainLine.text

end PlainLine

end ScriptTree.Yaml
