import ScriptTree.Proofs.Text.Written

/-!
# Decimal integers

Decimal digits are read from the left, and they are a number where no needless zero stands in front.
-/

namespace ScriptTree.Yaml

namespace Scalar

theorem digit?_of_isDigit {c : Char} (h : c.isDigit = true) :
    digit? 10 c = some (c.toNat - 48) := by
  have hlt : c.toNat - 48 < 10 := by
    rw [Char.isDigit, Bool.and_eq_true, decide_eq_true_eq, decide_eq_true_eq] at h
    have hle : c.toNat ≤ 57 := UInt32.le_iff_toNat_le.mp h.2
    omega
  rw [digit?, hexValue?, if_pos h, Option.filter_some, if_pos (decide_eq_true hlt)]

/-- Digits are read from the left, each with ten times what was read before it. -/
theorem natural?_eq {digits : List Char} (h : ∀ c ∈ digits, c.isDigit = true) (hne : digits ≠ []) :
    natural? 10 digits = some (Nat.ofDigitChars 10 digits 0) := by
  have hfold : ∀ n, digits.foldlM (fun n c => (digit? 10 c).map (10 * n + ·)) n =
      some (Nat.ofDigitChars 10 digits n) := by
    clear hne
    induction digits with
    | nil => exact fun n => rfl
    | cons c digits ih =>
        intro n
        obtain ⟨hc, hdigits⟩ := List.forall_mem_cons.mp h
        rw [List.foldlM_cons, digit?_of_isDigit hc, Nat.ofDigitChars_cons]
        exact ih hdigits _
  rw [natural?, List.isEmpty_eq_false_iff.mpr hne]
  exact hfold 0

theorem magnitude?_eq {digits : List Char} (h : ∀ c ∈ digits, c.isDigit = true)
    (hne : digits ≠ []) :
    magnitude? digits =
      if hasLeadingZero digits then none else some (Nat.ofDigitChars 10 digits 0) := by
  rw [← natural?_eq h hne]
  have hsecond : ∀ {c d : Char} {rest : List Char}, digits = c :: d :: rest → d.isDigit = true :=
    fun hdigits => h _ (hdigits ▸ List.mem_cons_of_mem _ List.mem_cons_self)
  rw [magnitude?]
  · rintro rest rfl
    exact absurd (hsecond rfl) (by decide)
  · rintro rest rfl
    exact absurd (hsecond rfl) (by decide)
  · rintro rest rfl
    exact absurd (hsecond rfl) (by decide)

theorem integer?_of_isDigit {digits : List Char} (h : ∀ c ∈ digits, c.isDigit = true) :
    integer? digits = (magnitude? digits).map Int.ofNat := by
  rw [integer?]
  · rintro rest rfl
    exact absurd (h '-' List.mem_cons_self) (by decide)
  · rintro rest rfl
    exact absurd (h '+' List.mem_cons_self) (by decide)

end Scalar

end ScriptTree.Yaml
