import Mathlib.Logic.Function.Basic
import ScriptTree.Proofs.Library

/-!
# Records

What a reader of records does with one entry, and when the fields that were met make up a value.
-/

namespace ScriptTree

namespace RecordType

open Yaml (Cause)

variable {α ν : Type} {r : RecordType α} {p q : r.Partial} {f g : r.Field}

theorem ofLabel?_eq_some_iff {label : String} : r.ofLabel? label = some f ↔ label = r.label f := by
  constructor
  · intro h
    have hlabel := List.find?_some h
    exact (beq_iff_eq.mp hlabel).symm
  · rintro rfl
    have hfound : (r.ofLabel? (r.label f)).isSome = true :=
      List.find?_isSome.mpr ⟨f, r.mem_fields f, beq_self_eq_true _⟩
    obtain ⟨g, hg⟩ := Option.isSome_iff_exists.mp hfound
    have hlabel := List.find?_some hg
    rw [hg, r.label_injective (beq_iff_eq.mp hlabel)]

namespace Partial

theorem set_eq_update {v : r.Value f} : p.set f v = Function.update p f (some v) := by
  funext g
  by_cases h : f = g
  · subst h
    simp [set]
  · rw [Function.update_of_ne (Ne.symm h), set, dif_neg h]

@[simp] theorem set_self {v : r.Value f} : p.set f v f = some v := by
  rw [set_eq_update, Function.update_self]

theorem set_of_ne {v : r.Value f} (h : g ≠ f) : p.set f v g = p g := by
  rw [set_eq_update, Function.update_of_ne h]

/-- The fields make up a value if each of them was met or has a default. -/
theorem complete_eq_ok_iff {a : α} :
    p.complete = .ok a ↔
      ∃ value : (f : r.Field) → r.Value f,
        (∀ f, (p f).or (r.default f) = some (value f)) ∧ r.make value = a := by
  rw [complete]
  split
  case h_1 f hmissing =>
    have hnone := List.find?_some hmissing
    refine iff_of_false (fun h => by cases h) ?_
    rintro ⟨value, hvalue, -⟩
    rw [hvalue f] at hnone
    cases hnone
  case h_2 hmissing =>
    constructor
    · rintro ⟨⟩
      exact ⟨_, fun f => (Option.some_get _).symm, rfl⟩
    · rintro ⟨value, hvalue, rfl⟩
      simp only [hvalue, Option.get_some]

/-! ## One entry -/

variable {decode : (f : r.Field) → ν → Except Cause (r.Value f)} {entry : String × ν}

/-- An entry that is none of a field is passed over, or else it is an error. -/
theorem visit_of_none (h : r.ofLabel? entry.1 = none) :
    p.visit decode entry =
      if r.isStrict then .error (.unknownField entry.1 r.labels) else .ok p := by
  rw [visit, h]

/-- The value of an entry is decoded unless the field was met before. -/
theorem visit_of_some (h : r.ofLabel? entry.1 = some f) :
    p.visit decode entry =
      if (p f).isSome then .error (.duplicateField entry.1)
      else (decode f entry.2).map (p.set f) := by
  rw [visit, h]

theorem visit_eq_ok_iff (h : r.ofLabel? entry.1 = some f) :
    p.visit decode entry = .ok q ↔
      p f = none ∧ ∃ v, decode f entry.2 = .ok v ∧ q = p.set f v := by
  rw [visit_of_some h]
  cases hmet : p f with
  | some v =>
      rw [Option.isSome_some, if_pos rfl]
      exact iff_of_false (fun h => by cases h) (fun h => by cases h.1)
  | none =>
      rw [Option.isSome_none, if_neg Bool.false_ne_true]
      cases decode f entry.2 <;> simp [Except.map, eq_comm]

end Partial

end RecordType

end ScriptTree
