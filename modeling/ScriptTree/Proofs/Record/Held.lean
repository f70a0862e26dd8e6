import Mathlib.Data.List.Induction
import ScriptTree.Proofs.Record
import ScriptTree.Proofs.Result

/-!
# What the fields of a record hold

Where entries that are none of a field are passed over, every field holds what the entries with its
name say, one at most.  So such a record is decoded exactly if each of its fields has one entry that
can be decoded, or has none and a default.
-/

namespace ScriptTree

open Yaml (Cause)

variable {ν α : Type}

/-- The values of the entries with a name. -/
def valuesOf (name : String) (entries : List (String × ν)) : List ν :=
  (entries.filter (·.1 == name)).map Prod.snd

/-! ## One field -/

/-- What a field has met that has one value at most. -/
inductive Held (stands : ν → α → Prop) : List ν → Option α → Prop where
  | missing : Held stands [] none
  | met {value : ν} {a : α} (h : stands value a) : Held stands [value] (some a)

/-- What a field holds in the end: what stands at its only value, or its default if it has none. -/
inductive Filled (stands : ν → α → Prop) (default : Option α) : List ν → α → Prop where
  | missing {a : α} (h : default = some a) : Filled stands default [] a
  | met {value : ν} {a : α} (h : stands value a) : Filled stands default [value] a

section Held

variable {stands : ν → α → Prop} {values : List ν} {value : ν} {met : Option α}

@[simp] theorem held_nil_iff : Held stands [] met ↔ met = none :=
  ⟨fun h => by cases h; rfl, fun h => h ▸ .missing⟩

@[simp] theorem held_none_iff : Held stands values none ↔ values = [] :=
  ⟨fun h => by cases h; rfl, fun h => h ▸ .missing⟩

theorem held_concat_iff :
    Held stands (values ++ [value]) met ↔
      values = [] ∧ ∃ a, met = some a ∧ stands value a := by
  constructor
  · intro h
    generalize hall : values ++ [value] = all at h
    cases h with
    | missing => simp at hall
    | @met only a ha =>
        obtain ⟨hnil, ⟨⟩⟩ := List.append_inj' (hall.trans (List.nil_append [only]).symm) rfl
        exact ⟨hnil, a, rfl, ha⟩
  · rintro ⟨rfl, a, rfl, ha⟩
    exact .met ha

/-- A field holds in the end what it has met, or else its default. -/
theorem filled_iff {default : Option α} {a : α} :
    Filled stands default values a ↔
      ∃ met, Held stands values met ∧ met.or default = some a := by
  constructor
  · rintro (hdefault | ha)
    · exact ⟨none, .missing, hdefault⟩
    · exact ⟨some a, .met ha, rfl⟩
  · rintro ⟨met, hmet, ha⟩
    cases hmet with
    | missing => exact .missing ha
    | @met value b hb =>
        obtain rfl := Option.some.inj ha
        exact .met hb

end Held

namespace RecordType

variable {r : RecordType α} {decode : (f : r.Field) → ν → Except Cause (r.Value f)}
  {entries : List (String × ν)} {p q : r.Partial} {f g : r.Field}

/-! ## All fields -/

/-- A value of a record stands in entries if its fields hold what the entries say. -/
def StandsIn (r : RecordType α) (stands : (f : r.Field) → ν → r.Value f → Prop)
    (entries : List (String × ν)) (a : α) : Prop :=
  ∃ value : (f : r.Field) → r.Value f,
    (∀ f, Filled (stands f) (r.default f) (valuesOf (r.label f) entries) (value f)) ∧
      r.make value = a

/-- An entry more is a value more for the field that it is one of. -/
theorem valuesOf_concat (entries : List (String × ν)) (e : String × ν) (f : r.Field) :
    valuesOf (r.label f) (entries ++ [e]) =
      valuesOf (r.label f) entries ++ if r.ofLabel? e.1 = some f then [e.2] else [] := by
  rw [valuesOf, valuesOf, List.filter_append, List.map_append]
  simp only [ofLabel?_eq_some_iff]
  by_cases hname : e.1 = r.label f <;> simp [hname]

/-- The fields hold what the entries say, and one entry of a field more fills it. -/
theorem held_concat_of_some {e : String × ν} (hfield : r.ofLabel? e.1 = some f) :
    (∀ g, Held (fun v a => decode g v = .ok a) (valuesOf (r.label g) (entries ++ [e])) (q g)) ↔
      ∃ p : r.Partial,
        (∀ g, Held (fun v a => decode g v = .ok a) (valuesOf (r.label g) entries) (p g)) ∧
          p.visit decode e = .ok q := by
  simp only [valuesOf_concat, Partial.visit_eq_ok_iff hfield]
  constructor
  · intro h
    -- The field was empty before the entry came.
    have hf := h f
    rw [if_pos hfield, held_concat_iff] at hf
    obtain ⟨hnil, a, ha, hdecode⟩ := hf
    refine ⟨Function.update q f none, fun g => ?_, Function.update_self f none q, a, hdecode, ?_⟩
    · by_cases hg : g = f
      · subst hg
        rw [Function.update_self, hnil]
        exact .missing
      · have hother := h g
        rw [if_neg (fun hsome => hg (Option.some.inj (hsome.symm.trans hfield))),
          List.append_nil] at hother
        rwa [Function.update_of_ne hg]
    · rw [Partial.set_eq_update, Function.update_idem, ← ha, Function.update_eq_self]
  · rintro ⟨p, hp, hnone, a, hdecode, rfl⟩ g
    by_cases hg : g = f
    · subst hg
      have hnil := hp g
      rw [hnone, held_none_iff] at hnil
      rw [if_pos hfield, Partial.set_self, hnil]
      exact .met hdecode
    · rw [if_neg (fun hsome => hg (Option.some.inj (hsome.symm.trans hfield))), List.append_nil,
        Partial.set_of_ne hg]
      exact hp g

/-- Where other entries are passed over, the fields come to hold what all the entries say. -/
theorem foldlM_visit_eq_ok_iff (hloose : r.isStrict = false) :
    entries.foldlM (Partial.visit decode) .empty = .ok q ↔
      ∀ f, Held (fun v a => decode f v = .ok a) (valuesOf (r.label f) entries) (q f) := by
  -- An entry comes to what those before it have filled, so the induction is from the end.
  induction entries using List.reverseRecOn generalizing q with
  | nil =>
      change Except.ok Partial.empty = Except.ok q ↔ _
      rw [Except.ok.injEq, funext_iff]
      exact forall_congr' fun f => eq_comm.trans held_nil_iff.symm
  | append_singleton entries e ih =>
      have hlast : (entries ++ [e]).foldlM (Partial.visit decode) .empty =
          entries.foldlM (Partial.visit decode) .empty >>= (Partial.visit decode · e) := by
        rw [List.foldlM_append]
        simp
      rw [hlast, Result.bind_eq_ok_iff]
      simp only [ih]
      cases hfield : r.ofLabel? e.1 with
      | none =>
          have hvalues : ∀ f, valuesOf (r.label f) (entries ++ [e]) =
              valuesOf (r.label f) entries := by
            intro f
            rw [valuesOf_concat, hfield, if_neg (Option.some_ne_none f ∘ Eq.symm), List.append_nil]
          simp only [Partial.visit_of_none hfield, hloose, Bool.false_eq_true, if_false, hvalues,
            Except.ok.injEq, exists_eq_right]
      | some f => exact (held_concat_of_some hfield).symm

end RecordType

/-! ## Records in documents -/

/-- Where other entries are passed over, a record is decoded exactly if it stands in the entries of
a mapping. -/
theorem Reading.Governs.decode_record_eq_ok_iff {R : Reading} {L : Library} (hR : R.Governs L)
    {r : RecordType α} (hloose : r.isStrict = false) {shapes : (f : r.Field) → Shape (r.Value f)}
    {node : R.Node} {a : α} :
    R.decode (.record r shapes) node = .ok a ↔
      ∃ entries, R.named? node = some entries ∧
        r.StandsIn (fun f v b => R.decode (shapes f) v = .ok b) entries a := by
  have hstands : ∀ entries, R.named? node = some entries →
      (R.decode (.record r shapes) node = .ok a ↔
        r.StandsIn (fun f v b => R.decode (shapes f) v = .ok b) entries a) := by
    intro entries hentries
    rw [hR.decode_record hentries, Result.bind_eq_ok_iff]
    simp only [RecordType.foldlM_visit_eq_ok_iff hloose, RecordType.Partial.complete_eq_ok_iff,
      RecordType.StandsIn, filled_iff]
    constructor
    · rintro ⟨p, hp, value, hvalue, rfl⟩
      exact ⟨value, fun f => ⟨p f, hp f, hvalue f⟩, rfl⟩
    · rintro ⟨value, hvalue, rfl⟩
      choose p hp hvalue using hvalue
      exact ⟨p, hp, value, hvalue, rfl⟩
  constructor
  · intro h
    obtain ⟨entries, hentries⟩ := hR.exists_named h
    exact ⟨entries, hentries, (hstands entries hentries).mp h⟩
  · rintro ⟨entries, hentries, h⟩
    exact (hstands entries hentries).mpr h

end ScriptTree
