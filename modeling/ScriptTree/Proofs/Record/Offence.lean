import Mathlib.Data.List.Induction
import Mathlib.Data.List.Nodup
import ScriptTree.Proofs.Record

/-!
# Records are decided by the first entry that offends

The entries of a record are visited in their order.  An entry offends if no field has its name and
the record is strict, if an earlier entry is one of the same field, which is noticed before the
value is decoded, or if its value cannot be decoded.  The first entry that offends decides the
error; if none does, every field was met with the value of its entry.  So nothing but the error
depends on the order of the entries.
-/

namespace ScriptTree.RecordType

open Yaml (Cause)

variable {α ν : Type} {r : RecordType α} (decode : (f : r.Field) → ν → Except Cause (r.Value f))

/-! ## Entries -/

/-- Why an entry offends, if it does, given the entries before it. -/
def offence? (earlier : List (String × ν)) (e : String × ν) : Option Cause :=
  match r.ofLabel? e.1 with
  | none => if r.isStrict then some (.unknownField e.1 r.labels) else none
  | some f =>
    if e.1 ∈ earlier.map Prod.fst then some (.duplicateField e.1)
    else match decode f e.2 with
    | .ok _ => none
    | .error cause => some cause

/-- The value of the first entry of a field. -/
def valueOf? (entries : List (String × ν)) (f : r.Field) : Option ν :=
  (entries.find? (·.1 == r.label f)).map Prod.snd

/-- What the fields hold that have an entry. -/
def met (entries : List (String × ν)) : r.Partial := fun f =>
  (valueOf? entries f).bind fun value => (decode f value).toOption

/-- No entry offends. -/
def Accepted (entries : List (String × ν)) : Prop :=
  ∀ earlier e later, entries = earlier ++ e :: later → offence? decode earlier e = none

/-- What entries decide: an error if one of them offends, and it is that of the first one, or else
what the fields hold. -/
inductive Decides (entries : List (String × ν)) : Except Cause r.Partial → Prop where
  | accepted (h : Accepted decode entries) : Decides entries (.ok (met decode entries))
  | rejected {earlier later : List (String × ν)} {e : String × ν} {cause : Cause}
      (split : entries = earlier ++ e :: later) (before : Accepted decode earlier)
      (offence : offence? decode earlier e = some cause) : Decides entries (.error cause)

variable {decode} {earlier entries : List (String × ν)} {e : String × ν} {f : r.Field}

/-! ## One entry -/

/-- A value is looked for behind the entries where there was none so far. -/
theorem valueOf?_concat (earlier : List (String × ν)) (e : String × ν) (f : r.Field) :
    valueOf? (earlier ++ [e]) f =
      (valueOf? earlier f).or (if e.1 == r.label f then some e.2 else none) := by
  rw [valueOf?, valueOf?, List.find?_append, List.find?_singleton, Option.map_or]
  cases e.1 == r.label f <;> rfl

theorem valueOf?_eq_none_iff : valueOf? earlier f = none ↔ r.label f ∉ earlier.map Prod.fst := by
  simp only [valueOf?, Option.map_eq_none_iff, List.find?_eq_none, beq_iff_eq, List.mem_map,
    not_exists, not_and]

/-- A further entry is accepted on top of the entries before it. -/
theorem accepted_concat_iff :
    Accepted decode (entries ++ [e]) ↔
      Accepted decode entries ∧ offence? decode entries e = none := by
  constructor
  · intro h
    refine ⟨fun earlier e' later hsplit => ?_, h entries e [] rfl⟩
    refine h earlier e' (later ++ [e]) ?_
    rw [hsplit, List.append_assoc, List.cons_append]
  · rintro ⟨h, he⟩ earlier e' later hsplit
    rcases List.eq_nil_or_concat later with rfl | ⟨later, last, rfl⟩
    · obtain ⟨rfl, hlast⟩ := List.append_inj' hsplit rfl
      obtain rfl := List.head_eq_of_cons_eq hlast
      exact he
    · rw [List.concat_eq_append, ← List.cons_append, ← List.append_assoc] at hsplit
      exact h earlier e' later (List.append_inj' hsplit rfl).1

theorem accepted_nil : Accepted decode [] :=
  fun _ _ _ h => absurd h (by simp)

/-- An entry of a field offends unless the field comes for the first time with a value. -/
theorem offence?_eq_none_iff (hfield : r.ofLabel? e.1 = some f) :
    offence? decode earlier e = none ↔
      e.1 ∉ earlier.map Prod.fst ∧ ∃ v, decode f e.2 = .ok v := by
  rw [offence?, hfield]
  by_cases hmet : e.1 ∈ earlier.map Prod.fst
  · simp [hmet]
  · cases hvalue : decode f e.2 <;> simp [hmet, hvalue]

/-- Among accepted entries, a field was met exactly if there is an entry for it. -/
theorem Accepted.met_eq_none_iff (h : Accepted decode entries) :
    met decode entries f = none ↔ r.label f ∉ entries.map Prod.fst := by
  refine ⟨fun hnone hmem => ?_, fun hmem => ?_⟩
  · have hmet : valueOf? entries f ≠ none := fun hmissing => valueOf?_eq_none_iff.mp hmissing hmem
    obtain ⟨value, hvalue⟩ := Option.ne_none_iff_exists'.mp hmet
    obtain ⟨e, he, rfl⟩ := Option.map_eq_some_iff.mp hvalue
    obtain ⟨hname, earlier, later, rfl, -⟩ := List.find?_eq_some_iff_append.mp he
    have hfield := ofLabel?_eq_some_iff.mpr (beq_iff_eq.mp hname)
    obtain ⟨-, v, hv⟩ := (offence?_eq_none_iff hfield).mp (h earlier e later rfl)
    rw [met, hvalue, Option.bind_some, hv] at hnone
    cases hnone
  · rw [met, valueOf?_eq_none_iff.mpr hmem]
    rfl

/-- An entry offends, or it adds its value. -/
theorem Accepted.visit_met (h : Accepted decode earlier) (e : String × ν) :
    (met decode earlier).visit decode e =
      match offence? decode earlier e with
      | some cause => .error cause
      | none => .ok (met decode (earlier ++ [e])) := by
  rw [offence?]
  cases hfield : r.ofLabel? e.1 with
  | none =>
      have hsame : met decode (earlier ++ [e]) = met decode earlier := by
        funext f
        have hname : (e.1 == r.label f) = false := by
          rw [← Bool.not_eq_true, beq_iff_eq, ← ofLabel?_eq_some_iff, hfield]
          exact Option.some_ne_none f ∘ Eq.symm
        rw [met, met, valueOf?_concat, hname, if_neg Bool.false_ne_true, Option.or_none]
      rw [Partial.visit_of_none hfield, hsame]
      cases r.isStrict <;> rfl
  | some f =>
      have hname := ofLabel?_eq_some_iff.mp hfield
      rw [Partial.visit_of_some hfield]
      by_cases hmet : e.1 ∈ earlier.map Prod.fst
      · have hsome : (met decode earlier f).isSome = true := by
          rw [Option.isSome_iff_ne_none, Ne, h.met_eq_none_iff, ← hname]
          exact not_not_intro hmet
        simp only [if_pos hsome, if_pos hmet]
      · have hnone : met decode earlier f = none := by rwa [h.met_eq_none_iff, ← hname]
        simp only [hnone, Option.isSome_none, Bool.false_eq_true, if_false, if_neg hmet]
        cases hvalue : decode f e.2 with
        | error cause => rfl
        | ok v =>
            refine congrArg Except.ok (funext fun g => ?_)
            by_cases hg : g = f
            · subst hg
              have hearlier : valueOf? earlier g = none :=
                valueOf?_eq_none_iff.mpr (hname ▸ hmet)
              rw [Partial.set_self, met, valueOf?_concat, hearlier, Option.none_or,
                if_pos (beq_iff_eq.mpr hname), Option.bind_some, hvalue]
              rfl
            · have hother : (e.1 == r.label g) = false := by
                rw [← Bool.not_eq_true, beq_iff_eq, hname]
                exact fun hlabel => hg (r.label_injective hlabel).symm
              rw [Partial.set_of_ne hg, met, met, valueOf?_concat, hother,
                if_neg Bool.false_ne_true, Option.or_none]

/-! ## All entries -/

/-- Visiting the entries that are left decides what all of them decide. -/
theorem Accepted.decides_foldlM (h : Accepted decode earlier) (entries : List (String × ν)) :
    Decides decode (earlier ++ entries)
      (entries.foldlM (Partial.visit decode) (met decode earlier)) := by
  induction entries generalizing earlier with
  | nil =>
      rw [List.append_nil]
      exact .accepted h
  | cons e entries ih =>
      rw [List.foldlM_cons, h.visit_met e]
      cases hoffence : offence? decode earlier e with
      | some cause => exact .rejected rfl h hoffence
      | none =>
          have hrest := ih (accepted_concat_iff.mpr ⟨h, hoffence⟩)
          rw [List.append_assoc, List.singleton_append] at hrest
          exact hrest

theorem decides_foldlM (entries : List (String × ν)) :
    Decides decode entries (entries.foldlM (Partial.visit decode) .empty) :=
  accepted_nil.decides_foldlM entries

/-- The first entry that offends is not behind another one that does. -/
theorem eq_of_offences {earlier earlier' later later' : List (String × ν)} {e e' : String × ν}
    {cause : Cause} (hsplit : earlier ++ e :: later = earlier' ++ e' :: later')
    (hbefore : Accepted decode earlier') (hoffence : offence? decode earlier e = some cause)
    (hlength : earlier.length ≤ earlier'.length) : earlier = earlier' ∧ e = e' := by
  obtain ⟨more, rfl⟩ : earlier <+: earlier' :=
    List.prefix_of_prefix_length_le ⟨e :: later, hsplit⟩ ⟨e' :: later', rfl⟩ hlength
  rw [List.append_assoc] at hsplit
  have hrest := List.append_cancel_left hsplit
  cases more with
  | nil =>
      obtain rfl := List.head_eq_of_cons_eq hrest
      exact ⟨(List.append_nil earlier).symm, rfl⟩
  | cons first more =>
      obtain rfl := List.head_eq_of_cons_eq hrest
      cases (hbefore earlier e more rfl).symm.trans hoffence

/-- Entries decide one thing only. -/
theorem Decides.unique {result result' : Except Cause r.Partial}
    (h : Decides decode entries result) (h' : Decides decode entries result') :
    result = result' := by
  cases h with
  | accepted h =>
      cases h' with
      | accepted => rfl
      | rejected split before offence => cases (h _ _ _ split).symm.trans offence
  | @rejected earlier later e cause split before offence =>
      cases h' with
      | accepted h' => cases (h' _ _ _ split).symm.trans offence
      | @rejected earlier' later' e' cause' split' before' offence' =>
          obtain ⟨rfl, rfl⟩ : earlier = earlier' ∧ e = e' := by
            rcases Nat.le_total earlier.length earlier'.length with hlength | hlength
            · exact eq_of_offences (split.symm.trans split') before' offence hlength
            · have heq := eq_of_offences (split'.symm.trans split) before offence' hlength
              exact ⟨heq.1.symm, heq.2.symm⟩
          exact congrArg Except.error (Option.some.inj (offence.symm.trans offence'))

/-! ## The order of the entries -/

variable (decode) in
/-- What an entry says: its name, and what its value is for every field. -/
def said (e : String × ν) : String × ((f : r.Field) → Option (r.Value f)) :=
  (e.1, fun f => (decode f e.2).toOption)

/-- No entry of a strict record offends exactly if all of them have names of fields, no name stands
twice, and all values can be decoded. -/
theorem accepted_iff (hstrict : r.isStrict = true) :
    Accepted decode entries ↔ (entries.map Prod.fst).Nodup ∧
      ∀ e ∈ entries, ∃ f v, r.ofLabel? e.1 = some f ∧ decode f e.2 = .ok v := by
  have hentry : ∀ earlier e, offence? decode earlier e = none ↔
      e.1 ∉ earlier.map Prod.fst ∧ ∃ f v, r.ofLabel? e.1 = some f ∧ decode f e.2 = .ok v := by
    intro earlier e
    cases hfield : r.ofLabel? e.1 with
    | none => simp [offence?, hfield, hstrict]
    | some f => simp [offence?_eq_none_iff hfield]
  induction entries using List.reverseRecOn with
  | nil => exact iff_of_true accepted_nil ⟨List.nodup_nil, List.forall_mem_nil _⟩
  | append_singleton entries e ih =>
      have hnames : ((entries ++ [e]).map Prod.fst).Nodup ↔
          e.1 ∉ entries.map Prod.fst ∧ (entries.map Prod.fst).Nodup := by
        rw [List.map_append, List.map_singleton, ← List.concat_eq_append, List.nodup_concat]
      rw [accepted_concat_iff, hentry, hnames, List.forall_mem_append, List.forall_mem_singleton]
      constructor
      · rintro ⟨haccepted, hnew, he⟩
        obtain ⟨hnodup, hall⟩ := ih.mp haccepted
        exact ⟨⟨hnew, hnodup⟩, hall, he⟩
      · rintro ⟨⟨hnew, hnodup⟩, hall, he⟩
        exact ⟨ih.mpr ⟨hnodup, hall⟩, hnew, he⟩

theorem Accepted.of_perm (hstrict : r.isStrict = true) {entries' : List (String × ν)}
    (h : Accepted decode entries)
    (hperm : (entries.map (said decode)).Perm (entries'.map (said decode))) :
    Accepted decode entries' := by
  obtain ⟨hnodup, hall⟩ := (accepted_iff hstrict).mp h
  have hnames : (entries.map Prod.fst).Perm (entries'.map Prod.fst) := by
    have hmap := hperm.map Prod.fst
    rwa [List.map_map, List.map_map] at hmap
  refine (accepted_iff hstrict).mpr ⟨hnames.nodup_iff.mp hnodup, ?_⟩
  intro e' he'
  have hmem : said decode e' ∈ entries.map (said decode) :=
    hperm.mem_iff.mpr (List.mem_map_of_mem he')
  obtain ⟨e, he, hsaid⟩ := List.mem_map.mp hmem
  obtain ⟨f, v, hfield, hv⟩ := hall e he
  obtain ⟨hname, hvalues⟩ := Prod.mk.inj hsaid
  have hv' : (decode f e'.2).toOption = some v := by
    have hvalue := congrFun hvalues f
    rw [hv] at hvalue
    exact hvalue.symm
  refine ⟨f, v, hname ▸ hfield, ?_⟩
  cases hdecode : decode f e'.2 with
  | error cause =>
      rw [hdecode] at hv'
      cases hv'
  | ok w =>
      rw [hdecode] at hv'
      exact congrArg Except.ok (Option.some.inj hv')

/-- Where no name stands twice, a name is found wherever it stands. -/
theorem find?_eq_of_perm {β : Type} {as bs : List (String × β)} (h : as.Perm bs)
    (hnodup : (as.map Prod.fst).Nodup) (wanted : String) :
    as.find? (·.1 == wanted) = bs.find? (·.1 == wanted) := by
  induction h with
  | nil => rfl
  | cons a _ ih => rw [List.find?_cons, List.find?_cons, ih (List.nodup_cons.mp hnodup).2]
  | swap a b rest =>
    have hne : b.1 ≠ a.1 := by
      rw [List.map_cons, List.map_cons, List.nodup_cons] at hnodup
      exact fun h => hnodup.1 (h ▸ List.mem_cons_self)
    rw [List.find?_cons, List.find?_cons, List.find?_cons, List.find?_cons]
    cases hb : b.1 == wanted <;> cases ha : a.1 == wanted
    case true.true =>
      have hsame : b.1 = a.1 := by rw [beq_iff_eq.mp hb, beq_iff_eq.mp ha]
      exact absurd hsame hne
    all_goals rfl
  | trans hab _ ihab ihbc => rw [ihab hnodup, ihbc ((hab.map Prod.fst).nodup_iff.mp hnodup)]

/-- What the fields hold depends on what the entries say, and not on their order. -/
theorem Accepted.met_eq (hstrict : r.isStrict = true) {entries' : List (String × ν)}
    (h : Accepted decode entries)
    (hperm : (entries.map (said decode)).Perm (entries'.map (said decode))) :
    met decode entries = met decode entries' := by
  have hmet : ∀ (entries : List (String × ν)) (f : r.Field), met decode entries f =
      ((entries.map (said decode)).find? (·.1 == r.label f)).bind fun s => s.2 f := by
    intro entries f
    rw [met, valueOf?, List.find?_map, Option.bind_map, Option.bind_map]
    rfl
  have hnodup : ((entries.map (said decode)).map Prod.fst).Nodup := by
    rw [List.map_map]
    exact ((accepted_iff hstrict).mp h).1
  funext f
  rw [hmet, hmet, find?_eq_of_perm hperm hnodup]

end ScriptTree.RecordType
