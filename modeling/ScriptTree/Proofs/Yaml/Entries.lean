import ScriptTree.Proofs.Record
import ScriptTree.Proofs.Yaml.Shape

/-!
# Records in a document

An entry of a mapping is read in two steps: its key tells the field, and then its value is put
there.  The entries are read one after the other, as they are visited, and with that a value of any
declared type is read as it is decoded.
-/

namespace ScriptTree.Yaml.Decode

variable {α : Type} {d : Document} {n m : Nat}

/-! ## Entries -/

variable {r : RecordType α} {read : (f : r.Field) → Path → Node → Decode (r.Value f)}
  {stands : (f : r.Field) → Node → Except Cause (r.Value f)} {needs : r.Field → Node → Nat}

/-- The field that an entry with a label is one of, unless it must be one of some field. -/
def named (r : RecordType α) (label : String) : Except Cause (Option r.Field) :=
  match r.ofLabel? label with
  | some f => .ok (some f)
  | none => if r.isStrict then .error (.unknownField label r.labels) else .ok none

/-- The fields with the value of an entry that may be one of a field. -/
def fill (stands : (f : r.Field) → Node → Except Cause (r.Value f)) (p : r.Partial) (value : Node) :
    Option r.Field → Except Cause r.Partial
  | some f =>
    if (p f).isSome then .error (.duplicateField (r.label f)) else (stands f value).map (p.set f)
  | none => .ok p

theorem ofLabel?_of_named {label : String} {f? : Option r.Field} (h : named r label = .ok f?) :
    r.ofLabel? label = f? := by
  rw [named] at h
  cases hlabel : r.ofLabel? label with
  | some f =>
      rw [hlabel] at h
      exact Except.ok.inj h
  | none =>
      rw [hlabel] at h
      cases hstrict : r.isStrict with
      | true =>
          rw [hstrict] at h
          cases h
      | false =>
          rw [hstrict] at h
          exact Except.ok.inj h

/-- An entry is visited in two steps. -/
theorem visit_eq (p : r.Partial) (label : String) (value : Node) :
    p.visit stands (label, value) = named r label >>= fill stands p value := by
  rw [RecordType.Partial.visit, named]
  cases hlabel : r.ofLabel? label with
  | some f =>
      obtain rfl := RecordType.ofLabel?_eq_some_iff.mp hlabel
      rfl
  | none => cases r.isStrict <;> rfl

theorem field?_eq (r : RecordType α) (path : Path) (key : Node) :
    field? r path key = fieldName path key fun label => lift (named r label) := by
  have hlook : ∀ label, (match r.ofLabel? label with
      | some f => pure (some f)
      | none => if r.isStrict then fail (.unknownField label r.labels) else pure none) =
      lift (named r label) := by
    intro label
    rw [named]
    cases r.ofLabel? label with
    | some f => rfl
    | none => cases r.isStrict <;> rfl
  rw [field?]
  exact congrArg _ (funext hlook)

/-- What is done with the value of an entry. -/
def put (read : (f : r.Field) → Path → Node → Decode (r.Value f)) (path : Path) (p : r.Partial)
    (e : Node × Node) : Option r.Field → Decode r.Partial
  | some f => do
    if (p f).isSome then fail (.duplicateField (r.label f))
    return p.set f (← read f (path.entry e.1) e.2)
  | none => pure p

theorem entry_eq (path : Path) (p : r.Partial) (e : Node × Node) :
    entry r read path p e = field? r path e.1 >>= put read path p e := by
  rw [entry]
  refine congrArg _ (funext fun f? => ?_)
  cases f? <;> rfl

theorem put_eq_ok_iff
    (h : ∀ f, Reads d (read f) (fun node v => stands f node = .ok v) (needs f)) {path : Path}
    {p q : r.Partial} {e : Node × Node} {f? : Option r.Field} :
    put read path p e f? d n = .ok (q, m) ↔
      fill stands p e.2 f? = .ok q ∧ n = m + Document.valueNeeds needs e.2 f? := by
  cases f? with
  | none =>
      rw [put, fill, pure_eq_ok_iff, Except.ok.injEq, eq_comm, Document.valueNeeds, Nat.add_zero]
  | some f =>
      rw [put, fill, Document.valueNeeds]
      cases hmet : (p f).isSome with
      | true => exact iff_of_false (fun h => by cases h) (fun h => by cases h.1)
      | false =>
          simp only [Bool.false_eq_true, if_false, Result.map_eq_ok_iff]
          change (read f _ e.2 >>= fun v => pure (p.set f v)) d n = _ ↔ _
          simp only [bind_eq_ok_iff, h f _ _ _ _, pure_eq_ok_iff]
          constructor
          · rintro ⟨v, _, ⟨hv, rfl⟩, rfl, rfl⟩
            exact ⟨⟨v, hv, rfl⟩, rfl⟩
          · rintro ⟨⟨v, hv, rfl⟩, rfl⟩
            exact ⟨v, m, ⟨hv, rfl⟩, rfl, rfl⟩

/-- An entry is read as it is visited, and its key must be a text. -/
theorem entry_eq_ok_iff
    (h : ∀ f, Reads d (read f) (fun node v => stands f node = .ok v) (needs f)) {path : Path}
    {p q : r.Partial} {e : Node × Node} :
    entry r read path p e d n = .ok (q, m) ↔
      ∃ label, d.text? e.1 = some label ∧ p.visit stands (label, e.2) = .ok q ∧
        n = m + d.entryNeeds r needs e := by
  rw [entry_eq, field?_eq]
  simp only [bind_eq_ok_iff, fieldName_eq_ok_iff, lift_eq_ok_iff, put_eq_ok_iff h, visit_eq,
    Result.bind_eq_ok_iff, Document.entryNeeds]
  constructor
  · rintro ⟨f?, _, ⟨label, _, hlabel, rfl, hf, rfl⟩, hfill, rfl⟩
    refine ⟨label, hlabel, ⟨f?, hf, hfill⟩, ?_⟩
    rw [hlabel, Option.bind_some, ofLabel?_of_named hf]
    omega
  · rintro ⟨label, hlabel, ⟨f?, hf, hfill⟩, rfl⟩
    refine ⟨f?, _, ⟨label, _, hlabel, ?_, hf, rfl⟩, hfill, rfl⟩
    rw [hlabel, Option.bind_some, ofLabel?_of_named hf]
    omega

/-- The entries are read one after the other, and all keys must be texts. -/
theorem foldlM_entry_eq_ok_iff
    (h : ∀ f, Reads d (read f) (fun node v => stands f node = .ok v) (needs f)) {path : Path}
    {p q : r.Partial} {entries : List (Node × Node)} :
    entries.foldlM (entry r read path) p d n = .ok (q, m) ↔
      ∃ es, entries.mapM (fun e => (d.text? e.1).map (·, e.2)) = some es ∧
        es.foldlM (RecordType.Partial.visit stands) p = .ok q ∧
        n = m + total (d.entryNeeds r needs) entries := by
  induction entries generalizing p n with
  | nil =>
      change (pure p : Decode r.Partial) d n = _ ↔ ∃ es, some [] = some es ∧ _
      simp only [pure_eq_ok_iff, Option.some.injEq, exists_eq_left']
      change _ ↔ Except.ok p = .ok q ∧ n = m + 0
      rw [Except.ok.injEq, eq_comm, Nat.add_zero]
  | cons e entries ih =>
      have htotal : total (d.entryNeeds r needs) (e :: entries) =
        d.entryNeeds r needs e + total (d.entryNeeds r needs) entries := rfl
      rw [List.foldlM_cons, bind_eq_ok_iff, htotal, List.mapM_cons]
      simp only [entry_eq_ok_iff h, ih]
      constructor
      · rintro ⟨p', _, ⟨label, hlabel, hvisit, rfl⟩, es, hes, hfold, rfl⟩
        refine ⟨(label, e.2) :: es, ?_, ?_, by omega⟩
        · rw [hlabel, hes]
          rfl
        · rw [List.foldlM_cons, hvisit]
          exact hfold
      · rintro ⟨all, hall, hfold, rfl⟩
        obtain ⟨first, hfirst, hall⟩ := Option.bind_eq_some_iff.mp hall
        obtain ⟨label, hlabel, rfl⟩ := Option.map_eq_some_iff.mp hfirst
        obtain ⟨es, hes, hall⟩ := Option.bind_eq_some_iff.mp hall
        obtain rfl := Option.some.inj hall
        rw [List.foldlM_cons, Result.bind_eq_ok_iff] at hfold
        obtain ⟨p', hvisit, hfold⟩ := hfold
        exact ⟨p', _, ⟨label, hlabel, hvisit, by omega⟩, es, hes, hfold, rfl⟩

theorem reads_record {shapes : (f : r.Field) → Shape (r.Value f)} {depth : Nat}
    (h : ∀ f, Reads d (shape (shapes f) (depth - 1))
      (fun node v => d.decode (shapes f) node = .ok v) (d.needs (shapes f))) :
    Reads d (shape (.record r shapes) depth)
      (fun node a => d.decode (.record r shapes) node = .ok a) (d.needs (.record r shapes)) := by
  intro path node a n m
  beta_reduce
  rw [shape, record_eq_ok_iff, Document.decode, Document.needs, Document.named?]
  simp only [bind_eq_ok_iff, foldlM_entry_eq_ok_iff h, lift_eq_ok_iff]
  cases hentries : d.entries? node with
  | none => simp
  | some entries =>
      rw [Option.bind_some, Option.getD_some]
      cases hnamed : entries.mapM fun e => (d.text? e.1).map (·, e.2) with
      | none => simp [hnamed]
      | some es =>
          simp only [Result.bind_eq_ok_iff]
          constructor
          · rintro ⟨_, _, ⟨⟩, rfl, p, _, ⟨es', hes', hfold, rfl⟩, hcomplete, rfl⟩
            obtain rfl := Option.some.inj (hnamed.symm.trans hes')
            exact ⟨⟨p, hfold, hcomplete⟩, by omega⟩
          · rintro ⟨⟨p, hfold, hcomplete⟩, rfl⟩
            exact ⟨entries, _, rfl, by omega, p, m, ⟨es, hnamed, hfold, rfl⟩, hcomplete, rfl⟩

/-! ## Declared types -/

/-- A value of a declared type is read exactly if it is decoded, and then the aliases are followed
that the node needs. -/
theorem reads_shape (d : Document) (s : Shape α) (depth : Nat) :
    Reads d (shape s depth) (fun node a => d.decode s node = .ok a) (d.needs s) := by
  induction s generalizing depth with
  | scalar type =>
      intro path node a n m
      beta_reduce
      rw [Document.decode_scalar_eq_ok_iff, shape]
      exact reads_primitive d type path node a n m
  | optional s ih => exact reads_optional (ih depth)
  | list s ih =>
      intro path node as n m
      beta_reduce
      rw [Document.decode_list_eq_ok_iff, shape]
      exact (ih (depth - 1)).sequence path node as n m
  | firstOf name variants => exact reads_firstOf d name variants depth
  | record r shapes ih => exact reads_record fun f => ih f (depth - 1)

end ScriptTree.Yaml.Decode
