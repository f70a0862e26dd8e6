import ScriptTree.Proofs.Yaml.Entries

/-!
# What is wrong with a record of scalars

A record of scalars is read as it is decoded even where it fails, and only the place of the fault is
the business of the reader.  It follows two aliases for each entry at most, and every document has
more than that.
-/

namespace ScriptTree.Yaml

namespace Decode

variable {α β : Type} {d : Document} {n : Nat}

/-! ## Readers that tell what is decoded -/

/-- A result tells what is decoded, with some place if that is nothing, and so many aliases are left
at least. -/
def Tells (x : Except Cause α) (least : Nat) (result : Except Fault (α × Nat)) : Prop :=
  ∃ rest place, least ≤ rest ∧ result = (x.map (·, rest)).mapError (⟨·, place⟩)

theorem tells_lift (x : Except Cause α) : Tells x n (lift x d n) := by
  refine ⟨n, none, Nat.le_refl n, ?_⟩
  cases x <;> rfl

theorem Tells.bind {x : Except Cause α} {f : α → Except Cause β} {r : Decode α}
    {next : α → Decode β} {between least : Nat} (h : Tells x between (r d n))
    (hnext : ∀ a rest, between ≤ rest → Tells (f a) least (next a d rest))
    (hleast : least ≤ between) :
    Tells (x >>= f) least ((r >>= next) d n) := by
  obtain ⟨rest, place, hrest, hresult⟩ := h
  cases x with
  | error cause => exact ⟨rest, place, Nat.le_trans hleast hrest, bind_of_error hresult⟩
  | ok a =>
      obtain ⟨rest', place', hrest', hresult'⟩ := hnext a rest hrest
      exact ⟨rest', place', hrest', (bind_of_ok hresult).trans hresult'⟩

/-- The place may be settled further out. -/
theorem Tells.settle {x : Except Cause α} {least : Nat} {result : Except Fault (α × Nat)}
    (h : Tells x least result) (place : Place) :
    Tells x least (result.mapError (·.settle place)) := by
  obtain ⟨rest, inner, hrest, rfl⟩ := h
  refine ⟨rest, some (inner.getD place), hrest, ?_⟩
  cases x with
  | ok a => rfl
  | error cause => cases inner <;> rfl

theorem Tells.value {x : Except Cause α} {read : Node → Decode α} {node target : Node} {least : Nat}
    (htarget : d.follow? node = some target) (hn : 0 < n)
    (h : ∀ rest, n ≤ rest + 1 → Tells x least (read target d rest)) (path : Path) :
    Tells x least (value path node read d n) := by
  obtain ⟨rest, hrest, hvalue⟩ := value_eq htarget hn
  rw [hvalue]
  exact (h rest hrest).settle _

/-! ## Entries -/

variable {r : RecordType α} {type : (f : r.Field) → Primitive (r.Value f)}

theorem tells_field? {key : Node} {label : String} (h : d.text? key = some label) (hn : 0 < n)
    (path : Path) : Tells (named r label) (n - 1) (field? r path key d n) := by
  obtain ⟨target, htarget, htext⟩ := Option.bind_eq_some_iff.mp h
  rw [field?_eq]
  refine Tells.value htarget hn (fun rest hrest => ?_) path
  cases target with
  | scalar mark p style text =>
      obtain rfl := Option.some.inj htext
      obtain ⟨_, place, hle, hresult⟩ := tells_lift (d := d) (n := rest) (named r text)
      exact ⟨_, place, by omega, hresult⟩
  | _ => cases htext

theorem tells_scalar {type : Primitive β} {node target : Node} (h : d.follow? node = some target)
    (hn : 0 < n) (depth : Nat) (path : Path) :
    Tells (d.decode (.scalar type) node) (n - 1) (shape (.scalar type) depth path node d n) := by
  rw [Document.decode, shape, primitive, Document.complaint, h, Option.bind_some]
  refine Tells.value h hn (fun rest hrest => ?_) path
  cases held? type target with
  | some a => exact ⟨rest, none, by omega, rfl⟩
  | none => exact ⟨rest, none, by omega, mismatch_eq target (expected type)⟩

theorem tells_entry {e : Node × Node} {label : String} {target : Node}
    (hlabel : d.text? e.1 = some label) (htarget : d.follow? e.2 = some target) (hn : 2 ≤ n)
    (depth : Nat) (path : Path) (p : r.Partial) :
    Tells (p.visit (fun f => d.decode (.scalar (type f))) (label, e.2)) (n - 2)
      (entry r (fun f => shape (.scalar (type f)) depth) path p e d n) := by
  rw [entry_eq, visit_eq]
  refine (tells_field? hlabel (by omega) path).bind (fun f? rest hrest => ?_) (by omega)
  cases f? with
  | none => exact ⟨rest, none, by omega, rfl⟩
  | some f =>
      rw [fill, put]
      cases (p f).isSome with
      | true => exact ⟨rest, none, by omega, rfl⟩
      | false =>
          have hvalue : Tells (d.decode (.scalar (type f)) e.2) (rest - 1)
              (shape (.scalar (type f)) depth (path.entry e.1) e.2 d rest) :=
            tells_scalar htarget (by omega) depth _
          have hmap : (d.decode (.scalar (type f)) e.2).map (p.set f) =
              d.decode (.scalar (type f)) e.2 >>= fun v => .ok (p.set f v) := by
            cases d.decode (.scalar (type f)) e.2 <;> rfl
          simp only [Bool.false_eq_true, if_false, hmap]
          exact hvalue.bind (fun v rest' hrest' => ⟨rest', none, by omega, rfl⟩) (by omega)

/-- Two aliases for each entry are enough. -/
theorem tells_foldlM {entries : List (Node × Node)} {es : List (String × Node)}
    (h : entries.mapM (fun e => (d.text? e.1).map (·, e.2)) = some es)
    (htargets : ∀ e ∈ entries, ∃ target, d.follow? e.2 = some target)
    (hn : 2 * entries.length ≤ n) (depth : Nat) (path : Path) (p : r.Partial) :
    Tells (es.foldlM (RecordType.Partial.visit fun f => d.decode (.scalar (type f))) p) 0
      (entries.foldlM (entry r (fun f => shape (.scalar (type f)) depth) path) p d n) := by
  induction entries generalizing es n p with
  | nil =>
      obtain rfl := Option.some.inj h
      exact ⟨n, none, Nat.zero_le n, rfl⟩
  | cons e entries ih =>
      rw [List.mapM_cons] at h
      obtain ⟨first, hfirst, h⟩ := Option.bind_eq_some_iff.mp h
      obtain ⟨label, hlabel, rfl⟩ := Option.map_eq_some_iff.mp hfirst
      obtain ⟨rest, hrest, h⟩ := Option.bind_eq_some_iff.mp h
      obtain rfl := Option.some.inj h
      obtain ⟨⟨target, htarget⟩, htargets⟩ := List.forall_mem_cons.mp htargets
      rw [List.length_cons] at hn
      rw [List.foldlM_cons, List.foldlM_cons]
      have hentry : Tells (p.visit (fun f => d.decode (.scalar (type f))) (label, e.2)) (n - 2)
          (entry r (fun f => shape (.scalar (type f)) depth) path p e d n) :=
        tells_entry hlabel htarget (by omega) depth path p
      exact hentry.bind (fun q k hk => ih hrest htargets (by omega) q) (by omega)

/-! ## Mappings -/

theorem Tells.record {x : Except Cause α} {read : List (Node × Node) → Decode α} {node : Node}
    {entries : List (Node × Node)} {least : Nat} (hentries : d.entries? node = some entries)
    (hn : 0 < n) (h : ∀ rest, n ≤ rest + 1 → Tells x least (read entries d rest)) (name : String)
    (path : Path) : Tells x least (record name path node read d n) := by
  rw [Document.entries?] at hentries
  cases htarget : d.follow? node with
  | none =>
      rw [htarget] at hentries
      cases hentries
  | some target =>
      rw [htarget] at hentries
      refine Tells.value htarget hn (fun rest hrest => ?_) path
      cases target with
      | mapping mark p list =>
          obtain rfl := Option.some.inj hentries
          exact h rest hrest
      | scalar mark p style text =>
          obtain ⟨hempty, hnil⟩ := Option.ite_none_right_eq_some.mp hentries
          obtain rfl := Option.some.inj hnil
          dsimp only
          rw [if_pos hempty]
          exact h rest hrest
      | _ => cases hentries

end Decode

namespace Document

variable {d : Document} {entries : List (Node × Node)}

/-- The root is no alias, since no anchor stands before it. -/
theorem follow?_root {target : Node} (h : d.follow? d.root = some target) : d.root = target := by
  cases hroot : d.root with
  | reference mark number =>
      rw [hroot] at h
      have hanchored : d.root.anchored = [] := by
        rw [hroot]
        rfl
      change d.target? number = some target at h
      rw [target?, hanchored] at h
      cases h
  | _ =>
      rw [hroot] at h
      exact Option.some.inj h

theorem root_eq_mapping (h : d.entries? d.root = some entries) (hne : entries ≠ []) :
    ∃ mark p, d.root = .mapping mark p entries := by
  rw [entries?] at h
  cases htarget : d.follow? d.root with
  | none =>
      rw [htarget] at h
      cases h
  | some target =>
      rw [htarget] at h
      rw [follow?_root htarget]
      cases target with
      | mapping mark p list =>
          obtain rfl := Option.some.inj h
          exact ⟨mark, p, rfl⟩
      | scalar mark p style text =>
          obtain ⟨-, hnil⟩ := Option.ite_none_right_eq_some.mp h
          exact absurd (Option.some.inj hnil).symm hne
      | _ => cases h

theorem references_subset_of_mem {entries : List (Node × Node)} {e : Node × Node}
    (he : e ∈ entries) : e.2.references ⊆ Node.referencesEntries entries := by
  induction entries with
  | nil => cases he
  | cons first entries ih =>
      intro n hn
      rcases List.mem_cons.mp he with rfl | he
      · exact List.mem_append_left _ (List.mem_append_right _ hn)
      · exact List.mem_append_right _ (ih he hn)

/-- In a document that was read from a text, every value stands for something. -/
theorem exists_follow?_of_mem {text : String} (hd : ofText? text = some d)
    (h : d.entries? d.root = some entries) {e : Node × Node} (he : e ∈ entries) :
    ∃ target, d.follow? e.2 = some target := by
  obtain ⟨mark, p, hroot⟩ := root_eq_mapping h (List.ne_nil_of_mem he)
  refine exists_follow? hd ?_
  rw [hroot]
  exact references_subset_of_mem he

theorem size_pos (node : Node) : 0 < node.size := by
  cases node <;> rw [Node.size] <;> omega

theorem length_le_sizeEntries (entries : List (Node × Node)) :
    entries.length ≤ Node.sizeEntries entries := by
  induction entries with
  | nil => exact Nat.le_refl 0
  | cons entry entries ih =>
      obtain ⟨key, value⟩ := entry
      have hkey := size_pos key
      rw [Node.sizeEntries, List.length_cons]
      omega

/-- More aliases may be followed than there are keys and values. -/
theorem length_lt_aliases (h : d.entries? d.root = some entries) :
    2 * entries.length < Decode.aliasesPerUnit * d.root.size := by
  rw [Decode.aliasesPerUnit]
  cases entries with
  | nil =>
      have hsize := size_pos d.root
      rw [List.length_nil]
      omega
  | cons entry entries =>
      obtain ⟨mark, p, hroot⟩ := root_eq_mapping h (List.cons_ne_nil _ _)
      have hlength := length_le_sizeEntries (entry :: entries)
      rw [hroot, Node.size]
      omega

/-- A record of scalars is read as it is decoded, and no document has too many aliases for it. -/
theorem run_record {text : String} (hd : ofText? text = some d) {es : List (String × Node)}
    (hes : d.named? d.root = some es) {α : Type} {r : RecordType α}
    (type : (f : r.Field) → Primitive (r.Value f)) (depth : Nat) (path : Path) :
    ∃ place, (Decode.shape (.record r fun f => .scalar (type f)) depth path d.root).run d =
      (d.decode (.record r fun f => .scalar (type f)) d.root).mapError (⟨·, place⟩) := by
  obtain ⟨entries, hentries, hnamed⟩ := Option.bind_eq_some_iff.mp hes
  have hlength := length_lt_aliases hentries
  have htells : Decode.Tells (d.decode (.record r fun f => .scalar (type f)) d.root) 0
      (Decode.shape (.record r fun f => .scalar (type f)) depth path d.root d
        (Decode.aliasesPerUnit * d.root.size)) := by
    rw [decode, hes, Decode.shape]
    refine Decode.Tells.record hentries (by omega) (fun rest hrest => ?_) r.name path
    have htargets : ∀ e ∈ entries, ∃ target, d.follow? e.2 = some target :=
      fun e he => exists_follow?_of_mem hd hentries he
    refine (Decode.tells_foldlM hnamed htargets (by omega) (depth - 1) path .empty).bind ?_
      (Nat.le_refl 0)
    intro p rest _
    obtain ⟨_, place, _, hresult⟩ := Decode.tells_lift (d := d) (n := rest) p.complete
    exact ⟨_, place, Nat.zero_le _, hresult⟩
  obtain ⟨rest, place, -, hresult⟩ := htells
  refine ⟨place, ?_⟩
  change (Decode.shape _ depth path d.root d _).map _ = _
  rw [hresult]
  cases d.decode (.record r fun f => .scalar (type f)) d.root <;> rfl

end Document

end ScriptTree.Yaml
