import ScriptTree.Proofs.Result
import ScriptTree.Proofs.Yaml.Decode

/-!
# What is read of a document

A reader succeeds with a value exactly if the value stands at the node, and then it has followed a
number of aliases that the node alone tells.  The way to the node has no part in it.  So what stands
in a collection is told by its parts, and whether the aliases suffice is settled by one sum.
-/

namespace ScriptTree.Yaml

/-- How many aliases are followed to what the node stands for. -/
def Node.aliases (node : Node) : Nat :=
  if node.isReference then 1 else 0

namespace Document

/-- The text of the scalar that a node stands for. -/
def text? (d : Document) (node : Node) : Option String :=
  (d.follow? node).bind Decode.text?

/-- The items of the sequence that a node stands for.  A node that was left out has none. -/
def items? (d : Document) (node : Node) : Option (List Node) :=
  match d.follow? node with
  | some (.sequence _ _ items) => some items
  | some target => if target.isEmpty then some [] else none
  | none => none

/-- The entries of the mapping that a node stands for.  A node that was left out has none. -/
def entries? (d : Document) (node : Node) : Option (List (Node × Node)) :=
  match d.follow? node with
  | some (.mapping _ _ entries) => some entries
  | some target => if target.isEmpty then some [] else none
  | none => none

/-- The entries with the texts of their keys, if all keys are scalars. -/
def named? (d : Document) (node : Node) : Option (List (String × Node)) :=
  (d.entries? node).bind fun entries =>
    entries.mapM fun entry => (d.text? entry.1).map (·, entry.2)

variable {d : Document} {node target : Node}

/-- What a node stands for stands for itself. -/
theorem follow?_target (h : d.follow? node = some target) : d.follow? target = some target := by
  have hreference := isReference_of_follow? h
  cases target with
  | reference => cases hreference
  | _ => rfl

theorem aliases_target (h : d.follow? node = some target) : target.aliases = 0 := by
  rw [Node.aliases, isReference_of_follow? h]
  rfl

theorem items?_target (h : d.follow? node = some target) : d.items? target = d.items? node := by
  rw [items?, items?, h, follow?_target h]

theorem entries?_target (h : d.follow? node = some target) :
    d.entries? target = d.entries? node := by
  rw [entries?, entries?, h, follow?_target h]

end Document

namespace Decode

variable {α β : Type} {d : Document} {n m : Nat}

/-! ## Success -/

theorem bind_eq_ok_iff {r : Decode α} {next : α → Decode β} {b : β} :
    (r >>= next) d n = .ok (b, m) ↔ ∃ a k, r d n = .ok (a, k) ∧ next a d k = .ok (b, m) := by
  change (r d n >>= fun (a, k) => next a d k) = _ ↔ _
  rw [Result.bind_eq_ok_iff, Prod.exists]

@[simp] theorem pure_eq_ok_iff {a b : α} :
    (pure a : Decode α) d n = .ok (b, m) ↔ b = a ∧ n = m := by
  change (Except.ok (a, n) : Except Fault (α × Nat)) = _ ↔ _
  simp [eq_comm]

theorem map_eq_ok_iff {f : α → β} {r : Decode α} {b : β} :
    (f <$> r) d n = .ok (b, m) ↔ ∃ a, r d n = .ok (a, m) ∧ f a = b := by
  rw [map_eq_pure_bind, bind_eq_ok_iff]
  simp [@eq_comm _ b]

@[simp] theorem fail_ne_ok {cause : Cause} {x : α × Nat} :
    (fail cause : Decode α) d n ≠ .ok x := fun h => by cases h

@[simp] theorem mismatch_ne_ok {node : Node} {expected : Expected} {x : α × Nat} :
    (mismatch node expected : Decode α) d n ≠ .ok x := by
  rw [mismatch_eq]
  exact fun h => by cases h

theorem lift_eq_ok_iff {x : Except Cause α} {a : α} :
    lift x d n = .ok (a, m) ↔ x = .ok a ∧ n = m := by
  cases x with
  | error cause => exact iff_of_false fail_ne_ok (fun h => by cases h.1)
  | ok b => rw [lift, pure_eq_ok_iff, Except.ok.injEq, eq_comm]

theorem resolve_eq_ok_iff {node target : Node} :
    resolve node d n = .ok (target, m) ↔ d.follow? node = some target ∧ n = m + node.aliases := by
  cases node with
  | reference mark number =>
      change Decode.target number d n = _ ↔ d.target? number = some target ∧ n = m + 1
      cases n <;> cases h : d.target? number <;> simp [Decode.target, h]
  | _ =>
      change (pure _ : Decode Node) d n = _ ↔ some _ = some target ∧ n = m
      rw [pure_eq_ok_iff, Option.some.injEq, eq_comm]

theorem value_eq_ok_iff {path : Path} {node : Node} {read : Node → Decode α} {a : α} :
    value path node read d n = .ok (a, m) ↔
      ∃ target k, d.follow? node = some target ∧ n = k + node.aliases ∧
        read target d k = .ok (a, m) := by
  have hwithin : ∀ place k (r : Decode α), within place r d k = .ok (a, m) ↔
      r d k = .ok (a, m) := fun _ _ _ => Result.mapError_eq_ok_iff
  rw [value, bind_eq_ok_iff]
  simp only [resolve_eq_ok_iff, hwithin, and_assoc]

theorem run_eq_ok_iff {r : Decode α} {a : α} :
    r.run d = .ok a ↔ ∃ rest, r d (aliasesPerUnit * d.root.size) = .ok (a, rest) := by
  change (r d _).map _ = _ ↔ _
  rw [Result.map_eq_ok_iff, Prod.exists]
  constructor
  · rintro ⟨_, rest, h, rfl⟩
    exact ⟨rest, h⟩
  · exact fun ⟨rest, h⟩ => ⟨a, rest, h, rfl⟩

/-! ## Readers -/

/-- A reader gives what stands at a node, and follows as many aliases as the node needs. -/
def Reads (d : Document) (read : Path → Node → Decode α) (stands : Node → α → Prop)
    (needs : Node → Nat) : Prop :=
  ∀ path node a n m, read path node d n = .ok (a, m) ↔ stands node a ∧ n = m + needs node

theorem reads_primitive (d : Document) (type : Primitive α) :
    Reads d (primitive type)
      (fun node a => ∃ target, d.follow? node = some target ∧ held? type target = some a)
      Node.aliases := by
  intro path node a n m
  rw [primitive, value_eq_ok_iff]
  constructor
  · rintro ⟨target, k, htarget, rfl, h⟩
    cases ha : held? type target with
    | none =>
        rw [ha] at h
        exact absurd h mismatch_ne_ok
    | some a' =>
        rw [ha] at h
        obtain ⟨rfl, rfl⟩ := pure_eq_ok_iff.mp h
        exact ⟨⟨target, htarget, ha⟩, rfl⟩
  · rintro ⟨⟨target, htarget, ha⟩, rfl⟩
    refine ⟨target, m, htarget, rfl, ?_⟩
    rw [ha]
    rfl

/-- A key is looked at if it is a scalar. -/
theorem fieldName_eq_ok_iff {path : Path} {key : Node} {look : String → Decode α} {a : α} :
    fieldName path key look d n = .ok (a, m) ↔
      ∃ name k, d.text? key = some name ∧ n = k + key.aliases ∧ look name d k = .ok (a, m) := by
  rw [fieldName, value_eq_ok_iff, Document.text?]
  cases d.follow? key with
  | none => simp
  | some target => cases target <;> simp [text?]

/-! ## Sequences -/

/-- The aliases that are followed in all parts of a collection. -/
def total {ν : Type} (needs : ν → Nat) (parts : List ν) : Nat :=
  parts.foldr (fun part n => needs part + n) 0

section Sequences

variable {read : Path → Node → Decode α} {stands : Node → α → Prop} {needs : Node → Nat}

theorem Reads.mapM_eq_ok_iff (h : Reads d read stands needs) (path : Path) {items : List Node}
    (i : Nat) {as : List α} :
    ((items.zipIdx i).mapM fun (node, index) => read (path.item index) node) d n = .ok (as, m) ↔
      List.Forall₂ stands items as ∧ n = m + total needs items := by
  induction items generalizing i n m as with
  | nil =>
      change (pure [] : Decode (List α)) d n = _ ↔ _
      simp [total]
  | cons item items ih =>
      have htotal : total needs (item :: items) = needs item + total needs items := rfl
      rw [List.zipIdx_cons, List.mapM_cons, bind_eq_ok_iff, htotal]
      simp only [h _ _ _ _ _, bind_eq_ok_iff, ih (i + 1), pure_eq_ok_iff,
        List.forall₂_cons_left_iff]
      constructor
      · rintro ⟨a, k, ⟨ha, rfl⟩, as, k', ⟨has, rfl⟩, rfl, rfl⟩
        exact ⟨⟨a, as, ha, has, rfl⟩, by omega⟩
      · rintro ⟨⟨a, as, ha, has, rfl⟩, rfl⟩
        exact ⟨a, _, ⟨ha, by omega⟩, as, m, ⟨has, rfl⟩, rfl, rfl⟩

/-- A list is read of a sequence, item by item. -/
theorem Reads.sequence (h : Reads d read stands needs) :
    Reads d (fun path node => sequence path node read)
      (fun node as => ∃ items, d.items? node = some items ∧ List.Forall₂ stands items as)
      (fun node => node.aliases + total needs ((d.items? node).getD [])) := by
  intro path node as n m
  beta_reduce
  rw [Decode.sequence, value_eq_ok_iff, Document.items?]
  cases d.follow? node with
  | none => simp
  | some target =>
      cases target with
      | sequence mark p items =>
          simp only [Option.some.injEq, exists_and_left, exists_eq_left', h.mapM_eq_ok_iff,
            Option.getD_some]
          constructor
          · rintro ⟨k, rfl, has, rfl⟩
            exact ⟨has, by omega⟩
          · rintro ⟨has, rfl⟩
            exact ⟨m + total needs items, by omega, has, rfl⟩
      | scalar mark p style text =>
          cases hempty : (Node.scalar mark p style text).isEmpty <;> simp [hempty, total, and_comm]
      | _ => simp [Node.isEmpty]

end Sequences

/-! ## Mappings -/

theorem record_eq_ok_iff {name : String} {path : Path} {node : Node}
    {entries : List (Node × Node) → Decode α} {a : α} :
    record name path node entries d n = .ok (a, m) ↔
      ∃ es k, d.entries? node = some es ∧ n = k + node.aliases ∧ entries es d k = .ok (a, m) := by
  rw [record, value_eq_ok_iff, Document.entries?]
  cases d.follow? node with
  | none => simp
  | some target =>
      cases target with
      | scalar mark p style text =>
          cases hempty : (Node.scalar mark p style text).isEmpty <;> simp [hempty]
      | _ => simp [Node.isEmpty]

end Decode

end ScriptTree.Yaml
