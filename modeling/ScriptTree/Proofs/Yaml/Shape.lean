import ScriptTree.Proofs.Yaml.Reading

/-!
# Values of declared types in a document

What is decoded at a node is told without places and without counting aliases.  The reader gives the
same value, if there is one, as long as the aliases suffice that the type and the node need.
-/

namespace ScriptTree.Yaml

/-! ## What is decoded at a node -/

namespace Document

/-- Whether a value is missing at a node where it may be missing. -/
def isNull (d : Document) (node : Node) : Except Cause Bool :=
  match d.follow? node with
  | some target => Decode.isNull target
  | none => .error .unknownAlias

/-- The scalar at a node, unless it bears the name of a type of the application. -/
def scalar? (d : Document) (node : Node) : Option Scalar :=
  (d.follow? node).bind fun target =>
    if target.properties.tag.any Tag.isApplicationType then none
    else match Decode.found target with
      | .ok (.scalar s) => some s
      | _ => none

/-- Why a node does not hold what is asked. -/
def complaint (d : Document) (node : Node) (expected : Expected) : Cause :=
  match d.follow? node with
  | some target => Decode.complaint target expected
  | none => .unknownAlias

/-- What is decoded at a node. -/
def decode (d : Document) : {α : Type} → Shape α → Node → Except Cause α
  | _, .scalar type, node =>
    match (d.follow? node).bind (Decode.held? type) with
    | some a => .ok a
    | none => .error (d.complaint node (Decode.expected type))
  | _, .optional s, node =>
    d.isNull node >>= fun missing => if missing then .ok none else (d.decode s node).map some
  | _, .list s, node =>
    match d.items? node with
    | some items => items.mapM (d.decode s)
    | none => .error (d.complaint node .sequence)
  | _, .firstOf name variants, node =>
    match (d.scalar? node).bind fun s => variants.findSome? (·.ofScalar? s) with
    | some a => .ok a
    | none => .error (.noVariant name)
  | _, .record r shapes, node =>
    match d.named? node with
    | some entries =>
      entries.foldlM (RecordType.Partial.visit fun f => d.decode (shapes f)) .empty >>=
        RecordType.Partial.complete
    | none => .error (d.complaint node (.record r.name))

/-- The aliases that are followed to the value of an entry that may be one of a field. -/
def valueNeeds {φ : Type} (needs : φ → Node → Nat) (value : Node) : Option φ → Nat
  | some f => needs f value
  | none => 0

/-- The aliases that are followed in an entry. -/
def entryNeeds (d : Document) {α : Type} (r : RecordType α) (needs : r.Field → Node → Nat)
    (entry : Node × Node) : Nat :=
  entry.1.aliases + valueNeeds needs entry.2 ((d.text? entry.1).bind r.ofLabel?)

/-- The aliases that are followed at a node, if a value is decoded there. -/
def needs (d : Document) : {α : Type} → Shape α → Node → Nat
  | _, .scalar _, node | _, .firstOf _ _, node => node.aliases
  | _, .optional s, node =>
    match d.isNull node with
    | .ok false => d.needs s node
    | _ => node.aliases
  | _, .list s, node => node.aliases + Decode.total (d.needs s) ((d.items? node).getD [])
  | _, .record r shapes, node =>
    node.aliases +
      Decode.total (d.entryNeeds r fun f => d.needs (shapes f)) ((d.entries? node).getD [])

variable {d : Document} {node target : Node}

theorem isNull_target (h : d.follow? node = some target) : d.isNull target = d.isNull node := by
  rw [isNull, isNull, h, follow?_target h]

theorem scalar?_target (h : d.follow? node = some target) : d.scalar? target = d.scalar? node := by
  rw [scalar?, scalar?, h, follow?_target h]

theorem complaint_target (h : d.follow? node = some target) (expected : Expected) :
    d.complaint target expected = d.complaint node expected := by
  rw [complaint, complaint, h, follow?_target h]

theorem named?_target (h : d.follow? node = some target) : d.named? target = d.named? node := by
  rw [named?, named?, entries?_target h]

/-- The same is decoded at a node as at what it stands for. -/
theorem decode_target {α : Type} (s : Shape α) (h : d.follow? node = some target) :
    d.decode s target = d.decode s node := by
  induction s with
  | scalar type => rw [decode, decode, h, follow?_target h, complaint_target h]
  | optional s ih => rw [decode, decode, isNull_target h, ih]
  | list s => rw [decode, decode, items?_target h, complaint_target h]
  | firstOf name variants => rw [decode, decode, scalar?_target h]
  | record r shapes => rw [decode, decode, named?_target h, complaint_target h]

/-- An alias takes one more than what it stands for. -/
theorem needs_target {α : Type} (s : Shape α) (h : d.follow? node = some target) :
    d.needs s node = node.aliases + d.needs s target := by
  have htarget := aliases_target h
  induction s with
  | scalar type => rw [needs, needs, htarget, Nat.add_zero]
  | optional s ih =>
      rw [needs, needs, isNull_target h]
      cases d.isNull node with
      | error cause => exact htarget.symm ▸ rfl
      | ok missing =>
          cases missing with
          | true => exact htarget.symm ▸ rfl
          | false => exact ih
  | list s => rw [needs, needs, htarget, items?_target h, Nat.zero_add]
  | firstOf name variants => rw [needs, needs, htarget, Nat.add_zero]
  | record r shapes => rw [needs, needs, htarget, entries?_target h, Nat.zero_add]

theorem scalar?_eq_some_iff {s : Scalar} :
    d.scalar? node = some s ↔ ∃ target, d.follow? node = some target ∧
      target.properties.tag.any Tag.isApplicationType = false ∧
      Decode.found target = .ok (.scalar s) := by
  rw [scalar?, Option.bind_eq_some_iff]
  refine exists_congr fun target => and_congr_right fun _ => ?_
  cases target.properties.tag.any Tag.isApplicationType with
  | true => simp
  | false =>
      rw [if_neg Bool.false_ne_true]
      cases Decode.found target with
      | error cause => simp
      | ok found => cases found <;> simp

theorem decode_scalar_eq_ok_iff {α : Type} {type : Primitive α} {a : α} :
    d.decode (.scalar type) node = .ok a ↔
      ∃ target, d.follow? node = some target ∧ Decode.held? type target = some a := by
  rw [decode, ← Option.bind_eq_some_iff]
  cases (d.follow? node).bind (Decode.held? type) <;> simp

theorem decode_firstOf_eq_ok_iff {α : Type} {name : String} {variants : List (Variant α)} {a : α} :
    d.decode (.firstOf name variants) node = .ok a ↔
      ∃ s, d.scalar? node = some s ∧ variants.findSome? (·.ofScalar? s) = some a := by
  rw [decode, ← Option.bind_eq_some_iff]
  cases (d.scalar? node).bind fun s => variants.findSome? (·.ofScalar? s) <;> simp

theorem decode_list_eq_ok_iff {α : Type} {s : Shape α} {as : List α} :
    d.decode (.list s) node = .ok as ↔ ∃ items, d.items? node = some items ∧
      List.Forall₂ (fun item a => d.decode s item = .ok a) items as := by
  rw [decode]
  cases d.items? node <;> simp [Result.mapM_eq_ok_iff]

end Document

namespace Decode

variable {α : Type} {d : Document} {n m : Nat}

/-! ## Sums -/

/-- An integer beyond 64 bits is not delivered to what takes any value. -/
theorem anyScalar_eq_ok_iff {tag : Option Tag} {style : Style} {text : String} {s : Scalar} :
    anyScalar tag style text d n = .ok (s, m) ↔
      scalar tag style text = .ok s ∧ (∀ w, s ≠ .wide w) ∧ n = m := by
  rw [anyScalar]
  cases hscalar : scalar tag style text with
  | error cause => simp
  | ok t =>
      have hself : (Except.ok t : Except Cause Scalar) = .ok s ↔ s = t := by
        rw [Except.ok.injEq, eq_comm]
      rw [hself]
      cases t with
      | wide w =>
          have hwide : ¬ ∀ w', Scalar.wide w ≠ .wide w' := fun h => h w rfl
          refine iff_of_false fail_ne_ok ?_
          rintro ⟨rfl, hnot, -⟩
          exact hwide hnot
      | _ =>
          rw [pure_eq_ok_iff]
          refine and_congr_right fun hs => ?_
          subst hs
          simp

/-- A collection is not given back, whatever is read of its parts. -/
theorem discard_ne_some {parts : Decode Unit} {s : Scalar} :
    (parts >>= fun _ => pure none : Decode (Option Scalar)) d n ≠ .ok (some s, m) := by
  intro h
  obtain ⟨_, k, -, h⟩ := bind_eq_ok_iff.mp h
  cases h

theorem found_scalar_eq_ok_iff {mark : Mark} {p : Properties} {style : Style} {text : String}
    {s : Scalar} :
    found (.scalar mark p style text) = .ok (.scalar s) ↔ scalar p.tag style text = .ok s := by
  rw [found]
  cases scalar p.tag style text with
  | error cause => exact iff_of_false (fun h => by cases h) (fun h => by cases h)
  | ok t =>
      change Except.ok (Found.scalar t) = .ok (.scalar s) ↔ _
      simp

/-- A value of any type that is a scalar. -/
theorem any_eq_ok_iff {depth : Nat} {path : Path} {node : Node} {s : Scalar} :
    any depth path node d n = .ok (some s, m) ↔
      d.scalar? node = some s ∧ (∀ w, s ≠ .wide w) ∧ n = m + node.aliases := by
  rw [any, value_eq_ok_iff, Document.scalar?_eq_some_iff]
  constructor
  · rintro ⟨target, k, htarget, rfl, h⟩
    split at h
    case isTrue => cases h
    case isFalse htag =>
      rw [Bool.not_eq_true] at htag
      cases target with
      | scalar mark p style text =>
          obtain ⟨t, ht, ⟨⟩⟩ := map_eq_ok_iff.mp h
          obtain ⟨hscalar, hwide, rfl⟩ := anyScalar_eq_ok_iff.mp ht
          exact ⟨⟨_, htarget, htag, found_scalar_eq_ok_iff.mpr hscalar⟩, hwide, rfl⟩
      | _ =>
          cases depth with
          | zero => cases h
          | succ depth => exact absurd h discard_ne_some
  · rintro ⟨⟨target, htarget, htag, hfound⟩, hwide, rfl⟩
    refine ⟨target, m, htarget, rfl, ?_⟩
    rw [htag, if_neg Bool.false_ne_true]
    cases target with
    | scalar mark p style text =>
        have hscalar := found_scalar_eq_ok_iff.mp hfound
        have hread : anyScalar p.tag style text d m = .ok (s, m) :=
          anyScalar_eq_ok_iff.mpr ⟨hscalar, hwide, rfl⟩
        exact map_eq_ok_iff.mpr ⟨s, hread, rfl⟩
    | _ => cases hfound

theorem ofScalar?_wide {β : Type} (p : Payload β) (w : Int) : p.ofScalar? (.wide w) = none := by
  cases p <;> rfl

/-- No variant is one of integers beyond 64 bits. -/
theorem ne_wide_of_findSome? {variants : List (Variant α)} {s : Scalar} {a : α}
    (h : variants.findSome? (·.ofScalar? s) = some a) (w : Int) : s ≠ .wide w := by
  rintro rfl
  obtain ⟨v, -, hv⟩ := List.exists_of_findSome?_eq_some h
  rw [Variant.ofScalar?, ofScalar?_wide] at hv
  cases hv

theorem reads_firstOf (d : Document) (name : String) (variants : List (Variant α)) (depth : Nat) :
    Reads d (shape (.firstOf name variants) depth)
      (fun node a => d.decode (.firstOf name variants) node = .ok a)
      (d.needs (.firstOf name variants)) := by
  intro path node a n m
  beta_reduce
  rw [shape, bind_eq_ok_iff, Document.decode_firstOf_eq_ok_iff, Document.needs]
  constructor
  · rintro ⟨s?, k, hany, h⟩
    cases ha : s?.bind fun s => variants.findSome? (·.ofScalar? s) with
    | none =>
        rw [ha] at h
        cases h
    | some a' =>
        rw [ha] at h
        obtain ⟨rfl, rfl⟩ := pure_eq_ok_iff.mp h
        obtain ⟨s, rfl, hs⟩ := Option.bind_eq_some_iff.mp ha
        obtain ⟨hscalar, -, rfl⟩ := any_eq_ok_iff.mp hany
        exact ⟨⟨s, hscalar, hs⟩, rfl⟩
  · rintro ⟨⟨s, hscalar, hs⟩, rfl⟩
    have hany : any depth path node d (m + node.aliases) = .ok (some s, m) :=
      any_eq_ok_iff.mpr ⟨hscalar, ne_wide_of_findSome? hs, rfl⟩
    refine ⟨some s, m, hany, ?_⟩
    rw [Option.bind_some, hs]
    rfl

/-! ## What may be missing -/

theorem reads_optional {s : Shape α} {depth : Nat}
    (h : Reads d (shape s depth) (fun node a => d.decode s node = .ok a) (d.needs s)) :
    Reads d (shape (.optional s) depth) (fun node o => d.decode (.optional s) node = .ok o)
      (d.needs (.optional s)) := by
  intro path node o n m
  beta_reduce
  rw [shape, bind_eq_ok_iff, Document.decode, Document.needs, Result.bind_eq_ok_iff]
  simp only [resolve_eq_ok_iff, bind_eq_ok_iff, lift_eq_ok_iff]
  constructor
  · rintro ⟨target, _, ⟨htarget, rfl⟩, missing, _, ⟨hnull, rfl⟩, h'⟩
    have hmissing : d.isNull node = .ok missing := by
      rw [Document.isNull, htarget]
      exact hnull
    rw [hmissing]
    cases missing with
    | true =>
        obtain ⟨rfl, rfl⟩ := pure_eq_ok_iff.mp h'
        exact ⟨⟨true, rfl, rfl⟩, rfl⟩
    | false =>
        obtain ⟨a, hread, rfl⟩ := map_eq_ok_iff.mp h'
        obtain ⟨ha, rfl⟩ := (h path target a _ m).mp hread
        rw [Document.decode_target s htarget] at ha
        refine ⟨⟨false, rfl, Result.map_eq_ok_iff.mpr ⟨a, ha, rfl⟩⟩, ?_⟩
        dsimp only
        rw [Document.needs_target s htarget]
        omega
  · rintro ⟨⟨missing, hmissing, h'⟩, rfl⟩
    rw [hmissing]
    cases htarget : d.follow? node with
    | none =>
        rw [Document.isNull, htarget] at hmissing
        cases hmissing
    | some target =>
        have hnull : isNull target = .ok missing := by
          rw [Document.isNull, htarget] at hmissing
          exact hmissing
        cases missing with
        | true =>
            obtain rfl := Except.ok.inj h'
            exact ⟨target, m, ⟨rfl, rfl⟩, true, m, ⟨hnull, rfl⟩, rfl⟩
        | false =>
            obtain ⟨a, ha, rfl⟩ := Result.map_eq_ok_iff.mp h'
            rw [← Document.decode_target s htarget] at ha
            have hread := (h path target a _ m).mpr ⟨ha, rfl⟩
            refine ⟨target, m + d.needs s target, ⟨rfl, ?_⟩, false, _, ⟨hnull, rfl⟩,
              map_eq_ok_iff.mpr ⟨a, hread, rfl⟩⟩
            dsimp only
            rw [Document.needs_target s htarget]
            omega

end Decode

end ScriptTree.Yaml
