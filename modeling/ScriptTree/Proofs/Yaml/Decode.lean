import ScriptTree.Proofs.Library
import ScriptTree.Proofs.Yaml.Aliases
import ScriptTree.Yaml.Decode

/-!
# Reading through aliases

A reader may follow a number of aliases that grows with the document, so it never runs out where it
follows a bounded number of them for each part.  What is read of a node is what is read of the node
it stands for, with the place of that node.
-/

namespace ScriptTree.Yaml.Decode

variable {α β : Type} {d : Document} {aliases : Nat}

theorem bind_of_ok {r : Decode α} {next : α → Decode β} {a : α} {rest : Nat}
    (h : r d aliases = .ok (a, rest)) : (r >>= next) d aliases = next a d rest := by
  change (r d aliases >>= fun (a, rest) => next a d rest) = _
  rw [h]
  rfl

theorem bind_of_error {r : Decode α} {next : α → Decode β} {f : Fault}
    (h : r d aliases = .error f) : (r >>= next) d aliases = .error f := by
  change (r d aliases >>= fun (a, rest) => next a d rest) = _
  rw [h]
  rfl

/-- A node is read as what it stands for, and that takes one alias at most. -/
theorem value_eq {node target : Node} (h : d.follow? node = some target) (haliases : 0 < aliases) :
    ∃ rest, aliases ≤ rest + 1 ∧ ∀ {α : Type} (path : Path) (read : Node → Decode α),
      value path node read d aliases =
        (read target d rest).mapError (·.settle ⟨target.mark, path⟩) := by
  have hresolve : ∃ rest, aliases ≤ rest + 1 ∧ resolve node d aliases = .ok (target, rest) := by
    cases node with
    | reference mark number =>
        obtain ⟨rest, rfl⟩ := Nat.exists_eq_add_one_of_ne_zero (Nat.ne_of_gt haliases)
        refine ⟨rest, Nat.le_refl _, ?_⟩
        change d.target? number = some target at h
        simp only [resolve, Decode.target, h]
    | _ =>
        obtain rfl := Option.some.inj h
        exact ⟨aliases, Nat.le_succ _, rfl⟩
  obtain ⟨rest, hrest, hresolve⟩ := hresolve
  exact ⟨rest, hrest, fun path read => bind_of_ok hresolve⟩

/-- A scalar that bears the name of a standard type must look like one. -/
theorem invalidValue_of_scalar {tag : Option Tag} {style : Style} {text : String} {cause : Cause}
    (h : scalar tag style text = .error cause) :
    ∃ expected, cause = .invalidValue text expected := by
  have hofType : ∀ expected s, ofType expected text s = .error cause →
      ∃ expected, cause = .invalidValue text expected := by
    intro expected s hs
    cases s <;> cases hs
    exact ⟨expected, rfl⟩
  cases tag with
  | none => cases h
  | some tag =>
      simp only [scalar] at h
      split at h
      · exact hofType _ _ h
      · split at h
        · exact hofType _ _ h
        · split at h
          · exact hofType _ _ h
          · split at h
            · exact hofType _ _ h
            · split at h <;> cases h

/-- Whatever is found is of another type, or it does not look like the type whose name it bears. -/
theorem invalidValue_of_found {node : Node} {cause : Cause} (hnode : node.isReference = false)
    (h : found node = .error cause) : ∃ text expected, cause = .invalidValue text expected := by
  cases node with
  | scalar mark p style text =>
      rw [found] at h
      cases hscalar : scalar p.tag style text with
      | ok s =>
          rw [hscalar] at h
          cases h
      | error cause' =>
          rw [hscalar] at h
          cases h
          exact ⟨text, invalidValue_of_scalar hscalar⟩
  | reference => cases hnode
  | _ => cases h

/-- The cause of a fault at a node that is not what was asked. -/
def complaint (node : Node) (expected : Expected) : Cause :=
  match found node with
  | .ok found => .invalidType found expected
  | .error cause => cause

theorem mismatch_eq (node : Node) (expected : Expected) :
    (mismatch node expected : Decode α) d aliases = .error ⟨complaint node expected, none⟩ := by
  rw [mismatch, complaint]
  cases found node <;> rfl

/-- What is wrong with a node that is no alias is its type or its value. -/
theorem isComplaint_complaint {node : Node} (h : node.isReference = false) (expected : Expected) :
    IsComplaint (complaint node expected) := by
  rw [complaint]
  cases hfound : found node with
  | ok found => exact .invalidType found expected
  | error cause =>
      obtain ⟨text, expected', rfl⟩ := invalidValue_of_found h hfound
      exact .invalidValue text expected'

end ScriptTree.Yaml.Decode
