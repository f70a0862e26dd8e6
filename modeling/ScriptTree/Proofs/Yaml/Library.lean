import ScriptTree.Proofs.Yaml.Fault
import ScriptTree.Proofs.Yaml.Lines
import ScriptTree.Proofs.Yaml.Plain

/-!
# The library that is at hand

The library of this development satisfies all that is asked of one.  Its nodes are those of the tree
of a document, each together with the document, in which the aliases are followed.
-/

namespace ScriptTree.Yaml

open PlainLine (entriesFrom textOf)

/-- A node of a document. -/
structure Site where
  document : Document
  node : Node

namespace Site

/-- What is written at a node.  An alias that stands for nothing goes nowhere. -/
def content (x : Site) : Content Site :=
  match x.node with
  | .scalar _ p style text => .scalar p.tag style text
  | .sequence _ _ items => .sequence (items.map (⟨x.document, ·⟩))
  | .mapping _ _ entries =>
    .mapping (entries.map fun e => (⟨x.document, e.1⟩, ⟨x.document, e.2⟩))
  | .reference _ number =>
    .reference (((x.document.target? number).map (⟨x.document, ·⟩)).getD x)

end Site

/-- The way in which the library takes documents. -/
abbrev reading : Reading where
  Node := Site
  root? text := (Document.ofText? text).map fun d => ⟨d, d.root⟩
  content := Site.content
  decode s x := x.document.decode s x.node
  Affords s x := x.document.needs s x.node ≤ Decode.aliasesPerUnit * x.document.root.size
  isNull x := x.document.isNull x.node
  scalar? x := x.document.scalar? x.node
  resolve := Scalar.ofPlain

namespace reading

variable {d : Document} {node target : Node}

theorem root?_eq {text : String} (h : Document.ofText? text = some d) :
    reading.root? text = some ⟨d, d.root⟩ :=
  congrArg (Option.map fun d : Document => (⟨d, d.root⟩ : Site)) h

/-! ## What stands at a node -/

theorem target_of_reference {x y : Site} (h : reading.content x = .reference y) :
    reading.target x = y := by
  rw [Reading.target, h]

theorem content_target (h : d.follow? node = some target) :
    reading.content (reading.target ⟨d, node⟩) = Site.content ⟨d, target⟩ := by
  cases node with
  | reference mark number =>
      have htarget : d.target? number = some target := h
      have hcontent : Site.content ⟨d, .reference mark number⟩ = .reference ⟨d, target⟩ := by
        change Content.reference (((d.target? number).map _).getD _) = _
        rw [htarget]
        rfl
      rw [target_of_reference hcontent]
  | _ =>
      obtain rfl := Option.some.inj h
      rfl

/-- An alias that stands for nothing has no other content. -/
theorem exists_content_target (h : d.follow? node = none) :
    ∃ x, reading.content (reading.target ⟨d, node⟩) = .reference x := by
  cases node with
  | reference mark number =>
      have htarget : d.target? number = none := h
      have hcontent : Site.content ⟨d, .reference mark number⟩ =
          .reference ⟨d, .reference mark number⟩ := by
        change Content.reference (((d.target? number).map _).getD _) = _
        rw [htarget]
        rfl
      rw [target_of_reference hcontent]
      exact ⟨_, hcontent⟩
  | _ => cases h

theorem text?_eq (d : Document) (node : Node) : reading.text? ⟨d, node⟩ = d.text? node := by
  rw [Reading.text?, Document.text?]
  cases h : d.follow? node with
  | none =>
      obtain ⟨x, hx⟩ := exists_content_target h
      rw [hx]
      rfl
  | some target =>
      rw [content_target h]
      cases target <;> rfl

theorem plain?_eq_some_iff {text : String} :
    reading.plain? ⟨d, node⟩ = some text ↔
      ∃ mark p, d.follow? node = some (.scalar mark p .plain text) ∧ p.tag = none := by
  rw [Reading.plain?]
  cases h : d.follow? node with
  | none =>
      obtain ⟨x, hx⟩ := exists_content_target h
      rw [hx]
      simp
  | some target =>
      rw [content_target h]
      cases target with
      | scalar mark p style text' =>
          cases htag : p.tag <;> cases style <;> simp [Site.content, htag]
      | _ => simp [Site.content]

theorem items?_eq (d : Document) (node : Node) :
    reading.items? ⟨d, node⟩ = (d.items? node).map (List.map (⟨d, ·⟩)) := by
  rw [Reading.items?, Document.items?]
  cases h : d.follow? node with
  | none =>
      obtain ⟨x, hx⟩ := exists_content_target h
      rw [hx]
      rfl
  | some target =>
      rw [content_target h]
      cases target with
      | scalar mark p style text =>
          cases style with
          | plain =>
              by_cases hempty : text = ""
              · subst hempty
                rfl
              · simp [Site.content, Node.isEmpty, hempty]
          | _ => rfl
      | _ => rfl

theorem entries?_eq (d : Document) (node : Node) :
    reading.entries? ⟨d, node⟩ =
      (d.entries? node).map (List.map fun e => (⟨d, e.1⟩, ⟨d, e.2⟩)) := by
  rw [Reading.entries?, Document.entries?]
  cases h : d.follow? node with
  | none =>
      obtain ⟨x, hx⟩ := exists_content_target h
      rw [hx]
      rfl
  | some target =>
      rw [content_target h]
      cases target with
      | scalar mark p style text =>
          cases style with
          | plain =>
              by_cases hempty : text = ""
              · subst hempty
                rfl
              · simp [Site.content, Node.isEmpty, hempty]
          | _ => rfl
      | _ => rfl

theorem named?_eq (d : Document) (node : Node) :
    reading.named? ⟨d, node⟩ = (d.named? node).map (List.map fun e => (e.1, ⟨d, e.2⟩)) := by
  have hnames : ∀ entries : List (Node × Node),
      (entries.map fun e => ((⟨d, e.1⟩, ⟨d, e.2⟩) : Site × Site)).mapM
          (fun e => (reading.text? e.1).map (·, e.2)) =
        (entries.mapM fun e => (d.text? e.1).map (·, e.2)).map
          (List.map fun e => (e.1, ⟨d, e.2⟩)) := by
    intro entries
    induction entries with
    | nil => rfl
    | cons e entries ih =>
        rw [List.map_cons, List.mapM_cons, List.mapM_cons, ih, text?_eq]
        cases d.text? e.1 with
        | none => rfl
        | some name => cases entries.mapM fun e => (d.text? e.1).map (·, e.2) <;> rfl
  rw [Reading.named?, Document.named?, entries?_eq]
  cases d.entries? node with
  | none => rfl
  | some entries => exact hnames entries

/-! ## Missing values -/

theorem scalar?_of_plain? {text : String} (h : reading.plain? ⟨d, node⟩ = some text) :
    d.scalar? node = some (Scalar.ofPlain text) := by
  obtain ⟨mark, p, hfollow, htag⟩ := plain?_eq_some_iff.mp h
  refine Document.scalar?_eq_some_iff.mpr ⟨_, hfollow, ?_, ?_⟩
  · rw [Node.properties, htag]
    rfl
  · rw [Decode.found_scalar_eq_ok_iff, htag]
    rfl

theorem isNull_of_plain? {text : String} (h : reading.plain? ⟨d, node⟩ = some text)
    (hnull : Scalar.ofPlain text = .null) : d.isNull node = .ok true := by
  obtain ⟨mark, p, hfollow, htag⟩ := plain?_eq_some_iff.mp h
  have hempty := Bool.or_eq_true_iff.mpr (Scalar.ofPlain_eq_null_iff.mp hnull)
  rw [Document.isNull, hfollow]
  dsimp only
  rw [Decode.isNull, if_pos htag, hempty]

theorem isNull_eq_ok_iff {missing : Bool} :
    d.isNull node = .ok missing ↔
      ∃ target, d.follow? node = some target ∧ Decode.isNull target = .ok missing := by
  rw [Document.isNull]
  cases d.follow? node <;> simp

/-- What bears the name of the nulls must look like one. -/
theorem scalar_null (style : Style) (text : String) :
    Decode.scalar (some Tag.null) style text =
      if Scalar.isNull text then .ok .null else .error (.invalidValue text .null) := by
  have hbool : Tag.null ≠ Tag.bool := by decide +kernel
  have hint : Tag.null ≠ Tag.int := by decide +kernel
  have hfloat : Tag.null ≠ Tag.float := by decide +kernel
  rw [Decode.scalar]
  simp only [if_neg hbool, if_neg hint, if_neg hfloat, if_true]
  cases Scalar.isNull text <;> rfl

/-- A null is a plain scalar that means nothing and bears no other name. -/
theorem isNull_eq_true {target : Node} (h : Decode.isNull target = .ok true) :
    target.properties.tag.any Tag.isApplicationType = false ∧
      Decode.found target = .ok (.scalar .null) := by
  cases target with
  | scalar mark p style text =>
      rw [Decode.found_scalar_eq_ok_iff]
      cases style with
      | plain =>
          rw [Decode.isNull] at h
          split at h
          case isTrue hnone =>
            have hempty := Bool.or_eq_true_iff.mp (Except.ok.inj h)
            have hnull := Scalar.ofPlain_eq_null_iff.mpr hempty
            rw [Node.properties, hnone]
            exact ⟨rfl, congrArg Except.ok hnull⟩
          case isFalse =>
            split at h
            case isTrue htag =>
              rw [Node.properties, htag, scalar_null]
              cases hnull : Scalar.isNull text with
              | true => exact ⟨by decide +kernel, rfl⟩
              | false =>
                  rw [hnull] at h
                  cases h
            case isFalse => cases h
      | _ => cases h
  | _ => cases h

theorem isNull_eq_false {target : Node} {s : Scalar} (h : Decode.found target = .ok (.scalar s))
    (hs : s ≠ .null) : Decode.isNull target = .ok false := by
  cases target with
  | scalar mark p style text =>
      have hscalar := Decode.found_scalar_eq_ok_iff.mp h
      cases style with
      | plain =>
          rw [Decode.isNull]
          split
          case isTrue hnone =>
            have hempty : ¬ (text.isEmpty || Scalar.isNull text) = true := by
              intro hempty
              have hnull := Scalar.ofPlain_eq_null_iff.mpr (Bool.or_eq_true_iff.mp hempty)
              rw [hnone] at hscalar
              exact hs ((Except.ok.inj hscalar).symm.trans hnull)
            rw [Bool.not_eq_true] at hempty
            rw [hempty]
          case isFalse =>
            split
            case isTrue htag =>
              -- What claims to be a null without looking like one is no scalar at all.
              rw [htag, scalar_null] at hscalar
              split at hscalar
              case isTrue => exact absurd (Except.ok.inj hscalar).symm hs
              case isFalse => cases hscalar
            case isFalse => rfl
      | _ => rfl
  | _ => cases h

/-! ## Plain values -/

theorem decode_boolean {text : String} {b : Bool} (h : reading.plain? ⟨d, node⟩ = some text) :
    d.decode (.scalar .boolean) node = .ok b ↔ Scalar.ofPlain text = .boolean b := by
  obtain ⟨mark, p, hfollow, -⟩ := plain?_eq_some_iff.mp h
  rw [Document.decode_scalar_eq_ok_iff, hfollow, Scalar.ofPlain_eq_boolean_iff]
  simp [Decode.held?, Decode.boolean?, Decode.mayBe]

theorem decode_lineNumber {text : String} {n : UInt64} (h : reading.plain? ⟨d, node⟩ = some text) :
    d.decode (.scalar .lineNumber) node = .ok n ↔
      text.toList.head? ≠ some '-' ∧ Scalar.ofPlain text = .integer n.toNat := by
  obtain ⟨mark, p, hfollow, -⟩ := plain?_eq_some_iff.mp h
  rw [Document.decode_scalar_eq_ok_iff, hfollow, ← Scalar.unsigned?_eq_some_iff]
  simp [Decode.held?, Decode.lineNumber?, Decode.mayBe]

theorem complaint {α : Type} {type : Primitive α} {text : String} {entries : List (String × Node)}
    {e : String × Node} {cause : Cause} (hd : Document.ofText? text = some d)
    (hentries : d.named? d.root = some entries) (he : e ∈ entries)
    (h : d.decode (.scalar type) e.2 = .error cause) : IsComplaint cause := by
  obtain ⟨es, hes, hnamed⟩ := Option.bind_eq_some_iff.mp hentries
  have hmem : ∃ e' ∈ es, e'.2 = e.2 := by
    clear hes hentries
    induction es generalizing entries with
    | nil =>
        obtain rfl := Option.some.inj hnamed
        cases he
    | cons first es ih =>
        rw [List.mapM_cons] at hnamed
        obtain ⟨named, hfirst, hnamed⟩ := Option.bind_eq_some_iff.mp hnamed
        obtain ⟨label, -, rfl⟩ := Option.map_eq_some_iff.mp hfirst
        obtain ⟨rest, hrest, hnamed⟩ := Option.bind_eq_some_iff.mp hnamed
        obtain rfl := Option.some.inj hnamed
        rcases List.mem_cons.mp he with rfl | he
        · exact ⟨first, List.mem_cons_self, rfl⟩
        · obtain ⟨e', he', heq⟩ := ih he hrest
          exact ⟨e', List.mem_cons_of_mem _ he', heq⟩
  obtain ⟨e', he', heq⟩ := hmem
  obtain ⟨target, htarget⟩ := Document.exists_follow?_of_mem hd hes he'
  rw [heq] at htarget
  rw [Document.decode, Document.complaint, htarget, Option.bind_some] at h
  cases hheld : Decode.held? type target with
  | some a =>
      rw [hheld] at h
      cases h
  | none =>
      rw [hheld] at h
      obtain rfl := Except.error.inj h
      exact Decode.isComplaint_complaint (Document.isReference_of_follow? htarget) _

end reading

theorem contents_entriesFrom (d : Document) (lines : List PlainLine) (i : Nat) :
    List.Forall₂ (fun l (entry : Site × Site) =>
        reading.content entry.1 = .scalar none .plain (String.ofList l.name) ∧
          reading.content entry.2 = .scalar none .plain (String.ofList l.word)) lines
      ((entriesFrom i lines).map fun e => (⟨d, e.1⟩, ⟨d, e.2⟩)) := by
  induction lines generalizing i with
  | nil => exact .nil
  | cons l lines ih => exact .cons ⟨rfl, rfl⟩ (ih (i + 1))

/-! ## The conditions -/

theorem library_read {α : Type} {s : Shape α} {text : String} {d : Document}
    (hd : Document.ofText? text = some d) :
    library.read s text =
      ((Decode.shape s Decode.depthLimit .root d.root).run d).mapError .fault := by
  simp only [library, hd]

/-- The library takes documents in the way that is asked. -/
theorem reading_governs : reading.Governs library where
  read_eq_ok_iff {α s text root a} hroot := by
    obtain ⟨d, hd, rfl⟩ := Option.map_eq_some_iff.mp hroot
    rw [library_read hd, Result.mapError_eq_ok_iff, Decode.run_eq_ok_iff]
    simp only [Decode.reads_shape d s _ _ _ _ _ _]
    constructor
    · rintro ⟨rest, ha, hrest⟩
      exact ⟨ha, hrest ▸ Nat.le_add_left _ _⟩
    · rintro ⟨ha, hneeds⟩
      exact ⟨_, ha, (Nat.sub_add_cancel hneeds).symm⟩
  read_record {α r type text root entries} hroot hentries := by
    obtain ⟨d, hd, rfl⟩ := Option.map_eq_some_iff.mp hroot
    rw [reading.named?_eq] at hentries
    obtain ⟨es, hes, -⟩ := Option.map_eq_some_iff.mp hentries
    obtain ⟨place, hrun⟩ := Document.run_record hd hes type Decode.depthLimit .root
    refine ⟨place, ?_⟩
    rw [library_read hd, hrun]
    change _ = (d.decode (.record r fun f => .scalar (type f)) d.root).mapError _
    cases d.decode (.record r fun f => .scalar (type f)) d.root <;> rfl
  decode_list {α s node as} := by
    obtain ⟨d, node⟩ := node
    rw [reading.items?_eq]
    refine Document.decode_list_eq_ok_iff.trans ?_
    cases d.items? node with
    | none => simp
    | some items => simp [List.forall₂_map_left_iff]
  decode_record {α r shapes node entries} h := by
    obtain ⟨d, node⟩ := node
    rw [reading.named?_eq] at h
    obtain ⟨es, hes, rfl⟩ := Option.map_eq_some_iff.mp h
    rw [List.foldlM_map]
    change d.decode (.record r shapes) node = _
    rw [Document.decode, hes]
    rfl
  exists_named {α r shapes node a} h := by
    obtain ⟨d, node⟩ := node
    change d.decode (.record r shapes) node = .ok a at h
    rw [Document.decode] at h
    rw [reading.named?_eq]
    cases hnamed : d.named? node with
    | none =>
        rw [hnamed] at h
        cases h
    | some es => exact ⟨_, rfl⟩
  decode_optional {α s node} := by
    obtain ⟨d, node⟩ := node
    change d.decode (.optional s) node = _
    rw [Document.decode]
  decode_firstOf := Document.decode_firstOf_eq_ok_iff
  decode_text {node text} := by
    obtain ⟨d, node⟩ := node
    rw [reading.text?_eq, Document.text?, Option.bind_eq_some_iff]
    exact Document.decode_scalar_eq_ok_iff
  decode_boolean h := reading.decode_boolean h
  decode_lineNumber h := reading.decode_lineNumber h
  complaint {α type text root entries entry cause} hroot hentries he h := by
    obtain ⟨d, hd, rfl⟩ := Option.map_eq_some_iff.mp hroot
    rw [reading.named?_eq] at hentries
    obtain ⟨es, hes, rfl⟩ := Option.map_eq_some_iff.mp hentries
    obtain ⟨e, hmem, rfl⟩ := List.mem_map.mp he
    exact reading.complaint hd hes hmem h
  scalar?_of_plain? h := reading.scalar?_of_plain? h
  scalar?_of_isNull {node} h := by
    obtain ⟨d, node⟩ := node
    obtain ⟨target, htarget, hnull⟩ := reading.isNull_eq_ok_iff.mp h
    exact Document.scalar?_eq_some_iff.mpr ⟨target, htarget, reading.isNull_eq_true hnull⟩
  isNull_of_scalar? {node s} h hs := by
    obtain ⟨d, node⟩ := node
    obtain ⟨target, htarget, -, hfound⟩ := Document.scalar?_eq_some_iff.mp h
    exact reading.isNull_eq_ok_iff.mpr ⟨target, htarget, reading.isNull_eq_false hfound hs⟩
  isNull_of_plain? h hnull := reading.isNull_of_plain? h hnull
  resolve_numeral := Scalar.ofPlain_numeral
  value_of_resolve := Scalar.value_of_ofPlain
  resolve_pointed hlow hhigh := Scalar.ofPlain_pointed (Numeral.digitCount_le hlow hhigh)
  resolve_boolean := Scalar.ofPlain_of_boolean?
  resolve_null := Scalar.ofPlain_eq_null_iff.mpr
  lines {lines} h := by
    have hroot := reading.root?_eq (Document.ofText?_lines h)
    exact ⟨_, _, hroot, rfl, contents_entriesFrom _ lines 0⟩

end ScriptTree.Yaml
