import ScriptTree.Yaml.Document

/-!
# Aliases of a document

An alias is accepted only where its anchor was met before, and every anchor ends up at a node of the
document.  So in a document that was read from a text every alias stands for a node, and since no
alias has an anchor of its own this node is not an alias again.
-/

namespace ScriptTree.Yaml

/-! ## Aliases and anchors of a tree -/

namespace Node

/-- Whether the node is an alias. -/
def isReference : Node → Bool
  | reference _ _ => true
  | _ => false

mutual

/-- The numbers of the aliases in a tree. -/
def references : Node → List Nat
  | scalar .. => []
  | sequence _ _ items => referencesItems items
  | mapping _ _ entries => referencesEntries entries
  | reference _ number => [number]

/-- The numbers of the aliases in a list of trees. -/
def referencesItems : List Node → List Nat
  | [] => []
  | item :: items => item.references ++ referencesItems items

/-- The numbers of the aliases in a list of pairs of trees. -/
def referencesEntries : List (Node × Node) → List Nat
  | [] => []
  | (key, value) :: entries => key.references ++ value.references ++ referencesEntries entries

end

mutual

/-- An alias has no anchor. -/
theorem isReference_of_mem_anchored (node : Node) :
    ∀ x ∈ node.anchored, x.2.isReference = false := by
  have hown : ∀ x ∈ node.properties.anchor.toList.map (·, node), x.2.isReference = false := by
    cases node with
    | reference => exact fun x hx => nomatch hx
    | _ =>
        intro x hx
        obtain ⟨number, -, rfl⟩ := List.mem_map.mp hx
        rfl
  cases node with
  | scalar mark p style text => exact hown
  | reference mark number => exact hown
  | sequence mark p items =>
      exact List.forall_mem_append.mpr ⟨hown, isReference_of_mem_anchoredItems items⟩
  | mapping mark p entries =>
      exact List.forall_mem_append.mpr ⟨hown, isReference_of_mem_anchoredEntries entries⟩

theorem isReference_of_mem_anchoredItems (items : List Node) :
    ∀ x ∈ anchoredItems items, x.2.isReference = false := by
  cases items with
  | nil => exact fun x hx => nomatch hx
  | cons item items =>
      exact List.forall_mem_append.mpr
        ⟨isReference_of_mem_anchored item, isReference_of_mem_anchoredItems items⟩

theorem isReference_of_mem_anchoredEntries (entries : List (Node × Node)) :
    ∀ x ∈ anchoredEntries entries, x.2.isReference = false := by
  match entries with
  | [] => exact fun x hx => nomatch hx
  | (key, value) :: entries =>
      exact List.forall_mem_append.mpr
        ⟨List.forall_mem_append.mpr
          ⟨isReference_of_mem_anchored key, isReference_of_mem_anchored value⟩,
          isReference_of_mem_anchoredEntries entries⟩

end

end Node

/-! ## Readers -/

namespace Document

/-- Whatever a reader that starts in `P` reads, it ends in `Q`. -/
def Reader.Triple {α : Type} (P : Progress → Prop) (r : Reader α)
    (Q : α → Progress → Prop) : Prop :=
  ∀ p a p', P p → r p = some (a, p') → Q a p'

/-- The anchors so far have numbers among `anchors`, and so have the aliases so far. -/
structure Progress.Within (anchors references : List Nat) (p : Progress) : Prop where
  numbers : p.anchors.map Prod.snd ⊆ anchors
  references : references ⊆ anchors

namespace Reader

section Rules

variable {α β : Type} {P P' : Progress → Prop} {r : Reader α} {Q : α → Progress → Prop}

theorem Triple.bind {next : α → Reader β} {S : β → Progress → Prop} (h : Triple P r Q)
    (hnext : ∀ a, Triple (Q a) (next a) S) : Triple P (r >>= next) S := by
  intro p b p' hp hrun
  change ((r p).bind fun (a, p₁) => next a p₁) = _ at hrun
  obtain ⟨⟨a, p₁⟩, ha, hb⟩ := Option.bind_eq_some_iff.mp hrun
  exact hnext a p₁ b p' (h p a p₁ hp ha) hb

theorem Triple.pure {a : α} (h : ∀ p, P p → Q a p) : Triple P (Pure.pure a) Q := by
  rintro p _ _ hp ⟨⟩
  exact h p hp

theorem Triple.map {f : α → β} {S : β → Progress → Prop} (h : Triple P r Q)
    (hmap : ∀ a p, Q a p → S (f a) p) : Triple P (f <$> r) S :=
  h.bind fun a => .pure (hmap a)

theorem Triple.failure : Triple P (Alternative.failure : Reader α) Q :=
  fun _ _ _ _ hrun => nomatch hrun

end Rules

section Within

variable {anchors references : List Nat}

theorem within_peek : Triple (Progress.Within anchors references) peek
    fun _ => Progress.Within anchors references := by
  intro p token p' hp hrun
  obtain ⟨_, -, ⟨⟩⟩ := Option.map_eq_some_iff.mp hrun
  exact hp

theorem within_advance : Triple (Progress.Within anchors references) advance
    fun _ => Progress.Within anchors references := by
  rintro p _ _ hp ⟨⟩
  exact ⟨hp.numbers, hp.references⟩

theorem within_next : Triple (Progress.Within anchors references) next
    fun _ => Progress.Within anchors references :=
  within_peek.bind fun _ => within_advance.bind fun _ => .pure fun _ => id

theorem within_lift {α : Type} (x : Option α) : Triple (Progress.Within anchors references)
    (liftM x : Reader α) fun _ => Progress.Within anchors references := by
  intro p a p' hp hrun
  obtain ⟨_, -, ⟨⟩⟩ := Option.bind_eq_some_iff.mp hrun
  exact hp

/-- An alias has the number of an anchor that was met. -/
theorem within_anchor (name : String) : Triple (Progress.Within anchors references) (anchor name)
    fun number => Progress.Within anchors (references ++ [number]) := by
  intro p number p' hp hrun
  obtain ⟨_, hlookup, ⟨⟩⟩ := Option.map_eq_some_iff.mp hrun
  obtain ⟨earlier, later, hanchors, -⟩ := List.lookup_eq_some_iff.mp hlookup
  have hnumber : number ∈ p.anchors.map Prod.snd := by
    rw [hanchors]
    simp
  refine ⟨hp.numbers, List.append_subset.mpr ⟨hp.references, ?_⟩⟩
  exact List.cons_subset.mpr ⟨hp.numbers hnumber, List.nil_subset _⟩

theorem within_newAnchor (name : String) :
    Triple (Progress.Within anchors references) (newAnchor name)
      fun number => Progress.Within (anchors ++ [number]) references := by
  rintro p number _ hp ⟨⟩
  constructor
  case numbers =>
    rw [List.map_cons, List.cons_subset]
    refine ⟨by simp, fun n hn => ?_⟩
    obtain ⟨x, hx, rfl⟩ := List.mem_map.mp hn
    exact List.mem_append_left _ (hp.numbers (List.mem_map_of_mem (List.mem_filter.mp hx).1))
  case references => exact List.Subset.trans hp.references (List.subset_append_left _ _)

end Within

/-- A reader adds the anchors and the aliases of what it reads. -/
def Adds {α : Type} (r : Reader α) (anchors references : α → List Nat) : Prop :=
  ∀ earlier aliases, Triple (Progress.Within earlier aliases) r fun a =>
    Progress.Within (earlier ++ anchors a) (aliases ++ references a)

end Reader

open Reader

/-- The numbers of the anchors in a tree. -/
def anchors (node : Node) : List Nat :=
  node.anchored.map Prod.fst

def anchorsItems (items : List Node) : List Nat :=
  (Node.anchoredItems items).map Prod.fst

def anchorsEntries (entries : List (Node × Node)) : List Nat :=
  (Node.anchoredEntries entries).map Prod.fst

/-- A token that is taken or left tells of no anchor and no alias. -/
theorem within_optional {anchors references : List Nat} {α : Type}
    {next : Token → Reader (Option α)}
    (h : ∀ token, (∃ a, next token = (do advance; return some a)) ∨ next token = pure none) :
    Triple (Progress.Within anchors references) (peek >>= next)
      fun _ => Progress.Within anchors references := by
  refine within_peek.bind fun token => ?_
  rcases h token with ⟨a, htaken⟩ | hleft
  · rw [htaken]
    exact within_advance.bind fun _ => .pure fun _ => id
  · rw [hleft]
    exact .pure fun _ => id

/-- A tag is looked up, and an anchor gets its number. -/
theorem within_properties {earlier aliases : List Nat} (handles : Handles)
    (written : Option Tag.Written) (name : Option String) :
    Triple (Progress.Within earlier aliases)
      (do let tag ← written.mapM fun w => (handles.tag? w : Option Tag)
          let anchor ← name.mapM newAnchor
          return Properties.mk anchor tag)
      fun p => Progress.Within (earlier ++ p.anchor.toList) (aliases ++ []) := by
  have hlookup : Triple (Progress.Within earlier aliases)
      (written.mapM fun w => (handles.tag? w : Option Tag))
      fun _ => Progress.Within earlier aliases := by
    cases written with
    | none => exact .pure fun _ => id
    | some w => exact Triple.map (within_lift (handles.tag? w)) fun _ _ => id
  refine hlookup.bind fun tag => ?_
  cases name with
  | none =>
      refine Triple.pure fun p hp => ?_
      rwa [Option.toList_none, List.append_nil, List.append_nil]
  | some name =>
      have hnew : Triple (Progress.Within earlier aliases) ((some name).mapM newAnchor)
          fun anchor => Progress.Within (earlier ++ anchor.toList) aliases :=
        Triple.map (within_newAnchor name) fun _ _ => id
      refine hnew.bind fun anchor => .pure fun p hp => ?_
      rwa [List.append_nil]

theorem adds_properties (handles : Handles) :
    (properties handles).Adds (fun p => p.anchor.toList) fun _ => [] := by
  intro earlier aliases
  unfold properties
  refine (within_optional fun token => ?anchor).bind fun first =>
    (within_optional fun token => ?tag).bind fun written => ?rest
  case anchor | tag =>
    split
    · exact .inl ⟨_, rfl⟩
    · exact .inr rfl
  case rest =>
    split
    · exact within_properties handles written first
    · refine (within_optional fun token => ?again).bind fun name =>
        within_properties handles written name
      split
      · exact .inl ⟨_, rfl⟩
      · exact .inr rfl

theorem anchors_scalar (mark : Mark) (p : Properties) (style : Style) (text : String) :
    anchors (.scalar mark p style text) = p.anchor.toList := by
  cases h : p.anchor <;> simp [anchors, Node.anchored, Node.properties, h]

theorem anchors_sequence (mark : Mark) (p : Properties) (items : List Node) :
    anchors (.sequence mark p items) = p.anchor.toList ++ anchorsItems items := by
  cases h : p.anchor <;> simp [anchors, anchorsItems, Node.anchored, Node.properties, h]

theorem anchors_mapping (mark : Mark) (p : Properties) (entries : List (Node × Node)) :
    anchors (.mapping mark p entries) = p.anchor.toList ++ anchorsEntries entries := by
  cases h : p.anchor <;> simp [anchors, anchorsEntries, Node.anchored, Node.properties, h]

theorem anchorsItems_cons (item : Node) (items : List Node) :
    anchorsItems (item :: items) = anchors item ++ anchorsItems items :=
  List.map_append

theorem anchorsEntries_cons (key value : Node) (entries : List (Node × Node)) :
    anchorsEntries ((key, value) :: entries) =
      anchors key ++ anchors value ++ anchorsEntries entries := by
  simp only [anchorsEntries, anchors, Node.anchoredEntries, List.map_append]

/-- Every reader of nodes and of lists of nodes adds the anchors and the aliases in them. -/
structure AddsNodes (handles : Handles) (fuel : Nat) : Prop where
  node : ∀ block indentless,
    (node handles block indentless fuel).Adds anchors Node.references
  blockSequence : (blockSequence handles fuel).Adds anchorsItems Node.referencesItems
  indentlessSequence : (indentlessSequence handles fuel).Adds anchorsItems Node.referencesItems
  blockMapping : (blockMapping handles fuel).Adds anchorsEntries Node.referencesEntries
  flowValue : ∀ closing, (flowValue handles closing fuel).Adds anchors Node.references
  flowSequence : ∀ isFirst,
    (flowSequence handles isFirst fuel).Adds anchorsItems Node.referencesItems
  flowMapping : ∀ isFirst,
    (flowMapping handles isFirst fuel).Adds anchorsEntries Node.referencesEntries

theorem adds_empty (mark : Mark) :
    (pure (.empty mark) : Reader Node).Adds anchors Node.references := by
  intro earlier aliases
  refine .pure fun p hp => ?_
  rw [Node.empty, anchors_scalar]
  change Progress.Within (earlier ++ []) (aliases ++ []) p
  rwa [List.append_nil, List.append_nil]

theorem adds_nil {α : Type} {anchors references : List α → List Nat} (hanchors : anchors [] = [])
    (hreferences : references [] = []) :
    (pure [] : Reader (List α)).Adds anchors references := by
  intro earlier aliases
  refine .pure fun p hp => ?_
  rwa [hanchors, hreferences, List.append_nil, List.append_nil]

/-- The sign that ends a list is passed over. -/
theorem adds_end {α : Type} {anchors references : List α → List Nat} (hanchors : anchors [] = [])
    (hreferences : references [] = []) :
    (do advance; return [] : Reader (List α)).Adds anchors references := by
  intro earlier aliases
  exact within_advance.bind fun _ => adds_nil hanchors hreferences earlier aliases

theorem adds_nodeUnless {isEnd : Token.Kind → Bool} {mark : Mark} {r : Reader Node}
    (h : r.Adds anchors Node.references) :
    (nodeUnless isEnd mark r).Adds anchors Node.references := by
  intro earlier aliases
  refine within_peek.bind fun token => ?_
  split
  · exact adds_empty mark earlier aliases
  · exact h earlier aliases

section Lists

variable {earlier aliases : List Nat}

/-- Further items behind an item. -/
theorem within_items {item : Node} {rest : Reader (List Node)}
    (h : rest.Adds anchorsItems Node.referencesItems) :
    Triple (Progress.Within (earlier ++ anchors item) (aliases ++ item.references))
      (do return item :: (← rest))
      fun items => Progress.Within (earlier ++ anchorsItems items)
        (aliases ++ Node.referencesItems items) := by
  refine (h _ _).bind fun items => .pure fun p hp => ?_
  rwa [anchorsItems_cons, Node.referencesItems, ← List.append_assoc, ← List.append_assoc]

/-- The value of an entry behind its key, and further entries. -/
theorem within_entries {key : Node} {second : Reader Node} {rest : Reader (List (Node × Node))}
    (hsecond : second.Adds anchors Node.references)
    (h : rest.Adds anchorsEntries Node.referencesEntries) :
    Triple (Progress.Within (earlier ++ anchors key) (aliases ++ key.references))
      (do let value ← second; return (key, value) :: (← rest))
      fun entries => Progress.Within (earlier ++ anchorsEntries entries)
        (aliases ++ Node.referencesEntries entries) := by
  refine (hsecond _ _).bind fun value => (h _ _).bind fun entries => .pure fun p hp => ?_
  simpa only [anchorsEntries_cons, Node.referencesEntries, List.append_assoc] using hp

/-- The value of an entry that is an item of its own, and further items. -/
theorem within_entryItems {mark : Mark} {key : Node} {second : Reader Node}
    {rest : Reader (List Node)} (hsecond : second.Adds anchors Node.references)
    (h : rest.Adds anchorsItems Node.referencesItems) :
    Triple (Progress.Within (earlier ++ anchors key) (aliases ++ key.references))
      (do let value ← second; return .mapping mark .none [(key, value)] :: (← rest))
      fun items => Progress.Within (earlier ++ anchorsItems items)
        (aliases ++ Node.referencesItems items) := by
  refine (hsecond _ _).bind fun value => ?_
  have hitem : anchors (.mapping mark .none [(key, value)]) = anchors key ++ anchors value := by
    rw [anchors_mapping, anchorsEntries_cons]
    exact List.append_nil _
  have hreferences : (Node.mapping mark .none [(key, value)]).references =
      key.references ++ value.references := List.append_nil _
  rw [List.append_assoc, List.append_assoc, ← hitem, ← hreferences]
  exact within_items h

/-- An item, and further items. -/
theorem adds_items {first : Reader Node} {rest : Reader (List Node)}
    (hfirst : first.Adds anchors Node.references)
    (hrest : rest.Adds anchorsItems Node.referencesItems) :
    (do let item ← first; return item :: (← rest) : Reader (List Node)).Adds anchorsItems
      Node.referencesItems := by
  intro earlier aliases
  exact (hfirst earlier aliases).bind fun item => within_items hrest

/-- An entry, and further entries. -/
theorem adds_entries {first second : Reader Node} {rest : Reader (List (Node × Node))}
    (hfirst : first.Adds anchors Node.references) (hsecond : second.Adds anchors Node.references)
    (hrest : rest.Adds anchorsEntries Node.referencesEntries) :
    (do let key ← first; let value ← second; return (key, value) :: (← rest) :
      Reader (List (Node × Node))).Adds anchorsEntries Node.referencesEntries := by
  intro earlier aliases
  exact (hfirst earlier aliases).bind fun key => within_entries hsecond hrest

/-- An entry that is an item of its own, and further items. -/
theorem adds_entryItems (mark : Mark) {first second : Reader Node} {rest : Reader (List Node)}
    (hfirst : first.Adds anchors Node.references) (hsecond : second.Adds anchors Node.references)
    (hrest : rest.Adds anchorsItems Node.referencesItems) :
    (do let key ← first
        let value ← second
        return .mapping mark .none [(key, value)] :: (← rest) : Reader (List Node)).Adds
      anchorsItems Node.referencesItems := by
  intro earlier aliases
  exact (hfirst earlier aliases).bind fun key => within_entryItems hsecond hrest

end Lists

theorem addsNodes_zero (handles : Handles) : AddsNodes handles 0 where
  node _ _ _ _ := by rw [Document.node]; exact .failure
  blockSequence _ _ := by rw [Document.blockSequence]; exact .failure
  indentlessSequence _ _ := by rw [Document.indentlessSequence]; exact .failure
  blockMapping _ _ := by rw [Document.blockMapping]; exact .failure
  flowValue _ _ _ := by rw [Document.flowValue]; exact .failure
  flowSequence _ _ _ := by rw [Document.flowSequence]; exact .failure
  flowMapping _ _ _ := by rw [Document.flowMapping]; exact .failure

/-- The items of a sequence behind its properties. -/
theorem within_sequence {earlier aliases : List Nat} {mark : Mark} {p : Properties}
    {items : Reader (List Node)} (h : items.Adds anchorsItems Node.referencesItems) :
    Triple (Progress.Within (earlier ++ p.anchor.toList) (aliases ++ []))
      (do return .sequence mark p (← items))
      fun n => Progress.Within (earlier ++ anchors n) (aliases ++ n.references) := by
  refine (h _ _).bind fun items => .pure fun q hq => ?_
  rwa [anchors_sequence, ← List.append_assoc, Node.references, ← List.append_nil aliases]

/-- The entries of a mapping behind its properties. -/
theorem within_mapping {earlier aliases : List Nat} {mark : Mark} {p : Properties}
    {entries : Reader (List (Node × Node))}
    (h : entries.Adds anchorsEntries Node.referencesEntries) :
    Triple (Progress.Within (earlier ++ p.anchor.toList) (aliases ++ []))
      (do return .mapping mark p (← entries))
      fun n => Progress.Within (earlier ++ anchors n) (aliases ++ n.references) := by
  refine (h _ _).bind fun entries => .pure fun q hq => ?_
  rwa [anchors_mapping, ← List.append_assoc, Node.references, ← List.append_nil aliases]

theorem adds_node {handles : Handles} {fuel : Nat} (ih : AddsNodes handles fuel)
    (block indentless : Bool) :
    (node handles block indentless (fuel + 1)).Adds anchors Node.references := by
  intro earlier aliases
  have hscalar : ∀ mark p style text,
      Triple (Progress.Within (earlier ++ p.anchor.toList) (aliases ++ []))
        (pure (.scalar mark p style text))
        fun n => Progress.Within (earlier ++ anchors n) (aliases ++ n.references) := by
    intro mark p style text
    refine .pure fun q hq => ?_
    rwa [anchors_scalar]
  have hflowSequence : ∀ mark p,
      Triple (Progress.Within (earlier ++ p.anchor.toList) (aliases ++ []))
      (do advance; return .sequence mark p (← flowSequence handles true fuel))
      fun n => Progress.Within (earlier ++ anchors n) (aliases ++ n.references) :=
    fun _ _ => within_advance.bind fun _ => within_sequence (ih.flowSequence true)
  have hflowMapping : ∀ mark p,
      Triple (Progress.Within (earlier ++ p.anchor.toList) (aliases ++ []))
      (do advance; return .mapping mark p (← flowMapping handles true fuel))
      fun n => Progress.Within (earlier ++ anchors n) (aliases ++ n.references) :=
    fun _ _ => within_advance.bind fun _ => within_mapping (ih.flowMapping true)
  rw [node]
  refine within_peek.bind fun first => within_peek.bind fun again => ?_
  split
  case h_1 name _ =>
    refine within_advance.bind fun _ => (within_anchor name).bind fun number => .pure fun q hq => ?_
    change Progress.Within (earlier ++ []) (aliases ++ [number]) q
    rwa [List.append_nil]
  case h_2 =>
    refine (adds_properties handles _ _).bind fun p => within_peek.bind fun token => ?_
    split
    case h_1 => exact within_advance.bind fun _ => hscalar _ p _ _
    case h_2 => exact hflowSequence _ p
    case h_3 => exact hflowMapping _ p
    case h_4 =>
      split
      case isTrue => exact within_sequence ih.indentlessSequence
      case isFalse =>
        split
        case isTrue => exact within_advance.bind fun _ => within_sequence ih.blockSequence
        case isFalse =>
          split
          case isTrue => exact within_advance.bind fun _ => within_mapping ih.blockMapping
          case isFalse =>
            split
            case isTrue => exact .failure
            case isFalse => exact hscalar _ p _ _

/-- The comma in front of an item that is not the first one. -/
theorem within_separator {earlier aliases : List Nat} {α : Type} {isFirst : Bool}
    {item : Reader α} {Q : α → Progress → Prop}
    (h : Triple (Progress.Within earlier aliases) item Q) :
    Triple (Progress.Within earlier aliases)
      (do
        if !isFirst then
          if (← next).kind != .flowEntry then failure
        item) Q := by
  split
  · refine within_next.bind fun token => ?_
    split
    · exact Triple.failure.bind fun _ => h
    · exact h
  · exact h

theorem adds_flowSequence {handles : Handles} {fuel : Nat} (ih : AddsNodes handles fuel)
    (isFirst : Bool) :
    (flowSequence handles isFirst (fuel + 1)).Adds anchorsItems Node.referencesItems := by
  intro earlier aliases
  have hend : (do advance; return [] : Reader (List Node)).Adds anchorsItems
      Node.referencesItems := adds_end rfl rfl
  have hitem : (do let item ← node handles false false fuel
                   return item :: (← flowSequence handles false fuel) : Reader (List Node)).Adds
      anchorsItems Node.referencesItems := adds_items (ih.node false false) (ih.flowSequence false)
  have hentry : ∀ mark {key : Reader Node}, key.Adds anchors Node.references →
      (do let key ← key
          let value ← flowValue handles .flowSequenceEnd fuel
          return .mapping mark .none [(key, value)] :: (← flowSequence handles false fuel) :
        Reader (List Node)).Adds anchorsItems Node.referencesItems :=
    fun mark _ hkey => adds_entryItems mark hkey (ih.flowValue _) (ih.flowSequence false)
  rw [flowSequence]
  refine within_peek.bind fun token => ?_
  split
  case isTrue => exact hend earlier aliases
  case isFalse =>
    refine within_separator (within_peek.bind fun token => ?_)
    split
    case h_1 => exact hend earlier aliases
    case h_2 =>
      refine within_advance.bind fun _ => within_peek.bind fun first => ?_
      split
      case isTrue =>
        have hmissing := hentry token.mark (adds_empty first.mark.right)
        exact within_advance.bind fun _ => hmissing earlier aliases
      case isFalse => exact hentry token.mark (ih.node false false) earlier aliases
    case h_3 => exact hitem earlier aliases

theorem adds_flowMapping {handles : Handles} {fuel : Nat} (ih : AddsNodes handles fuel)
    (isFirst : Bool) :
    (flowMapping handles isFirst (fuel + 1)).Adds anchorsEntries Node.referencesEntries := by
  intro earlier aliases
  have hend : (do advance; return [] : Reader (List (Node × Node))).Adds anchorsEntries
      Node.referencesEntries := adds_end rfl rfl
  have hentry : ∀ mark,
      (do let key ← nodeUnless (endsFlowKey .flowMappingEnd) mark (node handles false false fuel)
          let value ← flowValue handles .flowMappingEnd fuel
          return (key, value) :: (← flowMapping handles false fuel) :
        Reader (List (Node × Node))).Adds anchorsEntries Node.referencesEntries :=
    fun _ => adds_entries (adds_nodeUnless (ih.node false false)) (ih.flowValue _)
      (ih.flowMapping false)
  rw [flowMapping]
  refine within_peek.bind fun token => ?_
  split
  case isTrue => exact hend earlier aliases
  case isFalse =>
    refine within_separator (within_peek.bind fun token => ?_)
    split
    case h_1 => exact hend earlier aliases
    case h_2 =>
      exact within_advance.bind fun _ => within_peek.bind fun first =>
        hentry first.mark earlier aliases
    case h_3 =>
      refine (ih.node false false earlier aliases).bind fun key => within_peek.bind fun token => ?_
      exact within_entries (adds_empty token.mark) (ih.flowMapping false)

theorem adds_flowValue {handles : Handles} {fuel : Nat} (ih : AddsNodes handles fuel)
    (closing : Token.Kind) :
    (flowValue handles closing (fuel + 1)).Adds anchors Node.references := by
  intro earlier aliases
  have hvalue : ∀ mark, (nodeUnless (endsFlowValue closing) mark
      (node handles false false fuel)).Adds anchors Node.references :=
    fun _ => adds_nodeUnless (ih.node false false)
  rw [flowValue]
  refine within_peek.bind fun token => ?_
  split
  case isTrue =>
    exact within_advance.bind fun _ => within_peek.bind fun first =>
      hvalue first.mark earlier aliases
  case isFalse => exact within_peek.bind fun token => adds_empty token.mark earlier aliases

theorem adds_blockSequence {handles : Handles} {fuel : Nat} (ih : AddsNodes handles fuel) :
    (blockSequence handles (fuel + 1)).Adds anchorsItems Node.referencesItems := by
  intro earlier aliases
  have hitem : ∀ mark, (nodeUnless endsItem mark (node handles true false fuel)).Adds anchors
      Node.references := fun _ => adds_nodeUnless (ih.node true false)
  rw [blockSequence]
  refine within_next.bind fun token => ?_
  split
  case h_1 => exact adds_items (hitem token.mark.right) ih.blockSequence earlier aliases
  case h_2 => exact adds_nil rfl rfl earlier aliases
  case h_3 => exact .failure

theorem adds_indentlessSequence {handles : Handles} {fuel : Nat} (ih : AddsNodes handles fuel) :
    (indentlessSequence handles (fuel + 1)).Adds anchorsItems Node.referencesItems := by
  intro earlier aliases
  have hitem : ∀ mark, (nodeUnless endsIndentlessItem mark (node handles true false fuel)).Adds
      anchors Node.references := fun _ => adds_nodeUnless (ih.node true false)
  rw [indentlessSequence]
  refine within_peek.bind fun token => ?_
  split
  case h_1 =>
    have hitems := adds_items (hitem token.mark.right) ih.indentlessSequence
    exact within_advance.bind fun _ => hitems earlier aliases
  case h_2 => exact adds_nil rfl rfl earlier aliases

theorem adds_blockMapping {handles : Handles} {fuel : Nat} (ih : AddsNodes handles fuel) :
    (blockMapping handles (fuel + 1)).Adds anchorsEntries Node.referencesEntries := by
  intro earlier aliases
  have hpart : ∀ mark, (nodeUnless endsPart mark (node handles true true fuel)).Adds anchors
      Node.references := fun _ => adds_nodeUnless (ih.node true true)
  rw [blockMapping]
  refine within_next.bind fun token => ?_
  split
  case h_1 =>
    refine (hpart token.mark.right earlier aliases).bind fun key =>
      within_peek.bind fun colon => ?_
    split
    case isTrue =>
      exact within_advance.bind fun _ => within_entries (hpart colon.mark.right) ih.blockMapping
    case isFalse => exact within_entries (adds_empty colon.mark) ih.blockMapping
  case h_2 => exact adds_nil rfl rfl earlier aliases
  case h_3 => exact .failure

theorem addsNodes (handles : Handles) (fuel : Nat) : AddsNodes handles fuel := by
  induction fuel with
  | zero => exact addsNodes_zero handles
  | succ fuel ih =>
      constructor
      case node => exact adds_node ih
      case blockSequence => exact adds_blockSequence ih
      case indentlessSequence => exact adds_indentlessSequence ih
      case blockMapping => exact adds_blockMapping ih
      case flowValue => exact adds_flowValue ih
      case flowSequence => exact adds_flowSequence ih
      case flowMapping => exact adds_flowMapping ih

/-! ## Documents -/

/-- Directives hold neither anchors nor aliases. -/
theorem adds_directed (fuel : Nat) :
    (do let p ← get
        let (handles, tokens) ← (directives? false [] p.tokens : Option _)
        set { p with tokens }
        if (← next).kind == .documentStart then
          nodeUnless endsContent (← peek).mark (node (handles ++ .default) true false fuel)
        else
          failure : Reader Node).Adds anchors Node.references := by
  intro earlier aliases p root p' hp hrun
  obtain ⟨⟨⟨handles, tokens⟩, p₁⟩, hlift, hrun⟩ := Option.bind_eq_some_iff.mp hrun
  obtain ⟨_, -, ⟨⟩⟩ := Option.bind_eq_some_iff.mp hlift
  have hrest : Triple (Progress.Within earlier aliases)
      (do if (← next).kind == .documentStart then
            nodeUnless endsContent (← peek).mark (node (handles ++ .default) true false fuel)
          else
            failure)
      fun n => Progress.Within (earlier ++ anchors n) (aliases ++ n.references) := by
    refine within_next.bind fun token => ?_
    split
    · exact within_peek.bind fun token =>
        adds_nodeUnless ((addsNodes _ fuel).node true false) _ _
    · exact .failure
  exact hrest { p with tokens } root p' ⟨hp.numbers, hp.references⟩ hrun

theorem adds_content (fuel : Nat) : (content fuel).Adds anchors Node.references := by
  intro earlier aliases
  refine within_peek.bind fun first => ?_
  split
  · exact adds_empty first.mark _ _
  · exact adds_directed fuel _ _
  · exact adds_directed fuel _ _
  · exact adds_directed fuel _ _
  · exact (addsNodes _ fuel).node true false _ _

/-- In a document that was read, every alias has the number of an anchor. -/
theorem references_subset_of_ofTokens? {tokens : List Token} {d : Document}
    (h : ofTokens? tokens = some d) : d.root.references ⊆ anchors d.root := by
  obtain ⟨⟨root, p⟩, hroot, hover⟩ := Option.bind_eq_some_iff.mp h
  obtain ⟨-, ⟨⟩⟩ := Option.ite_none_right_eq_some.mp hover
  have hwithin := adds_content _ [] [] _ root p ⟨List.Subset.refl _, List.Subset.refl _⟩ hroot
  exact hwithin.references

/-- The node that a node stands for: an alias stands for what has its anchor. -/
def follow? (d : Document) : Node → Option Node
  | .reference _ number => d.target? number
  | node => some node

theorem isReference_of_target? {d : Document} {number : Nat} {n : Node}
    (h : d.target? number = some n) : n.isReference = false := by
  obtain ⟨x, hx, rfl⟩ := Option.map_eq_some_iff.mp h
  rw [List.findRev?_eq_find?_reverse] at hx
  exact Node.isReference_of_mem_anchored d.root x
    (List.mem_reverse.mp (List.mem_of_find?_eq_some hx))

/-- What a node stands for is no alias. -/
theorem isReference_of_follow? {d : Document} {node n : Node} (h : d.follow? node = some n) :
    n.isReference = false := by
  cases node with
  | reference mark number => exact isReference_of_target? h
  | _ => cases h; rfl

theorem isSome_target?_iff {d : Document} {number : Nat} :
    (d.target? number).isSome = true ↔ number ∈ anchors d.root := by
  rw [target?, Option.isSome_map, List.findRev?_eq_find?_reverse, List.find?_isSome]
  simp only [List.mem_reverse, beq_iff_eq]
  exact List.mem_map.symm

/-- In a document that was read from a text, every node stands for something. -/
theorem exists_follow? {text : String} {d : Document} (h : ofText? text = some d) {node : Node}
    (hnode : node.references ⊆ d.root.references) : ∃ n, d.follow? node = some n := by
  cases node with
  | reference mark number =>
      obtain ⟨tokens, -, htokens⟩ := Option.bind_eq_some_iff.mp h
      have hnumber := references_subset_of_ofTokens? htokens (hnode List.mem_cons_self)
      exact Option.isSome_iff_exists.mp (isSome_target?_iff.mpr hnumber)
  | _ => exact ⟨_, rfl⟩

end Document

end ScriptTree.Yaml
