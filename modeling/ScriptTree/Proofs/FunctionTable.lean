import Mathlib.Data.Finset.Card
import ScriptTree.Function

/-!
# The table of functions

The definitions of a table and the index of their names are two structures that have to stay in
step.  They do: after any calls, the table holds the first definition of every name in the order
of the calls, and the index leads from each name to the place of its definition.
-/

namespace ScriptTree

namespace FunctionTable

/-- The table after a call. -/
def add (t : FunctionTable) (f : FunctionDefinition) : FunctionTable :=
  (t.offer f).1

/-- The table after some calls on the empty one. -/
def ofCalls (calls : List FunctionDefinition) : FunctionTable :=
  calls.foldl add .empty

theorem ofCalls_concat (calls : List FunctionDefinition) (f : FunctionDefinition) :
    ofCalls (calls ++ [f]) = (ofCalls calls).add f := by
  rw [ofCalls, List.foldl_concat]
  rfl

/-- A call that is turned down leaves the table as it is. -/
theorem offer_of_contains {t : FunctionTable} {f : FunctionDefinition}
    (h : t.contains f.name = true) : t.offer f = (t, some f) :=
  if_pos h

theorem add_of_contains {t : FunctionTable} {f : FunctionDefinition}
    (h : t.contains f.name = true) : t.add f = t := by
  rw [add, offer_of_contains h]

theorem register_of_contains {t : FunctionTable} {f : FunctionDefinition}
    (h : t.contains f.name = true) : t.register f = .error f := by
  rw [register, offer_of_contains h]

/-- A free name gets the place behind the last definition. -/
theorem add_of_not_contains {t : FunctionTable} {f : FunctionDefinition}
    (h : t.contains f.name = false) :
    t.add f = ⟨t.definitions.push f, t.index.insert f.name t.definitions.size⟩ := by
  rw [add, offer, if_neg (Bool.eq_false_iff.mp h)]

theorem offer_of_not_contains {t : FunctionTable} {f : FunctionDefinition}
    (h : t.contains f.name = false) : t.offer f = (t.add f, none) := by
  rw [add_of_not_contains h]
  exact if_neg (Bool.eq_false_iff.mp h)

theorem register_of_not_contains {t : FunctionTable} {f : FunctionDefinition}
    (h : t.contains f.name = false) : t.register f = .ok (t.add f) := by
  rw [register, offer_of_not_contains h]

/-- A call adds its own definition, if any. -/
theorem mem_toList_add {t : FunctionTable} {f g : FunctionDefinition} (h : g ∈ (t.add f).toList) :
    g = f ∨ g ∈ t.toList := by
  by_cases htaken : t.contains f.name = true
  · rw [add_of_contains htaken] at h
    exact Or.inr h
  · rw [add_of_not_contains (Bool.eq_false_iff.mpr htaken), toList, Array.toList_push,
      List.reverse_concat, List.mem_cons] at h
    exact h

/-! ## Definitions replaced -/

/-- The table with every definition replaced.  Places and index stay as they are. -/
def mapDefinitions (g : FunctionDefinition → FunctionDefinition) (t : FunctionTable) :
    FunctionTable :=
  { t with definitions := t.definitions.map g }

/-- Whether a definition is accepted depends on its name only. -/
theorem offer_mapDefinitions {g : FunctionDefinition → FunctionDefinition}
    (hname : ∀ f, (g f).name = f.name) (t : FunctionTable) (f : FunctionDefinition) :
    (t.mapDefinitions g).offer (g f) =
      ((t.offer f).1.mapDefinitions g, (t.offer f).2.map g) := by
  have hcontains : (t.mapDefinitions g).contains (g f).name = t.contains f.name := by
    rw [hname]
    rfl
  rw [offer, offer, hcontains]
  by_cases htaken : t.contains f.name = true
  · rw [if_pos htaken, if_pos htaken]
    rfl
  · rw [if_neg htaken, if_neg htaken]
    simp only [mapDefinitions, hname, Array.map_push, Array.size_map, Option.map_none]

/-! ## The index -/

/-- The definitions and the index belong together. -/
structure WellFormed (t : FunctionTable) : Prop where
  size_index : t.index.size = t.definitions.size
  /-- A name leads to a definition that there is, and that has this name. -/
  name_of_slot : ∀ (name : String) (slot : Nat), t.index[name]? = some slot →
    ∃ h : slot < t.definitions.size, t.definitions[slot].name = name
  /-- The name of a definition leads to its place, so no two definitions share a name. -/
  slot_of_name : ∀ (slot : Nat) (h : slot < t.definitions.size),
    t.index[t.definitions[slot].name]? = some slot

theorem wellFormed_empty : WellFormed .empty where
  size_index := Std.HashMap.size_empty
  name_of_slot name slot h := by simp [empty] at h
  slot_of_name slot h := by simp [empty] at h

theorem contains_eq_true_iff {t : FunctionTable} {name : String} :
    t.contains name = true ↔ ∃ slot, t.index[name]? = some slot := by
  rw [contains, Std.HashMap.contains_eq_isSome_getElem?, Option.isSome_iff_exists]

/-- An accepted definition enters both structures at the same place. -/
theorem WellFormed.add_of_not_contains {t : FunctionTable} (h : t.WellFormed)
    {f : FunctionDefinition} (hfree : t.contains f.name = false) : (t.add f).WellFormed := by
  rw [FunctionTable.add_of_not_contains hfree]
  constructor
  case size_index =>
    have hnew : f.name ∉ t.index := by
      intro hmem
      rw [contains, Std.HashMap.contains_iff_mem.mpr hmem] at hfree
      cases hfree
    rw [Std.HashMap.size_insert, if_neg hnew, h.size_index, Array.size_push]
  case name_of_slot =>
    intro name slot hslot
    rw [Std.HashMap.getElem?_insert] at hslot
    by_cases hname : f.name = name
    · rw [if_pos (beq_iff_eq.mpr hname), Option.some.injEq] at hslot
      subst hslot
      refine ⟨?_, ?_⟩
      · simp
      · simpa using hname
    · have hother : ¬ (f.name == name) = true := by simpa using hname
      rw [if_neg hother] at hslot
      obtain ⟨hlt, hold⟩ := h.name_of_slot name slot hslot
      refine ⟨?_, ?_⟩
      · rw [Array.size_push]
        omega
      · rw [Array.getElem_push_lt hlt]
        exact hold
  case slot_of_name =>
    intro slot hslot
    rw [Array.size_push] at hslot
    by_cases hlt : slot < t.definitions.size
    · have hold := h.slot_of_name slot hlt
      have hother : ¬ (f.name == t.definitions[slot].name) = true := by
        intro hsame
        have htaken := contains_eq_true_iff.mpr ⟨slot, hold⟩
        rw [← beq_iff_eq.mp hsame, hfree] at htaken
        cases htaken
      simp only [Array.getElem_push_lt hlt]
      rw [Std.HashMap.getElem?_insert, if_neg hother]
      exact hold
    · have hlast : slot = t.definitions.size := by omega
      subst hlast
      simp

/-- The index gives the definition that a search through all definitions would find. -/
theorem WellFormed.lookup_eq_find? {t : FunctionTable} (h : t.WellFormed) (name : String) :
    t.lookup name = t.definitions.toList.find? (·.name == name) := by
  rw [lookup]
  cases hslot : t.index[name]? with
  | none =>
      symm
      rw [Option.bind_none, List.find?_eq_none]
      intro f hf hname
      obtain ⟨slot, hlt, rfl⟩ := List.getElem_of_mem hf
      rw [Array.length_toList] at hlt
      rw [Array.getElem_toList, beq_iff_eq] at hname
      have hindexed := h.slot_of_name slot hlt
      rw [hname, hslot] at hindexed
      cases hindexed
  | some slot =>
      obtain ⟨hlt, hname⟩ := h.name_of_slot name slot hslot
      symm
      rw [Option.bind_some, Array.getElem?_eq_getElem hlt, List.find?_eq_some_iff_getElem]
      refine ⟨beq_iff_eq.mpr hname, slot, hlt, rfl, ?_⟩
      intro earlier hearlier
      have hlt' : earlier < t.definitions.size := by omega
      have hindexed := h.slot_of_name earlier hlt'
      rw [Array.getElem_toList, Bool.not_eq_true', beq_eq_false_iff_ne]
      intro hsame
      rw [hsame, hslot, Option.some.injEq] at hindexed
      omega

theorem WellFormed.contains_eq_isSome_lookup {t : FunctionTable} (h : t.WellFormed)
    (name : String) : t.contains name = (t.lookup name).isSome := by
  rw [contains, Std.HashMap.contains_eq_isSome_getElem?, lookup]
  cases hslot : t.index[name]? with
  | none => rfl
  | some slot =>
      obtain ⟨hlt, -⟩ := h.name_of_slot name slot hslot
      rw [Option.bind_some, Array.getElem?_eq_getElem hlt]
      rfl

/-! ## The calls that are accepted -/

/-- The first call with each name, in the order of the calls. -/
def accepted : List FunctionDefinition → List FunctionDefinition
  | [] => []
  | f :: calls => f :: (accepted calls).filter fun g => g.name != f.name

/-- A further call is accepted unless an earlier one has its name. -/
theorem accepted_concat (calls : List FunctionDefinition) (f : FunctionDefinition) :
    accepted (calls ++ [f]) =
      if f.name ∈ calls.map (·.name) then accepted calls else accepted calls ++ [f] := by
  induction calls with
  | nil => rfl
  | cons g calls ih =>
      have hnames : f.name ∈ (g :: calls).map (·.name) ↔
          f.name = g.name ∨ f.name ∈ calls.map (·.name) := List.mem_cons
      rw [List.cons_append, accepted, ih, accepted]
      by_cases hlater : f.name ∈ calls.map (·.name)
      · rw [if_pos hlater, if_pos (hnames.mpr (Or.inr hlater))]
      · rw [if_neg hlater, List.filter_append]
        by_cases hfirst : f.name = g.name
        · rw [if_pos (hnames.mpr (Or.inl hfirst))]
          simp [hfirst]
        · have hnew : ¬ f.name ∈ (g :: calls).map (·.name) := by
            rw [hnames]
            exact not_or.mpr ⟨hfirst, hlater⟩
          rw [if_neg hnew]
          simp [hfirst]

/-- Later calls are accepted unless earlier ones have taken their names. -/
theorem accepted_append_eq (earlier later : List FunctionDefinition) :
    accepted (earlier ++ later) = accepted earlier ++
      (accepted later).filter fun f => !(earlier.map (·.name)).contains f.name := by
  induction earlier with
  | nil => exact (List.filter_eq_self.mpr fun _ _ => rfl).symm
  | cons f earlier ih =>
      have hnames : ∀ g : FunctionDefinition,
          (g.name != f.name && !(earlier.map (·.name)).contains g.name) =
            !((f :: earlier).map (·.name)).contains g.name := by
        intro g
        rw [List.map_cons, List.contains_cons, Bool.not_or]
        rfl
      rw [List.cons_append, accepted, ih, List.filter_append, List.filter_filter, accepted,
        List.cons_append]
      simp only [hnames]

/-- The first call with a name is the accepted one. -/
theorem find?_accepted (calls : List FunctionDefinition) (name : String) :
    (accepted calls).find? (·.name == name) = calls.find? (·.name == name) := by
  induction calls with
  | nil => rfl
  | cons f calls ih =>
      by_cases hname : f.name = name
      · simp [accepted, hname]
      · have hkept : ∀ g : FunctionDefinition,
            decide ((g.name != f.name) = true ∧ (g.name == name) = true) =
              (g.name == name) := by
          intro g
          by_cases hg : g.name = name
          · have hne : name ≠ f.name := Ne.symm hname
            simp [hg, hne]
          · simp [hg]
        have hskip : (f.name == name) = false := by simpa using hname
        simp only [accepted, List.find?_cons, hskip, List.find?_filter, hkept, ih]

theorem mem_map_name_accepted (calls : List FunctionDefinition) (name : String) :
    name ∈ (accepted calls).map (·.name) ↔ name ∈ calls.map (·.name) := by
  have hfind : ∀ fs : List FunctionDefinition,
      name ∈ fs.map (·.name) ↔ (fs.find? (·.name == name)).isSome = true := by
    intro fs
    simp
  rw [hfind, hfind, find?_accepted]

theorem nodup_map_name_accepted (calls : List FunctionDefinition) :
    ((accepted calls).map (·.name)).Nodup := by
  induction calls with
  | nil => exact List.nodup_nil
  | cons f calls ih =>
      rw [accepted, List.map_cons, List.nodup_cons]
      constructor
      · simp
      · exact ih.sublist (List.filter_sublist.map _)

/-! ## The table and the calls -/

/-- A table that stands for a list of calls. -/
structure Represents (t : FunctionTable) (calls : List FunctionDefinition) : Prop where
  wellFormed : t.WellFormed
  definitions : t.definitions.toList = accepted calls

namespace Represents

variable {t : FunctionTable} {calls : List FunctionDefinition}

theorem lookup_eq_find? (h : t.Represents calls) (name : String) :
    t.lookup name = calls.find? (·.name == name) := by
  rw [h.wellFormed.lookup_eq_find?, h.definitions, find?_accepted]

theorem contains_eq_true_iff (h : t.Represents calls) (name : String) :
    t.contains name = true ↔ name ∈ calls.map (·.name) := by
  rw [h.wellFormed.contains_eq_isSome_lookup, h.lookup_eq_find?]
  simp

theorem contains_eq_false_iff (h : t.Represents calls) (name : String) :
    t.contains name = false ↔ name ∉ calls.map (·.name) := by
  rw [← h.contains_eq_true_iff name, Bool.not_eq_true]

theorem add (h : t.Represents calls) (f : FunctionDefinition) :
    (t.add f).Represents (calls ++ [f]) := by
  by_cases hf : f.name ∈ calls.map (·.name)
  · have htaken := (h.contains_eq_true_iff f.name).mpr hf
    constructor
    · rw [add_of_contains htaken]
      exact h.wellFormed
    · rw [add_of_contains htaken, accepted_concat, if_pos hf]
      exact h.definitions
  · have hfree := (h.contains_eq_false_iff f.name).mpr hf
    constructor
    · exact h.wellFormed.add_of_not_contains hfree
    · rw [add_of_not_contains hfree, accepted_concat, if_neg hf, ← h.definitions]
      exact Array.toList_push

theorem size_eq_card (h : t.Represents calls) :
    t.size = (calls.map (·.name)).toFinset.card := by
  have hlength : t.size = ((accepted calls).map (·.name)).length := by
    rw [List.length_map, ← h.definitions, Array.length_toList]
    rfl
  have hset : ((accepted calls).map (·.name)).toFinset = (calls.map (·.name)).toFinset := by
    ext name
    rw [List.mem_toFinset, List.mem_toFinset, mem_map_name_accepted]
  rw [hlength, ← hset, List.toFinset_card_of_nodup (nodup_map_name_accepted calls)]

theorem isEmpty_eq (h : t.Represents calls) : t.isEmpty = calls.isEmpty := by
  rw [isEmpty, ← Array.isEmpty_toList, h.definitions]
  cases calls <;> rfl

end Represents

theorem represents_ofCalls (calls : List FunctionDefinition) :
    (ofCalls calls).Represents calls := by
  induction calls using List.reverseRecOn with
  | nil => exact ⟨wellFormed_empty, rfl⟩
  | append_singleton calls f ih =>
      rw [ofCalls_concat]
      exact ih.add f

/-- A table in which every name belongs to the first of some calls that has it. -/
structure FirstWins (calls : List FunctionDefinition) (t : FunctionTable) : Prop where
  wellFormed : t.WellFormed
  /-- A further call with a name that was used comes back, and the table stays the same. -/
  rejects : ∀ f : FunctionDefinition, f.name ∈ calls.map (·.name) →
    t.offer f = (t, some f) ∧ t.register f = .error f ∧ ofCalls (calls ++ [f]) = t
  accepts : ∀ f : FunctionDefinition, f.name ∉ calls.map (·.name) →
    t.offer f = (ofCalls (calls ++ [f]), none) ∧ t.register f = .ok (ofCalls (calls ++ [f]))
  lookup : ∀ name : String, t.lookup name = calls.find? (·.name == name)
  contains : ∀ name : String, t.contains name = (t.lookup name).isSome
  toList : t.toList = (accepted calls).reverse
  nodup : (t.toList.map (·.name)).Nodup
  size : t.size = (calls.map (·.name)).toFinset.card
  isEmpty : t.isEmpty = calls.isEmpty

/-- Whatever calls are made, the table is the map of the first definitions. -/
theorem firstWins_ofCalls (calls : List FunctionDefinition) :
    FirstWins calls (ofCalls calls) := by
  have h := represents_ofCalls calls
  have htoList : (ofCalls calls).toList = (accepted calls).reverse := by
    rw [toList, h.definitions]
  constructor
  case wellFormed => exact h.wellFormed
  case rejects =>
    intro f hf
    have htaken := (h.contains_eq_true_iff f.name).mpr hf
    rw [ofCalls_concat]
    exact ⟨offer_of_contains htaken, register_of_contains htaken, add_of_contains htaken⟩
  case accepts =>
    intro f hf
    have hfree := (h.contains_eq_false_iff f.name).mpr hf
    rw [ofCalls_concat]
    exact ⟨offer_of_not_contains hfree, register_of_not_contains hfree⟩
  case lookup => exact h.lookup_eq_find?
  case contains => exact h.wellFormed.contains_eq_isSome_lookup
  case toList => exact htoList
  case nodup =>
    rw [htoList, List.map_reverse, List.nodup_reverse]
    exact nodup_map_name_accepted calls
  case size => exact h.size_eq_card
  case isEmpty => exact h.isEmpty_eq

end FunctionTable

end ScriptTree
