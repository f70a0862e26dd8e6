import ScriptTree.Proofs.FunctionTable

/-!
# The order of calls on a table

Two calls under different names do not depend on each other.  Made in the other order they are
accepted or turned down as before, every name leads to the same definition, and only the places of
the two definitions may change.  A table is also what its own definitions make of an empty one.
-/

namespace ScriptTree

namespace FunctionTable

/-! ## Decisions -/

/-- Which calls on a table are accepted, in the order of the calls. -/
def decisions (t : FunctionTable) : List FunctionDefinition → List Bool
  | [] => []
  | f :: calls => (t.register f).isOk :: decisions (t.add f) calls

theorem isOk_register (t : FunctionTable) (f : FunctionDefinition) :
    (t.register f).isOk = !t.contains f.name := by
  rw [register, offer]
  cases t.contains f.name <;> rfl

theorem contains_empty (name : String) : empty.contains name = false :=
  Std.HashMap.contains_empty

theorem contains_add (t : FunctionTable) (f : FunctionDefinition) (name : String) :
    (t.add f).contains name = (f.name == name || t.contains name) := by
  by_cases htaken : t.contains f.name = true
  · rw [add_of_contains htaken]
    by_cases hname : f.name = name
    · rw [← hname, htaken, Bool.or_true]
    · rw [beq_eq_false_iff_ne.mpr hname, Bool.false_or]
  · rw [add_of_not_contains (Bool.eq_false_iff.mpr htaken)]
    exact Std.HashMap.contains_insert

theorem decisions_append (t : FunctionTable) (earlier later : List FunctionDefinition) :
    t.decisions (earlier ++ later) =
      t.decisions earlier ++ (earlier.foldl add t).decisions later := by
  induction earlier generalizing t with
  | nil => rfl
  | cons f earlier ih => rw [List.cons_append, decisions, ih]; rfl

/-- Tables with the same names take the same decisions, wherever their definitions stand. -/
theorem decisions_congr {t t' : FunctionTable} (h : ∀ name, t.contains name = t'.contains name)
    (calls : List FunctionDefinition) : t.decisions calls = t'.decisions calls := by
  induction calls generalizing t t' with
  | nil => rfl
  | cons f calls ih =>
      have hadd : ∀ name, (t.add f).contains name = (t'.add f).contains name := by
        intro name
        rw [contains_add, contains_add, h]
      rw [decisions, decisions, isOk_register, isOk_register, h, ih hadd]

theorem decisions_exchange (t : FunctionTable) {f g : FunctionDefinition}
    (hne : f.name ≠ g.name) (later : List FunctionDefinition) :
    ∃ a b rest, t.decisions (f :: g :: later) = a :: b :: rest ∧
      t.decisions (g :: f :: later) = b :: a :: rest := by
  have hf : ((t.add g).register f).isOk = (t.register f).isOk := by
    rw [isOk_register, isOk_register, contains_add, beq_eq_false_iff_ne.mpr hne.symm,
      Bool.false_or]
  have hg : ((t.add f).register g).isOk = (t.register g).isOk := by
    rw [isOk_register, isOk_register, contains_add, beq_eq_false_iff_ne.mpr hne, Bool.false_or]
  have hnames : ∀ name, ((t.add g).add f).contains name = ((t.add f).add g).contains name := by
    intro name
    simp only [contains_add, Bool.or_left_comm]
  refine ⟨(t.register f).isOk, (t.register g).isOk, ((t.add f).add g).decisions later, ?_, ?_⟩
  · rw [decisions, decisions, hg]
  · rw [decisions, decisions, hf, decisions_congr hnames]

/-- Calls under names that are free and differ from each other are all accepted. -/
theorem decisions_of_nodup {t : FunctionTable} {calls : List FunctionDefinition}
    (hfree : ∀ f ∈ calls, t.contains f.name = false) (hnodup : (calls.map (·.name)).Nodup) :
    ∀ accepted ∈ t.decisions calls, accepted = true := by
  induction calls generalizing t with
  | nil => exact fun _ h => (nomatch h)
  | cons f calls ih =>
      obtain ⟨hfirst, hrest⟩ := List.forall_mem_cons.mp hfree
      rw [List.map_cons, List.nodup_cons] at hnodup
      have hfree' : ∀ g ∈ calls, (t.add f).contains g.name = false := by
        intro g hg
        have hname : f.name ≠ g.name := by
          intro hsame
          exact hnodup.1 (hsame ▸ List.mem_map_of_mem hg)
        rw [contains_add, beq_eq_false_iff_ne.mpr hname, Bool.false_or, hrest g hg]
      rw [decisions, List.forall_mem_cons, isOk_register, hfirst]
      exact ⟨rfl, ih hfree' hnodup.2⟩

/-! ## Definitions -/

/-- The first two calls are both accepted if their names differ, and then they come first. -/
theorem accepted_exchange {f g : FunctionDefinition} (hne : f.name ≠ g.name)
    (later : List FunctionDefinition) :
    ∃ rest, accepted (f :: g :: later) = f :: g :: rest ∧
      accepted (g :: f :: later) = g :: f :: rest := by
  have hf : (f.name != g.name) = true := bne_iff_ne.mpr hne
  have hg : (g.name != f.name) = true := bne_iff_ne.mpr hne.symm
  refine ⟨(accepted later).filter fun h => h.name != f.name && h.name != g.name, ?_, ?_⟩
  · simp [accepted, hg, List.filter_filter]
  · simp [accepted, hf, List.filter_filter, Bool.and_comm]

theorem accepted_of_nodup {calls : List FunctionDefinition}
    (hnodup : (calls.map (·.name)).Nodup) : accepted calls = calls := by
  induction calls with
  | nil => rfl
  | cons f calls ih =>
      rw [List.map_cons, List.nodup_cons] at hnodup
      have hkept : ∀ g ∈ calls, (g.name != f.name) = true := by
        intro g hg
        rw [bne_iff_ne]
        intro hsame
        exact hnodup.1 (hsame ▸ List.mem_map_of_mem hg)
      rw [accepted, ih hnodup.2, List.filter_eq_self.mpr hkept]

/-! ## Neighbours exchanged -/

/-- Two tables that agree on every name, and in which two definitions may have changed places. -/
structure AgreesUpTo (f g : FunctionDefinition) (t t' : FunctionTable) : Prop where
  lookup : ∀ name, t'.lookup name = t.lookup name
  contains : ∀ name, t'.contains name = t.contains name
  size : t'.size = t.size
  toList : t'.toList = t.toList ∨ ∃ newer older,
    t.toList = newer ++ g :: f :: older ∧ t'.toList = newer ++ f :: g :: older

theorem find?_exchange {f g : FunctionDefinition} (hne : f.name ≠ g.name)
    (earlier later : List FunctionDefinition) (name : String) :
    (earlier ++ g :: f :: later).find? (·.name == name) =
      (earlier ++ f :: g :: later).find? (·.name == name) := by
  rw [List.find?_append, List.find?_append]
  by_cases hf : f.name = name
  · have hg : (g.name == name) = false := beq_eq_false_iff_ne.mpr fun h => hne (hf.trans h.symm)
    simp [hf, hg]
  · have hf' : (f.name == name) = false := beq_eq_false_iff_ne.mpr hf
    simp [List.find?_cons, hf']

theorem toList_ofCalls (calls : List FunctionDefinition) :
    (ofCalls calls).toList = (accepted calls).reverse :=
  (firstWins_ofCalls calls).toList

private theorem filter_exchange {α : Type} (p : α → Bool) (a b : α) (rest : List α) :
    (b :: a :: rest).filter p = (a :: b :: rest).filter p ∨
      (a :: b :: rest).filter p = a :: b :: rest.filter p ∧
        (b :: a :: rest).filter p = b :: a :: rest.filter p := by
  cases ha : p a with
  | false => simp [List.filter_cons, ha]
  | true => cases hb : p b <;> simp [ha, hb]

/-- If both are accepted, they stand next to each other.  Otherwise it does not matter which one of
them is made first. -/
theorem toList_exchange {f g : FunctionDefinition} (hne : f.name ≠ g.name)
    (earlier later : List FunctionDefinition) :
    (ofCalls (earlier ++ g :: f :: later)).toList = (ofCalls (earlier ++ f :: g :: later)).toList ∨
    ∃ newer older, (ofCalls (earlier ++ f :: g :: later)).toList = newer ++ g :: f :: older ∧
      (ofCalls (earlier ++ g :: f :: later)).toList = newer ++ f :: g :: older := by
  obtain ⟨rest, hfg, hgf⟩ := accepted_exchange hne later
  rw [toList_ofCalls, toList_ofCalls, accepted_append_eq, accepted_append_eq, hfg, hgf]
  rcases filter_exchange (fun h => !(earlier.map (·.name)).contains h.name) f g rest with
    hsame | ⟨hfg', hgf'⟩
  · rw [hsame]
    exact Or.inl rfl
  · rw [hfg', hgf']
    right
    refine ⟨(rest.filter fun h => !(earlier.map (·.name)).contains h.name).reverse,
      (accepted earlier).reverse, ?_, ?_⟩ <;> simp only [List.reverse_append, List.reverse_cons,
        List.append_assoc, List.cons_append, List.nil_append]

theorem agreesUpTo_exchange {f g : FunctionDefinition} (hne : f.name ≠ g.name)
    (earlier later : List FunctionDefinition) :
    AgreesUpTo f g (ofCalls (earlier ++ f :: g :: later))
      (ofCalls (earlier ++ g :: f :: later)) := by
  have hfg := represents_ofCalls (earlier ++ f :: g :: later)
  have hgf := represents_ofCalls (earlier ++ g :: f :: later)
  have hlookup : ∀ name, (ofCalls (earlier ++ g :: f :: later)).lookup name =
      (ofCalls (earlier ++ f :: g :: later)).lookup name := by
    intro name
    rw [hgf.lookup_eq_find?, hfg.lookup_eq_find?, find?_exchange hne]
  constructor
  case lookup => exact hlookup
  case contains =>
    intro name
    rw [hgf.wellFormed.contains_eq_isSome_lookup, hfg.wellFormed.contains_eq_isSome_lookup,
      hlookup]
  case size =>
    have hperm : (earlier ++ g :: f :: later).Perm (earlier ++ f :: g :: later) :=
      (List.Perm.swap f g later).append_left earlier
    rw [hgf.size_eq_card, hfg.size_eq_card, List.toFinset_eq_of_perm _ _ (hperm.map _)]
  case toList => exact toList_exchange hne earlier later

/-- Two neighbouring calls that may be exchanged.  Every call gets the same answer as before. -/
structure Exchangeable (earlier : List FunctionDefinition) (f g : FunctionDefinition)
    (later : List FunctionDefinition) : Prop where
  agrees : AgreesUpTo f g (ofCalls (earlier ++ f :: g :: later))
    (ofCalls (earlier ++ g :: f :: later))
  decisions : ∃ a b rest,
    empty.decisions (earlier ++ f :: g :: later) = empty.decisions earlier ++ a :: b :: rest ∧
      empty.decisions (earlier ++ g :: f :: later) = empty.decisions earlier ++ b :: a :: rest

theorem exchangeable_of_ne {f g : FunctionDefinition} (hne : f.name ≠ g.name)
    (earlier later : List FunctionDefinition) : Exchangeable earlier f g later := by
  refine ⟨agreesUpTo_exchange hne earlier later, ?_⟩
  obtain ⟨a, b, rest, hfg, hgf⟩ := (ofCalls earlier).decisions_exchange hne later
  refine ⟨a, b, rest, ?_, ?_⟩
  · rw [decisions_append]
    exact congrArg _ hfg
  · rw [decisions_append]
    exact congrArg _ hgf

/-! ## Tables made again -/

/-- A table that its own definitions make again, from the least recent one on. -/
structure IsRebuilt (t : FunctionTable) : Prop where
  decisions : ∀ accepted ∈ decisions .empty t.toList.reverse, accepted = true
  toList : (ofCalls t.toList.reverse).toList = t.toList
  lookup : ∀ name, (ofCalls t.toList.reverse).lookup name = t.lookup name

theorem Represents.isRebuilt {t : FunctionTable} {calls : List FunctionDefinition}
    (h : t.Represents calls) : t.IsRebuilt := by
  have hdefinitions : t.toList.reverse = accepted calls := by
    rw [FunctionTable.toList, List.reverse_reverse, h.definitions]
  have hnodup := nodup_map_name_accepted calls
  constructor
  case decisions =>
    rw [hdefinitions]
    exact decisions_of_nodup (fun f _ => contains_empty f.name) hnodup
  case toList =>
    rw [toList_ofCalls, hdefinitions, accepted_of_nodup hnodup, ← hdefinitions,
      List.reverse_reverse]
  case lookup =>
    intro name
    rw [(represents_ofCalls _).lookup_eq_find?, h.lookup_eq_find?, hdefinitions, find?_accepted]

end FunctionTable

end ScriptTree
