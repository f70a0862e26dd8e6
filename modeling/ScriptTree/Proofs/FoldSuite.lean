import ScriptTree.FoldSuite
import ScriptTree.Proofs.Text.ByteOrder

/-!
# Suites that are accepted

A suite is accepted exactly if it has a case and all names differ.  Otherwise the error is about the
missing cases, or about the least name, in the order of the bytes, that several cases have.  Nothing
but the names decides, in whatever order and on whichever list they stand.
-/

namespace ScriptTree

namespace FoldSuite

/-! ## Sorted names -/

/-- In a sorted list, a name that differs from the next one does not come again. -/
theorem not_mem_of_ne_next {a b : String} {names : List String}
    (hsorted : (a :: b :: names).Pairwise (· ≤ ·)) (hne : a ≠ b) : a ∉ b :: names := by
  rw [List.pairwise_cons, List.pairwise_cons] at hsorted
  obtain ⟨hfirst, hnext, -⟩ := hsorted
  intro hmem
  rcases List.mem_cons.mp hmem with heq | hlater
  · exact hne heq
  · have hle : b ≤ a := hnext a hlater
    exact hne (String.le_antisymm (hfirst b List.mem_cons_self) hle)

theorem two_le_count_cons_iff {a : String} {names : List String} (h : a ∉ names) (name : String) :
    2 ≤ (a :: names).count name ↔ 2 ≤ names.count name := by
  rw [List.count_cons]
  by_cases heq : a = name
  · have hzero : names.count name = 0 := List.count_eq_zero.mpr (heq ▸ h)
    rw [if_pos (beq_iff_eq.mpr heq), hzero]
    omega
  · rw [if_neg (mt beq_iff_eq.mp heq), Nat.add_zero]

/-- The first pair of equal neighbours has the least name that comes twice. -/
theorem least_of_firstRepeated? {names : List String} (hsorted : names.Pairwise (· ≤ ·))
    {name : String} (h : firstRepeated? names = some name) :
    2 ≤ names.count name ∧ ∀ other, 2 ≤ names.count other → name ≤ other := by
  induction names using firstRepeated?.induct with
  | case1 a names =>
      rw [firstRepeated?, if_pos rfl, Option.some.injEq] at h
      subst h
      refine ⟨?_, ?_⟩
      · rw [List.count_cons_self, List.count_cons_self]
        omega
      · intro other htwice
        have hmem : other ∈ a :: a :: names := List.count_pos_iff.mp (by omega)
        rcases List.mem_cons.mp hmem with rfl | hlater
        · exact String.le_refl other
        · exact List.rel_of_pairwise_cons hsorted hlater
  | case2 a b names hne ih =>
      rw [firstRepeated?, if_neg hne] at h
      obtain ⟨htwice, hleast⟩ := ih hsorted.of_cons h
      have hcount := two_le_count_cons_iff (not_mem_of_ne_next hsorted hne)
      refine ⟨(hcount name).mpr htwice, ?_⟩
      intro other hother
      exact hleast other ((hcount other).mp hother)
  | case3 names hshort =>
      rw [firstRepeated?.eq_2 names hshort] at h
      cases h

/-- Without equal neighbours no name comes twice. -/
theorem count_le_one_of_firstRepeated? {names : List String} (hsorted : names.Pairwise (· ≤ ·))
    (h : firstRepeated? names = none) (name : String) : names.count name ≤ 1 := by
  induction names using firstRepeated?.induct with
  | case1 a names =>
      rw [firstRepeated?, if_pos rfl] at h
      cases h
  | case2 a b names hne ih =>
      rw [firstRepeated?, if_neg hne] at h
      have hcount := two_le_count_cons_iff (not_mem_of_ne_next hsorted hne) name
      have hrest := ih hsorted.of_cons h
      omega
  | case3 names hshort =>
      rcases names with _ | ⟨a, _ | ⟨b, names⟩⟩
      · exact Nat.zero_le 1
      · exact List.count_le_length
      · exact (hshort a b names rfl).elim

/-! ## Names of a suite -/

/-- How many cases have a name, of both sorts together. -/
def occurrences (s : FoldSuite) (name : String) : Nat :=
  s.binary.countP (·.name == name) + s.negate.countP (·.name == name)

theorem count_names (s : FoldSuite) (name : String) :
    s.names.count name = s.occurrences name := by
  rw [names, List.count_append, List.count_eq_countP, List.count_eq_countP, List.countP_map,
    List.countP_map]
  rfl

theorem length_names (s : FoldSuite) : s.names.length = s.length := by
  rw [names, List.length_append, List.length_map, List.length_map]
  rfl

theorem isEmpty_eq_true_iff (s : FoldSuite) :
    s.isEmpty = true ↔ s.binary = [] ∧ s.negate = [] := by
  rw [isEmpty, length, beq_iff_eq, Nat.add_eq_zero_iff, List.length_eq_zero_iff,
    List.length_eq_zero_iff]

/-- The names in their order.  It is the order of their bytes. -/
def sortedNames (s : FoldSuite) : List String :=
  s.names.mergeSort (· ≤ ·)

theorem pairwise_sortedNames (s : FoldSuite) : s.sortedNames.Pairwise (· ≤ ·) := by
  have htrans : ∀ a b c : String, decide (a ≤ b) = true → decide (b ≤ c) = true →
      decide (a ≤ c) = true := by
    intro a b c hab hbc
    exact decide_eq_true (String.le_trans (of_decide_eq_true hab) (of_decide_eq_true hbc))
  have htotal : ∀ a b : String, (decide (a ≤ b) || decide (b ≤ a)) = true := by
    intro a b
    rw [Bool.or_eq_true, decide_eq_true_iff, decide_eq_true_iff]
    exact String.le_total a b
  exact (List.pairwise_mergeSort htrans htotal s.names).imp of_decide_eq_true

theorem count_sortedNames (s : FoldSuite) (name : String) :
    s.sortedNames.count name = s.occurrences name := by
  rw [sortedNames, (List.mergeSort_perm _ _).count_eq, count_names]

theorem sortedNames_of_perm {s t : FoldSuite} (h : s.names.Perm t.names) :
    s.sortedNames = t.sortedNames := by
  have hperm : s.sortedNames.Perm t.sortedNames :=
    (List.mergeSort_perm _ _).trans (h.trans (List.mergeSort_perm _ _).symm)
  exact hperm.eq_of_pairwise (fun a b _ _ => String.le_antisymm) s.pairwise_sortedNames
    t.pairwise_sortedNames

/-- The least name, in the order of the bytes, that several cases have. -/
structure IsCulprit (s : FoldSuite) (name : String) : Prop where
  repeated : 2 ≤ s.occurrences name
  least : ∀ other, 2 ≤ s.occurrences other → Text.bytes name ≤ Text.bytes other

theorem isCulprit_of_duplicate? {s : FoldSuite} {name : String}
    (h : s.duplicate? = some name) : s.IsCulprit name := by
  obtain ⟨htwice, hleast⟩ := least_of_firstRepeated? s.pairwise_sortedNames h
  constructor
  case repeated => rwa [count_sortedNames] at htwice
  case least =>
    intro other hother
    rw [← count_sortedNames] at hother
    exact Text.bytes_le_bytes_iff.mpr (hleast other hother)

theorem occurrences_le_one_of_duplicate? {s : FoldSuite} (h : s.duplicate? = none)
    (name : String) : s.occurrences name ≤ 1 := by
  rw [← count_sortedNames]
  exact count_le_one_of_firstRepeated? s.pairwise_sortedNames h name

/-! ## The decision -/

/-- A result that is an error with a wording. -/
def Fails (result : Except LoadError FoldSuite) (message : String) : Prop :=
  ∃ e, result = .error e ∧ e.message = message

/-- What becomes of a suite at a path. -/
structure Judged (path : String) (s : FoldSuite) (result : Except LoadError FoldSuite) : Prop where
  isOk_iff : result.isOk = true ↔
    (s.binary ≠ [] ∨ s.negate ≠ []) ∧ ∀ name, s.occurrences name ≤ 1
  unchanged : ∀ accepted, result = .ok accepted → accepted = s ∧
    accepted.length = s.binary.length + s.negate.length ∧ 0 < accepted.length
  empty : s.binary = [] → s.negate = [] → Fails result s!"No fold cases found in {path}"
  repeated : (∃ name, 2 ≤ s.occurrences name) →
    ∃ name, s.IsCulprit name ∧ Fails result s!"Duplicate fold case '{name}' in {path}"

theorem judged_of_isEmpty (path : String) {s : FoldSuite} (h : s.isEmpty = true) :
    Judged path s (.error (.plain (.noCases path))) := by
  obtain ⟨hbinary, hnegate⟩ := s.isEmpty_eq_true_iff.mp h
  have hnone : ∀ name, s.occurrences name = 0 := by
    intro name
    rw [occurrences, hbinary, hnegate]
    rfl
  constructor
  case isOk_iff =>
    constructor
    · exact fun hok => nomatch hok
    · rintro ⟨hbinary' | hnegate', -⟩
      · exact absurd hbinary hbinary'
      · exact absurd hnegate hnegate'
  case unchanged => exact fun _ haccepted => nomatch haccepted
  case empty => exact fun _ _ => ⟨_, rfl, rfl⟩
  case repeated =>
    rintro ⟨name, htwice⟩
    rw [hnone name] at htwice
    omega

theorem judged_of_duplicate? (path : String) {s : FoldSuite} {name : String}
    (h : s.duplicate? = some name) :
    Judged path s (.error (.plain (.duplicateCase name path))) := by
  have hculprit := isCulprit_of_duplicate? h
  have htwice := hculprit.repeated
  constructor
  case isOk_iff =>
    constructor
    · exact fun hok => nomatch hok
    · rintro ⟨-, honce⟩
      have hone := honce name
      omega
  case unchanged => exact fun _ haccepted => nomatch haccepted
  case empty =>
    intro hbinary hnegate
    rw [occurrences, hbinary, hnegate] at htwice
    cases htwice
  case repeated => exact fun _ => ⟨name, hculprit, _, rfl, rfl⟩

theorem judged_of_distinct (path : String) {s : FoldSuite} (hcases : s.isEmpty = false)
    (h : s.duplicate? = none) : Judged path s (.ok s) := by
  have honce := occurrences_le_one_of_duplicate? h
  have hsome : ¬ (s.binary = [] ∧ s.negate = []) := by
    rw [← isEmpty_eq_true_iff, hcases]
    exact Bool.false_ne_true
  constructor
  case isOk_iff => exact ⟨fun _ => ⟨Classical.not_and_iff_not_or_not.mp hsome, honce⟩, fun _ => rfl⟩
  case unchanged =>
    rintro accepted ⟨⟩
    refine ⟨rfl, rfl, Nat.pos_of_ne_zero ?_⟩
    intro hzero
    rw [isEmpty, hzero] at hcases
    cases hcases
  case empty => exact fun hbinary hnegate => absurd ⟨hbinary, hnegate⟩ hsome
  case repeated =>
    rintro ⟨name, htwice⟩
    have hone := honce name
    omega

theorem judged_check (path : String) (s : FoldSuite) : Judged path s (check path s) := by
  rw [check]
  cases hcases : s.isEmpty with
  | true => exact judged_of_isEmpty path hcases
  | false =>
      rw [if_neg Bool.false_ne_true]
      cases h : s.duplicate? with
      | some name => exact judged_of_duplicate? path h
      | none => exact judged_of_distinct path hcases h

theorem check_of_perm (path : String) {s t : FoldSuite} (h : s.names.Perm t.names) :
    (check path s).map (fun _ => ()) = (check path t).map (fun _ => ()) := by
  have hempty : s.isEmpty = t.isEmpty := by
    rw [isEmpty, isEmpty, ← length_names, ← length_names, h.length_eq]
  have hduplicate : s.duplicate? = t.duplicate? :=
    congrArg firstRepeated? (sortedNames_of_perm h)
  rw [check, check, hempty, hduplicate]
  cases t.isEmpty <;> cases t.duplicate? <;> rfl

/-- A file whose text a library reads as a suite. -/
def Holds (L : Library) (stored : Stored) (s : FoldSuite) : Prop :=
  ∃ text, stored.text = .ok text ∧ L.read shape text = .ok s

variable {L : Library}

theorem ofFile_of_holds (path : String) {stored : Stored} {s : FoldSuite} (h : Holds L stored s) :
    ofFile L path stored = check path s := by
  obtain ⟨text, htext, hread⟩ := h
  have hparse : L.parse shape s!"Parsing {path}" text = .ok s := by
    rw [Library.parse, hread]
    rfl
  rw [ofFile, readText, htext]
  change (L.parse shape _ text >>= fun suite => check path suite) = _
  rw [hparse]
  rfl

/-- A suite is judged by its names.  It is accepted as it is, or the error names the culprit. -/
theorem suites_judged_by_names (path : String) {stored : Stored} {s : FoldSuite}
    (h : Holds L stored s) :
    Judged path s (ofFile L path stored) ∧
    ∀ stored' t, Holds L stored' t → t.names.Perm s.names →
      (ofFile L path stored').map (fun _ => ()) = (ofFile L path stored).map (fun _ => ()) := by
  rw [ofFile_of_holds path h]
  refine ⟨judged_check path s, ?_⟩
  intro stored' t ht hperm
  rw [ofFile_of_holds path ht]
  exact check_of_perm path hperm

/-! ## A file with a repeated case -/

theorem text_file_toUTF8 (text : String) : (Stored.file text.toUTF8).text = .ok text := by
  have hvalid : String.fromUTF8? text.toUTF8 = some text := by
    rw [String.fromUTF8?, String.toUTF8_eq_toByteArray, dif_pos text.isValidUTF8]
    rfl
  rw [Stored.text, hvalid]

/-- A case, and an alias that stands for it. -/
def repeatedCase : String :=
  "negate: [&a {name: a, operand: true}, *a]"

def repeatedCaseTokens : List Yaml.Token :=
  [⟨.blockMappingStart, 0, 0⟩, ⟨.key, 0, 0⟩, ⟨.scalar .plain "negate", 0, 0⟩, ⟨.value, 0, 6⟩,
    ⟨.flowSequenceStart, 0, 8⟩, ⟨.anchor "a", 0, 9⟩, ⟨.flowMappingStart, 0, 12⟩,
    ⟨.key, 0, 13⟩, ⟨.scalar .plain "name", 0, 13⟩, ⟨.value, 0, 17⟩, ⟨.scalar .plain "a", 0, 19⟩,
    ⟨.flowEntry, 0, 20⟩, ⟨.key, 0, 22⟩, ⟨.scalar .plain "operand", 0, 22⟩, ⟨.value, 0, 29⟩,
    ⟨.scalar .plain "true", 0, 31⟩, ⟨.flowMappingEnd, 0, 35⟩, ⟨.flowEntry, 0, 36⟩,
    ⟨.reference "a", 0, 38⟩, ⟨.flowSequenceEnd, 0, 40⟩, ⟨.blockEnd, 1, 0⟩, ⟨.textEnd, 1, 0⟩]

def repeatedCaseDocument : Yaml.Document :=
  ⟨.mapping ⟨0, 0⟩ .none [(.scalar ⟨0, 0⟩ .none .plain "negate", .sequence ⟨0, 8⟩ .none [
    .mapping ⟨0, 9⟩ ⟨some 0, none⟩ [
      (.scalar ⟨0, 13⟩ .none .plain "name", .scalar ⟨0, 19⟩ .none .plain "a"),
      (.scalar ⟨0, 22⟩ .none .plain "operand", .scalar ⟨0, 31⟩ .none .plain "true")],
    .reference ⟨0, 38⟩ 0])]⟩

theorem holds_repeatedCase : Holds Yaml.library (.file repeatedCase.toUTF8)
    ⟨[], [⟨"a", .boolean true, none⟩, ⟨"a", .boolean true, none⟩]⟩ := by
  have htokens : Yaml.Token.ofText? repeatedCase = some repeatedCaseTokens := rfl
  have hdocument : Yaml.Document.ofText? repeatedCase = some repeatedCaseDocument := by
    rw [Yaml.Document.ofText?, htokens]
    rfl
  have hsuite : ((Yaml.Decode.shape shape Yaml.Decode.depthLimit .root
      repeatedCaseDocument.root).run repeatedCaseDocument).toOption =
      some ⟨[], [⟨"a", .boolean true, none⟩, ⟨"a", .boolean true, none⟩]⟩ := by decide +kernel
  refine ⟨repeatedCase, text_file_toUTF8 repeatedCase, ?_⟩
  simp only [Yaml.library, hdocument]
  revert hsuite
  generalize (Yaml.Decode.shape shape _ _ _).run _ = result
  intro hsuite
  cases result with
  | error f => cases hsuite
  | ok s =>
      obtain rfl := Option.some.inj hsuite
      rfl

theorem suites_judged_by_names_of_repeatedCase :
    ∃ s, Holds Yaml.library (.file repeatedCase.toUTF8) s ∧ s.names = ["a", "a"] ∧
      Fails (load "cases.yaml" (.file repeatedCase.toUTF8))
        "Duplicate fold case 'a' in cases.yaml" := by
  refine ⟨_, holds_repeatedCase, rfl, ?_⟩
  obtain ⟨name, hculprit, hfails⟩ :=
    (suites_judged_by_names "cases.yaml" holds_repeatedCase).1.repeated ⟨"a", by decide⟩
  have hname : name = "a" := by
    have hcount := hculprit.repeated
    rw [← count_names] at hcount
    have hmem := List.count_pos_iff.mp (Nat.lt_of_lt_of_le Nat.zero_lt_two hcount)
    simpa [names] using hmem
  rw [hname] at hfails
  exact hfails

end FoldSuite

end ScriptTree
