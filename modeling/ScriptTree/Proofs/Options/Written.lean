import ScriptTree.Proofs.Options.Decision

/-!
# Options survive writing and reading

Options can be written as lines, one for each field that shall be kept, in any order.  What is read
from these lines has the fields that were written, and defaults elsewhere.  A number of a line that
is too large or negative is never read as another one: the error says that it is no such number.
-/

namespace ScriptTree.Options

open Yaml (Cause Numeral PlainLine IsWord)
open RecordType (Accepted Decides met offence? valueOf? ofLabel?_eq_some_iff)

/-! ## Written options -/

/-- The text with a line for each of some fields. -/
def written (value : Field → String) (fields : List Field) : String :=
  String.join (fields.map fun field => field.name ++ ": " ++ value field ++ "\n")

/-- The values of both fields as they are written. -/
def valueText (constantFolding : Bool) (firstLine : String) : Field → String
  | .constantFolding => if constantFolding then "true" else "false"
  | .firstLine => firstLine

/-- The options with some fields kept and the others at their defaults. -/
def keep (o : Options) (fields : List Field) : Options :=
  ⟨if .constantFolding ∈ fields then o.constantFolding else default.constantFolding,
    if .firstLine ∈ fields then o.firstLine else default.firstLine⟩

theorem isWord_name (field : Field) : IsWord field.name.toList := by
  cases field <;> exact ⟨List.all_eq_true.mp rfl, by decide, by decide⟩

theorem isWord_valueText (constantFolding : Bool) (z : Numeral) (field : Field) :
    IsWord (valueText constantFolding z.text field).toList := by
  have htrue : IsWord "true".toList := ⟨List.all_eq_true.mp rfl, by decide, by decide⟩
  have hfalse : IsWord "false".toList := ⟨List.all_eq_true.mp rfl, by decide, by decide⟩
  cases field with
  | constantFolding => cases constantFolding <;> assumption
  | firstLine => exact Yaml.isWord_numeral z

section Lines

variable {value : Field → String} (hvalue : ∀ field, IsWord (value field).toList)

/-- The line of a field. -/
def writtenLine (field : Field) : PlainLine where
  name := field.name.toList
  word := (value field).toList
  isWord_name := isWord_name field
  isWord_word := hvalue field
  head_name := by cases field <;> decide
  length_name := by cases field <;> decide

theorem written_eq (fields : List Field) :
    written value fields =
      String.ofList (PlainLine.textOf (fields.map (writtenLine hvalue))) := by
  rw [← String.toList_inj, written, String.toList_join, String.toList_ofList, PlainLine.textOf,
    List.flatMap_map, List.flatMap_map]
  congr 1
  funext field
  simp [writtenLine, PlainLine.text]

end Lines

/-! ## Entries of written options -/

section Entries

variable {L : Library} {R : Reading} {value : Field → String}

/-- An entry with the name of a field and with the text of its value. -/
structure IsWritten (R : Reading) (value : Field → String) (field : Field)
    (entry : String × R.Node) : Prop where
  name : entry.1 = field.name
  plain : R.plain? entry.2 = some (value field)

/-- Lines of fields are a document with an entry for each of them. -/
theorem exists_isWritten (hR : R.Governs L) (hvalue : ∀ field, IsWord (value field).toList)
    {fields : List Field} (h : fields ≠ []) :
    ∃ root entries, R.root? (written value fields) = some root ∧ R.named? root = some entries ∧
      List.Forall₂ (IsWritten R value) fields entries := by
  have htarget : ∀ {node : R.Node} {text : String}, R.content node = .scalar none .plain text →
      R.content (R.target node) = .scalar none .plain text := by
    intro node text hnode
    rw [Reading.target, hnode]
    exact hnode
  obtain ⟨root, nodes, hroot, hmapping, hnodes⟩ :=
    hR.lines (mt List.map_eq_nil_iff.mp h : fields.map (writtenLine hvalue) ≠ [])
  rw [List.forall₂_map_left_iff] at hnodes
  have hkeys : ∀ node ∈ nodes, ∃ tag style name,
      R.content (R.target node.1) = .scalar tag style name := by
    intro node hnode
    obtain ⟨i, hi, rfl⟩ := List.mem_iff_getElem.mp hnode
    have hline := hnodes.get (hnodes.length_eq ▸ hi) hi
    exact ⟨_, _, _, htarget hline.1⟩
  obtain ⟨entries, hentries, hpairs⟩ := exists_named hmapping hkeys
  refine ⟨root, entries, by rw [written_eq hvalue, hroot], hentries, ?_⟩
  clear hroot hmapping hentries hkeys h
  induction hnodes generalizing entries with
  | nil =>
      cases hpairs
      exact .nil
  | @cons field node fields nodes hline _ ih =>
      cases hpairs with
      | @cons _ entry _ entries hpair hpairs =>
          refine .cons ⟨?name, ?plain⟩ (ih entries hpairs)
          case name =>
            rw [Reading.text?, htarget hline.1] at hpair
            exact (Option.some.inj hpair.1).symm.trans String.ofList_toList
          case plain =>
            rw [← hpair.2, Reading.plain?, htarget hline.2]
            exact congrArg some String.ofList_toList

variable {fields : List Field} {entries : List (String × R.Node)}

theorem map_fst_of_isWritten (h : List.Forall₂ (IsWritten R value) fields entries) :
    entries.map Prod.fst = fields.map Field.name := by
  induction h with
  | nil => rfl
  | cons hentry _ ih => rw [List.map_cons, List.map_cons, hentry.name, ih]

theorem exists_of_mem (h : List.Forall₂ (IsWritten R value) fields entries)
    {entry : String × R.Node} (hentry : entry ∈ entries) :
    ∃ field ∈ fields, IsWritten R value field entry := by
  obtain ⟨i, hi, rfl⟩ := List.mem_iff_getElem.mp hentry
  have hfields := h.length_eq ▸ hi
  exact ⟨fields[i], List.getElem_mem hfields, h.get hfields hi⟩

/-- The value of a field is that of its line, wherever it stands. -/
theorem valueOf?_of_isWritten (h : List.Forall₂ (IsWritten R value) fields entries)
    {field : Field} (hmem : field ∈ fields) :
    ∃ node, valueOf? (r := record) entries field = some node ∧
      R.plain? node = some (value field) := by
  induction h with
  | nil => cases hmem
  | @cons other entry fields entries hentry _ ih =>
      rw [valueOf?, List.find?_cons]
      by_cases hother : other = field
      · subst hother
        have hname : (entry.1 == record.label other) = true := beq_iff_eq.mpr hentry.name
        rw [hname]
        exact ⟨entry.2, rfl, hentry.plain⟩
      · have hname : (entry.1 == record.label field) = false := by
          rw [beq_eq_false_iff_ne, hentry.name]
          exact fun heq => hother (record.label_injective heq)
        rw [hname]
        exact ih ((List.mem_cons.mp hmem).resolve_left (Ne.symm hother))

theorem met_of_not_mem (h : List.Forall₂ (IsWritten R value) fields entries) {field : Field}
    (hmem : field ∉ fields) : met (decodeField R) entries field = none := by
  have hnone : valueOf? (r := record) entries field = none := by
    rw [RecordType.valueOf?_eq_none_iff, map_fst_of_isWritten h]
    rintro hname
    obtain ⟨other, hother, hlabel⟩ := List.mem_map.mp hname
    exact hmem (record.label_injective hlabel ▸ hother)
  rw [met, hnone]
  rfl

theorem nodup_of_isWritten (h : List.Forall₂ (IsWritten R value) fields entries)
    (hnodup : fields.Nodup) : (entries.map Prod.fst).Nodup := by
  rw [map_fst_of_isWritten h]
  exact hnodup.map fun _ _ => record.label_injective

/-- Lines of different fields offend with nothing but their values. -/
theorem exists_error_of_decides (h : List.Forall₂ (IsWritten R value) fields entries)
    (hnodup : fields.Nodup) {cause : Cause}
    (hdecides : Decides (decodeField R) entries (.error cause)) :
    ∃ entry ∈ entries, ∃ field, decodeField R field entry.2 = .error cause := by
  cases hdecides with
  | @rejected earlier later entry _ split before offence =>
      have hmem : entry ∈ entries := split ▸ List.mem_append_right _ List.mem_cons_self
      obtain ⟨field, -, hentry⟩ := exists_of_mem h hmem
      have hfield : record.ofLabel? entry.1 = some field :=
        ofLabel?_eq_some_iff.mpr hentry.name
      have hnew : entry.1 ∉ earlier.map Prod.fst := by
        have hnames := nodup_of_isWritten h hnodup
        rw [split, List.map_append, List.map_cons, List.nodup_middle, List.nodup_cons] at hnames
        exact fun hmem => hnames.1 (List.mem_append_left _ hmem)
      simp only [offence?, hfield, if_neg hnew] at offence
      cases hdecode : decodeField R field entry.2 with
      | ok v =>
          rw [hdecode] at offence
          cases offence
      | error cause' =>
          rw [hdecode] at offence
          cases offence
          exact ⟨entry, hmem, field, hdecode⟩

end Entries

/-! ## Values as they are written -/

section Values

variable {L : Library} {R : Reading} {node : R.Node}

theorem decode_constantFolding (hR : R.Governs L) {constantFolding : Bool} {firstLine : String}
    (h : R.plain? node = some (valueText constantFolding firstLine .constantFolding)) :
    decodeField R Field.constantFolding node = .ok constantFolding := by
  have hword : Yaml.Scalar.boolean? (valueText constantFolding firstLine .constantFolding) =
      some constantFolding := by
    cases constantFolding <;> rfl
  exact (hR.decode_boolean h).mpr (hR.resolve_boolean hword)

theorem head?_text_ofNat (n : Nat) : (Numeral.ofNat n).text.toList.head? ≠ some '-' := by
  intro hhead
  rw [Numeral.text, String.toList_ofList] at hhead
  exact absurd ((Numeral.ofNat n).isDigit '-' (List.mem_of_head? hhead)) (by decide)

theorem decode_firstLine (hR : R.Governs L) {n : UInt64}
    (h : R.plain? node = some (toString n.toNat)) :
    decodeField R Field.firstLine node = .ok n := by
  have hvalue := Numeral.value_ofNat n.toNat
  have hlt : n.toNat < 2 ^ 64 := n.toNat_lt
  have hresolve : R.resolve (Numeral.ofNat n.toNat).text = .integer n.toNat := by
    rw [← hvalue]
    exact hR.resolve_numeral (Yaml.Scalar.hasLeadingZero_toDigits n.toNat) (by omega) (by omega)
  exact (hR.decode_lineNumber h).mpr ⟨head?_text_ofNat n.toNat, hresolve⟩

/-- An integer that is no number of a line is not wrapped to one, however it is written. -/
theorem decode_firstLine_ne_ok (hR : R.Governs L) {z : Numeral}
    (hz : z.value < 0 ∨ UInt64.size ≤ z.value) (h : R.plain? node = some z.text) (n : UInt64) :
    decodeField R Field.firstLine node ≠ .ok n := by
  intro hn
  obtain ⟨-, hresolve⟩ := (hR.decode_lineNumber h).mp hn
  have hvalue : (n.toNat : Int) = z.value := hR.value_of_resolve hresolve
  have hlt : n.toNat < UInt64.size := n.toNat_lt
  omega

end Values

/-! ## Reading what was written -/

variable {L : Library} {R : Reading}

/-- Options that are written, all of them or in part, are read as what was written. -/
theorem ofText_written (hR : R.Governs L) (o : Options) {fields : List Field}
    (hfields : fields ≠ []) (hnodup : fields.Nodup) :
    ofText L (written (valueText o.constantFolding (toString o.firstLine.toNat)) fields) =
      .ok (o.keep fields) := by
  have hwords := isWord_valueText o.constantFolding (Numeral.ofNat o.firstLine.toNat)
  obtain ⟨root, entries, hroot, hentries, hwritten⟩ := exists_isWritten hR hwords hfields
  have hdecode : ∀ field node,
      R.plain? node = some (valueText o.constantFolding (toString o.firstLine.toNat) field) →
      decodeField R field node = .ok (o.value field) := by
    intro field node hnode
    cases field with
    | constantFolding => exact decode_constantFolding hR hnode
    | firstLine => exact decode_firstLine hR hnode
  have haccepted : Accepted (decodeField R) entries := by
    refine (RecordType.accepted_iff rfl).mpr ⟨nodup_of_isWritten hwritten hnodup, ?_⟩
    intro entry hentry
    obtain ⟨field, -, hfield⟩ := exists_of_mem hwritten hentry
    exact ⟨field, o.value field, ofLabel?_eq_some_iff.mpr hfield.name,
      hdecode field entry.2 hfield.plain⟩
  have hmet : ∀ field, met (decodeField R) entries field =
      if field ∈ fields then some (o.value field) else none := by
    intro field
    split
    case isTrue hmem =>
      obtain ⟨node, hnode, hplain⟩ := valueOf?_of_isWritten hwritten hmem
      rw [met, hnode, Option.bind_some, hdecode field node hplain]
      rfl
    case isFalse hmem => exact met_of_not_mem hwritten hmem
  obtain ⟨result, place, hdecides, hresult⟩ := decides_ofText hR hroot hentries
  have hpartial : ofPartial (met (decodeField R) entries) = o.keep fields := by
    rw [ofPartial, hmet, hmet, keep, Options.mk.injEq]
    constructor <;> split <;> rfl
  have hsame : result = .ok (met (decodeField R) entries) := hdecides.unique (.accepted haccepted)
  rw [hsame] at hresult
  exact hresult.trans (congrArg Except.ok hpartial)

/-- A number of a line that is none is told. -/
theorem ofText_written_error (hR : R.Governs L) (constantFolding : Bool) {z : Numeral}
    (hz : z.value < 0 ∨ UInt64.size ≤ z.value) {fields : List Field} (hnodup : fields.Nodup)
    (hmem : .firstLine ∈ fields) :
    ∃ cause place, IsComplaint cause ∧
      ofText L (written (valueText constantFolding z.text) fields) =
        .error ⟨["Parsing compiler options"], .fault ⟨cause, place⟩⟩ := by
  obtain ⟨root, entries, hroot, hentries, hwritten⟩ :=
    exists_isWritten hR (isWord_valueText constantFolding z) (List.ne_nil_of_mem hmem)
  obtain ⟨result, place, hdecides, hresult⟩ := decides_ofText hR hroot hentries
  obtain ⟨node, hnode, hplain⟩ := valueOf?_of_isWritten hwritten hmem
  cases result with
  | ok p =>
      cases hdecides with
      | accepted haccepted =>
          obtain ⟨e, he, rfl⟩ := Option.map_eq_some_iff.mp hnode
          have hname := List.find?_some he
          obtain ⟨field, n, hfield, hn⟩ := ((RecordType.accepted_iff rfl).mp haccepted).2 e
            (List.mem_of_find?_eq_some he)
          have hfirst : record.ofLabel? e.1 = some .firstLine :=
            ofLabel?_eq_some_iff.mpr (beq_iff_eq.mp hname)
          cases hfield.symm.trans hfirst
          exact absurd hn (decode_firstLine_ne_ok hR hz hplain n)
  | error cause =>
      obtain ⟨entry, hentry, field, herror⟩ := exists_error_of_decides hwritten hnodup hdecides
      exact ⟨cause, place, hR.complaint hroot hentries hentry herror, hresult⟩

/-- Options survive writing and reading: what is read from the lines of some fields, in either
order, has these fields and defaults elsewhere, and the lines of both fields give the same options
again.  An integer that is no number of a line, however it is written, is an error and not another
number. -/
theorem options_survive_writing (hR : R.Governs L) (o : Options) {fields : List Field}
    (hfields : fields ≠ []) (hnodup : fields.Nodup) :
    ofText L (written (valueText o.constantFolding (toString o.firstLine.toNat)) fields) =
        .ok (o.keep fields) ∧
      ((∀ field, field ∈ fields) →
        ofText L (written (valueText o.constantFolding (toString o.firstLine.toNat)) fields) =
          .ok o) ∧
      ∀ z : Numeral, z.value < 0 ∨ UInt64.size ≤ z.value → .firstLine ∈ fields →
        ∃ cause place, IsComplaint cause ∧
          ofText L (written (valueText o.constantFolding z.text) fields) =
            .error ⟨["Parsing compiler options"], .fault ⟨cause, place⟩⟩ := by
  refine ⟨ofText_written hR o hfields hnodup, ?both, ?error⟩
  case both =>
    intro hall
    rw [ofText_written hR o hfields hnodup, keep, if_pos (hall _), if_pos (hall _)]
  case error =>
    exact fun z hz hmem => ofText_written_error hR o.constantFolding hz hnodup hmem

/-- The largest number of a line comes back, and the next integer does not. -/
theorem options_survive_writing_largest :
    ofYaml "first_line: 18446744073709551615\nconstant_folding: false\n" =
        .ok ⟨false, 18446744073709551615⟩ ∧
      ∃ cause place, IsComplaint cause ∧
        ofYaml "first_line: 18446744073709551616\nconstant_folding: false\n" =
          .error ⟨["Parsing compiler options"], .fault ⟨cause, place⟩⟩ := by
  have hall : ∀ field, field ∈ [Field.firstLine, .constantFolding] := by
    rintro (_ | _) <;> decide
  have hdigits : toString (18446744073709551615 : UInt64).toNat = "18446744073709551615" := by
    decide +kernel
  have hlarge : (UInt64.size : Int) ≤ (Numeral.ofNat UInt64.size).value :=
    Int.le_of_eq (Numeral.value_ofNat UInt64.size).symm
  have hnext : (Numeral.ofNat UInt64.size).text = "18446744073709551616" := by
    decide +kernel
  obtain ⟨-, hboth, herror⟩ := options_survive_writing Yaml.reading_governs
    ⟨false, 18446744073709551615⟩ (List.cons_ne_nil Field.firstLine [.constantFolding]) (by decide)
  have hread := hboth hall
  have hrejected := herror (.ofNat UInt64.size) (.inr hlarge) (hall _)
  rw [hdigits] at hread
  rw [hnext] at hrejected
  exact ⟨hread, hrejected⟩

end ScriptTree.Options
