import ScriptTree.Options.Document
import ScriptTree.Proofs.Record.Offence
import ScriptTree.Proofs.Yaml.Library

/-!
# Options are decided by the first entry that offends

The options are a strict record of two scalars that both have defaults.  So a mapping with scalar
keys is read as options exactly if none of its entries offends, and otherwise the first one that
does is told.
-/

namespace ScriptTree.Options

open Yaml (Cause Place)
open RecordType (Accepted Decides met said)

/-! ## Options as a record -/

/-- What is decoded as the value of a field. -/
def decodeField (R : Reading) (f : record.Field) : R.Node → Except Cause (record.Value f) :=
  R.decode (.scalar f.type)

/-- What options hold in a field. -/
def value (o : Options) : (f : record.Field) → record.Value f
  | Field.constantFolding => o.constantFolding
  | Field.firstLine => o.firstLine

/-- The options that have been met, with defaults for the other fields. -/
def ofPartial (p : record.Partial) : Options :=
  ⟨(p Field.constantFolding).getD default.constantFolding,
    (p Field.firstLine).getD default.firstLine⟩

theorem complete_eq (p : record.Partial) : p.complete = .ok (ofPartial p) := by
  refine RecordType.Partial.complete_eq_ok_iff.mpr ⟨(ofPartial p).value, fun f => ?_, rfl⟩
  cases f <;> exact Option.or_some

variable {L : Library} {R : Reading}

/-- What is decoded of a mapping is what its entries decide. -/
theorem decode_shape_eq (hR : R.Governs L) {node : R.Node} {entries : List (String × R.Node)}
    (h : R.named? node = some entries) :
    R.decode shape node =
      (entries.foldlM (RecordType.Partial.visit (decodeField R)) .empty).map ofPartial := by
  rw [shape, hR.decode_record h]
  rw [funext complete_eq]
  change (entries.foldlM (RecordType.Partial.visit (decodeField R)) .empty >>= _) = _
  cases entries.foldlM (RecordType.Partial.visit (decodeField R)) .empty <;> rfl

/-! ## Documents -/

/-- What is told of options in a context, where a cause has a place. -/
def told (context : List String) (place : Option Place) (result : Except Cause record.Partial) :
    Except LoadError Options :=
  (result.map ofPartial).mapError fun cause => ⟨context, .fault ⟨cause, place⟩⟩

theorem isOk_told {context : List String} {place : Option Place}
    {result : Except Cause record.Partial} {o : Options} (h : told context place result = .ok o) :
    ∃ p, result = .ok p ∧ ofPartial p = o := by
  cases result with
  | error cause => cases h
  | ok p =>
      cases h
      exact ⟨p, rfl, rfl⟩

/-- The entries of a document decide its options. -/
theorem decides_ofText (hR : R.Governs L) {text : String} {root : R.Node}
    (hroot : R.root? text = some root) {entries : List (String × R.Node)}
    (hentries : R.named? root = some entries) :
    ∃ result place, Decides (decodeField R) entries result ∧
      ofText L text = told ["Parsing compiler options"] place result := by
  obtain ⟨place, hread⟩ : ∃ place, L.read shape text =
      (R.decode shape root).mapError fun c => .fault ⟨c, place⟩ := by
    rw [shape]
    exact hR.read_record hroot hentries
  refine ⟨_, place, RecordType.decides_foldlM entries, ?_⟩
  rw [ofText, Library.parse, hread, decode_shape_eq hR hentries]
  cases entries.foldlM (RecordType.Partial.visit (decodeField R)) .empty <;> rfl

/-- A file is read as its text is, and an error tells its path as well. -/
theorem ofFile_eq {text : String} {place : Option Place} {result : Except Cause record.Partial}
    (h : ofText L text = told ["Parsing compiler options"] place result) {stored : Stored}
    (hstored : stored.text = .ok text) (path : String) :
    ofFile L path stored = told [s!"Loading {path}", "Parsing compiler options"] place result := by
  have htext : readText path stored = .ok text := by
    rw [readText, hstored]
    rfl
  rw [ofFile, htext]
  change (ofText L text).mapError _ = _
  rw [h]
  cases result <;> rfl

/-- A mapping whose keys are scalars has entries with names, in the same order. -/
theorem exists_named {root : R.Node} {nodes : List (R.Node × R.Node)}
    (hmapping : R.content root = .mapping nodes)
    (hkeys : ∀ node ∈ nodes, ∃ tag style name,
      R.content (R.target node.1) = .scalar tag style name) :
    ∃ entries, R.named? root = some entries ∧
      List.Forall₂ (fun node (entry : String × R.Node) =>
        R.text? node.1 = some entry.1 ∧ node.2 = entry.2) nodes entries := by
  have hroot : R.entries? root = some nodes := by
    rw [Reading.entries?, Reading.target, hmapping]
    simp only [hmapping]
  rw [Reading.named?, hroot, Option.bind_some]
  clear hroot hmapping
  induction nodes with
  | nil => exact ⟨[], rfl, .nil⟩
  | cons node nodes ih =>
      obtain ⟨⟨tag, style, name, hkey⟩, hkeys⟩ := List.forall_mem_cons.mp hkeys
      obtain ⟨entries, hentries, hpairs⟩ := ih hkeys
      have hname : R.text? node.1 = some name := by rw [Reading.text?, hkey]
      refine ⟨(name, node.2) :: entries, ?_, .cons ⟨hname, rfl⟩ hpairs⟩
      rw [List.mapM_cons, hname, hentries]
      rfl

/-! ## The decision -/

/-- What an entry can offend with. -/
inductive IsOffence : Cause → Prop where
  | unknownField (name : String) : IsOffence (.unknownField name record.labels)
  | duplicateField (name : String) : IsOffence (.duplicateField name)
  | complaint {cause : Cause} (h : IsComplaint cause) : IsOffence cause

theorem isOffence_of_decides (hR : R.Governs L) {text : String} {root : R.Node}
    (hroot : R.root? text = some root) {entries : List (String × R.Node)}
    (hentries : R.named? root = some entries) {cause : Cause}
    (h : Decides (decodeField R) entries (.error cause)) : IsOffence cause := by
  cases h with
  | @rejected earlier later e _ split before offence =>
      rw [RecordType.offence?] at offence
      split at offence
      case h_1 =>
        cases offence
        exact .unknownField e.1
      case h_2 f hfield =>
        split at offence
        case isTrue =>
          cases offence
          exact .duplicateField e.1
        case isFalse =>
          split at offence
          case h_1 => cases offence
          case h_2 hvalue =>
            cases offence
            have hmem : e ∈ entries := split ▸ List.mem_append_right _ List.mem_cons_self
            exact .complaint (hR.complaint hroot hentries hmem hvalue)

/-- The second entry of a field has a wrong value, and an unknown field comes after it. -/
def offendingText : String :=
  "{first_line: &a 7, first_line: no, fold: *a}"

def offendingTokens : List Yaml.Token :=
  [⟨.flowMappingStart, 0, 0⟩, ⟨.key, 0, 1⟩, ⟨.scalar .plain "first_line", 0, 1⟩,
    ⟨.value, 0, 11⟩, ⟨.anchor "a", 0, 13⟩, ⟨.scalar .plain "7", 0, 16⟩, ⟨.flowEntry, 0, 17⟩,
    ⟨.key, 0, 19⟩, ⟨.scalar .plain "first_line", 0, 19⟩, ⟨.value, 0, 29⟩,
    ⟨.scalar .plain "no", 0, 31⟩, ⟨.flowEntry, 0, 33⟩, ⟨.key, 0, 35⟩,
    ⟨.scalar .plain "fold", 0, 35⟩, ⟨.value, 0, 39⟩, ⟨.reference "a", 0, 41⟩,
    ⟨.flowMappingEnd, 0, 43⟩, ⟨.textEnd, 1, 0⟩]

/-- The number that bears the anchor. -/
def offendingNumber : Yaml.Node :=
  .scalar ⟨0, 13⟩ ⟨some 0, none⟩ .plain "7"

def offendingDocument : Yaml.Document :=
  ⟨.mapping ⟨0, 0⟩ .none [
    (.scalar ⟨0, 1⟩ .none .plain "first_line", offendingNumber),
    (.scalar ⟨0, 19⟩ .none .plain "first_line", .scalar ⟨0, 31⟩ .none .plain "no"),
    (.scalar ⟨0, 35⟩ .none .plain "fold", .reference ⟨0, 41⟩ 0)]⟩

theorem ofText?_offendingText : Yaml.Document.ofText? offendingText = some offendingDocument := by
  have htokens : Yaml.Token.ofText? offendingText = some offendingTokens := rfl
  rw [Yaml.Document.ofText?, htokens]
  rfl

def offendingSite (node : Yaml.Node) : Yaml.Site :=
  ⟨offendingDocument, node⟩

end ScriptTree.Options
