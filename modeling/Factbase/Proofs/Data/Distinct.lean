import Factbase.Proofs.Data.Rereading
import Factbase.Proofs.Json.Distinct
import Factbase.Proofs.Json.FloatTexts

/-
  Values are told apart by their encodings.

  Two values with one encoding have one structure and the same
  leaves.  Only a timestamp and the text that spells it as the
  encoder does are not told apart, and neither are two timestamps
  that settle on one instant.

  Key definitions include:
    * `Value.Faces`

  Main declarations:
    * `Value.faces_of_doc_eq`
    * `Value.faces_of_encode_eq`
-/

namespace Factbase

namespace Value

------------------------------------------------------------
-- Values with One Encoding
------------------------------------------------------------

mutual

/-
  Two values have one structure with equal leaves, but that a
  timestamp may face the text that spells it, and another one
  that settles on the same instant.
-/
def Faces : Value → Value → Prop
  | .null, .null => True
  | .bool a, .bool b => a = b
  | .integer m, .integer n => m = n
  | .float x, .float y => x = y
  | .timestamp t, .timestamp u => t.settled = u.settled
  | .timestamp t, .text s => s = .ofList (momentText t.utc)
  | .text s, .timestamp t => s = .ofList (momentText t.utc)
  | .text r, .text s => r = s
  | .list vs, .list ws => FacesItems vs ws
  | .map entries, .map others => FacesEntries entries others
  | _, _ => False

/- Items face each other one by one. -/
def FacesItems : List Value → List Value → Prop
  | [], [] => True
  | v :: vs, w :: ws => Faces v w ∧ FacesItems vs ws
  | _, _ => False

/- Entries have the same keys and face each other one by one. -/
def FacesEntries :
    List (String × Value) → List (String × Value) → Prop
  | [], [] => True
  | (j, v) :: entries, (k, w) :: others =>
      j = k ∧ Faces v w ∧ FacesEntries entries others
  | _, _ => False

end

------------------------------------------------------------
-- Leaves
------------------------------------------------------------

/- The numeral of an integer is that of no float. -/
theorem writeInt_ne_write
    {n : Int64}
    {x : Binary64}
    (hFinite : x.isFinite = true) :
    Digits.writeInt n.toInt ≠ Layout.double.write x := by
  intro hSame
  have hNumber := (isNumeral_writeInt n).2
  rw [hSame, (Json.read_write hFinite).2.2] at hNumber
  have hValue := ofNumber_ofInt n
  rw [← hNumber] at hValue
  cases hValue

/- Timestamps of one text settle on one instant. -/
theorem settled_eq_of_momentText_eq
    {t u : Instant}
    (hSupported : t.Supported)
    (hOther : u.Supported)
    (hSame : momentText t.utc = momentText u.utc) :
    t.settled = u.settled := by
  have hValue := ofText_momentText hSupported
  rw [hSame, ofText_momentText hOther, timestamp.injEq] at hValue
  exact hValue.symm

------------------------------------------------------------
-- Values
------------------------------------------------------------

mutual

/-
  Values of one document face each other.  The induction follows
  the first value; the kind of the document leaves few kinds for
  the second one.
-/
theorem faces_of_doc_eq : ∀ v w : Value,
    (∀ u ∈ v.nodes, u.IsFinite) → (∀ u ∈ w.nodes, u.IsFinite) →
    (∀ u ∈ v.nodes, u.IsSupported) → (∀ u ∈ w.nodes, u.IsSupported) →
      v.doc = w.doc → v.Faces w
  | .null, w, _, _, _, _, hDoc => by
      cases w with
      | null => trivial
      | timestamp t => simp [doc_null, doc_timestamp] at hDoc
      | _ => cases hDoc
  | .bool b, w, _, _, _, _, hDoc => by
      cases w with
      | bool b' =>
          cases hDoc
          exact rfl
      | timestamp t => simp [doc_bool, doc_timestamp] at hDoc
      | _ => cases hDoc
  | .integer n, w, _, hFinite, _, _, hDoc => by
      cases w with
      | integer n' =>
          exact Int64.toInt_inj.mp
            (Digits.writeInt_inj.mp (Json.Doc.number.inj hDoc))
      | float x =>
          exact absurd (Json.Doc.number.inj hDoc)
            (writeInt_ne_write (hFinite _ List.mem_cons_self))
      | timestamp t => simp [doc_integer, doc_timestamp] at hDoc
      | _ => cases hDoc
  | .float x, w, hFinite, hFinite', _, _, hDoc => by
      have hFloat : x.isFinite = true :=
        hFinite _ List.mem_cons_self
      cases w with
      | integer n =>
          exact absurd (Json.Doc.number.inj hDoc).symm
            (writeInt_ne_write hFloat)
      | float y =>
          exact Layout.write_inj_of_isFinite hFloat
            (hFinite' _ List.mem_cons_self)
            (Json.Doc.number.inj hDoc)
      | timestamp t => simp [doc_float, doc_timestamp] at hDoc
      | _ => cases hDoc
  | .timestamp t, w, _, _, hSupported, hSupported', hDoc => by
      cases w with
      | timestamp u =>
          rw [doc_timestamp, doc_timestamp,
            Json.Doc.text.injEq] at hDoc
          exact settled_eq_of_momentText_eq
            (hSupported _ List.mem_cons_self)
            (hSupported' _ List.mem_cons_self) hDoc
      | text s =>
          rw [doc_timestamp, doc_text, Json.Doc.text.injEq]
            at hDoc
          rw [Faces, hDoc, String.ofList_toList]
      | _ =>
          rw [doc_timestamp] at hDoc
          cases hDoc
  | .text s, w, _, _, _, _, hDoc => by
      cases w with
      | timestamp t =>
          rw [doc_timestamp, doc_text, Json.Doc.text.injEq]
            at hDoc
          rw [Faces, ← hDoc, String.ofList_toList]
      | text s' =>
          exact String.toList_inj.mp (Json.Doc.text.inj hDoc)
      | _ => cases hDoc
  | .list vs, w, hFinite, hFinite', hSupported, hSupported', hDoc => by
      cases w with
      | list ws =>
          rw [nodes, List.forall_mem_cons]
            at hFinite hFinite' hSupported hSupported'
          exact facesItems_of_docItems_eq vs ws hFinite.2
            hFinite'.2 hSupported.2 hSupported'.2
            (Json.Doc.list.inj hDoc)
      | timestamp t => simp [doc_list, doc_timestamp] at hDoc
      | _ => cases hDoc
  | .map entries, w, hFinite, hFinite', hSupported, hSupported',
      hDoc => by
      cases w with
      | map others =>
          rw [nodes, List.forall_mem_cons]
            at hFinite hFinite' hSupported hSupported'
          exact facesEntries_of_docMembers_eq entries others
            hFinite.2 hFinite'.2 hSupported.2 hSupported'.2
            (Json.Doc.object.inj hDoc)
      | timestamp t => simp [doc_map, doc_timestamp] at hDoc
      | _ => cases hDoc

theorem facesItems_of_docItems_eq : ∀ vs ws : List Value,
    (∀ u ∈ nodesOfItems vs, u.IsFinite) →
    (∀ u ∈ nodesOfItems ws, u.IsFinite) →
    (∀ u ∈ nodesOfItems vs, u.IsSupported) →
    (∀ u ∈ nodesOfItems ws, u.IsSupported) →
      docItems vs = docItems ws → FacesItems vs ws
  | [], [], _, _, _, _, _ => trivial
  | [], w :: ws, _, _, _, _, hDocs => by cases hDocs
  | v :: vs, [], _, _, _, _, hDocs => by cases hDocs
  | v :: vs, w :: ws, hFinite, hFinite', hSupported, hSupported',
      hDocs => by
      rw [nodesOfItems, List.forall_mem_append]
        at hFinite hFinite' hSupported hSupported'
      rw [docItems_cons, docItems_cons, List.cons.injEq] at hDocs
      exact ⟨faces_of_doc_eq v w hFinite.1 hFinite'.1 hSupported.1
          hSupported'.1 hDocs.1,
        facesItems_of_docItems_eq vs ws hFinite.2 hFinite'.2
          hSupported.2 hSupported'.2 hDocs.2⟩

theorem facesEntries_of_docMembers_eq :
    ∀ entries others : List (String × Value),
      (∀ u ∈ nodesOfEntries entries, u.IsFinite) →
      (∀ u ∈ nodesOfEntries others, u.IsFinite) →
      (∀ u ∈ nodesOfEntries entries, u.IsSupported) →
      (∀ u ∈ nodesOfEntries others, u.IsSupported) →
        docMembers entries = docMembers others →
          FacesEntries entries others
  | [], [], _, _, _, _, _ => trivial
  | [], e :: others, _, _, _, _, hDocs => by cases hDocs
  | e :: entries, [], _, _, _, _, hDocs => by cases hDocs
  | (j, v) :: entries, (k, w) :: others, hFinite, hFinite',
      hSupported, hSupported', hDocs => by
      rw [nodesOfEntries, List.forall_mem_append]
        at hFinite hFinite' hSupported hSupported'
      rw [docMembers_cons, docMembers_cons, List.cons.injEq,
        Prod.mk.injEq, String.toList_inj] at hDocs
      exact ⟨hDocs.1.1,
        faces_of_doc_eq v w hFinite.1 hFinite'.1 hSupported.1
          hSupported'.1 hDocs.1.2,
        facesEntries_of_docMembers_eq entries others hFinite.2
          hFinite'.2 hSupported.2 hSupported'.2 hDocs.2⟩

end

/- Values that are encoded alike face each other. -/
theorem faces_of_encode_eq
    {v w : Value}
    {text : String}
    (hSupported : ∀ u ∈ v.nodes, u.IsSupported)
    (hOther : ∀ u ∈ w.nodes, u.IsSupported)
    (hEncode : encode v.toDatum = .ok text)
    (hSame : encode w.toDatum = .ok text) : v.Faces w := by
  rcases encode_toDatum_eq_ok_iff.mp hEncode with ⟨hFinite, rfl⟩
  rcases encode_toDatum_eq_ok_iff.mp hSame with ⟨hFinite', hText⟩
  rw [String.ofList_inj] at hText
  exact faces_of_doc_eq v w hFinite hFinite' hSupported hOther
    (Json.Doc.write_inj (legible_doc v hFinite)
      (legible_doc w hFinite') hText)

end Value

end Factbase
