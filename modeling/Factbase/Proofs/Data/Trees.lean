import Factbase.Proofs.Data.Canonical
import Factbase.Proofs.Json.Floats

/-
  The text of a value and the JSON tree that it reads as.

  A value whose floats are all finite has an encoding, and all
  its numerals can be read.  The tree of the text follows the
  value, with a float for every float, unless the value is
  nested deeper than the reader goes.

  Key definitions include:
    * `Value.nodes`
    * `Value.depth`
    * `Value.tree`

  Main declarations:
    * `Value.within_doc`
    * `Value.encode_toDatum`
    * `Value.outcome_readTree`
-/

namespace Factbase.Value

------------------------------------------------------------
-- Parts of Values
------------------------------------------------------------

mutual

/- A value and all values in it. -/
def nodes : Value → List Value
  | .list vs => .list vs :: nodesOfItems vs
  | .map entries => .map entries :: nodesOfEntries entries
  | v => [v]

/- Items and all values in them. -/
def nodesOfItems : List Value → List Value
  | [] => []
  | v :: vs => nodes v ++ nodesOfItems vs

/- The values of entries and all values in them. -/
def nodesOfEntries : List (String × Value) → List Value
  | [] => []
  | (_, v) :: entries => nodes v ++ nodesOfEntries entries

end

mutual

/- How deep lists and maps are nested in a value. -/
def depth : Value → Nat
  | .list vs => depthOfItems vs + 1
  | .map entries => depthOfEntries entries + 1
  | _ => 0

/- The depth of the deepest item. -/
def depthOfItems : List Value → Nat
  | [] => 0
  | v :: vs => max (depth v) (depthOfItems vs)

/- The depth of the deepest value of an entry. -/
def depthOfEntries : List (String × Value) → Nat
  | [] => 0
  | (_, v) :: entries => max (depth v) (depthOfEntries entries)

end

/- A value is no number that is not finite. -/
def IsFinite : Value → Prop
  | .float x => x.isFinite = true
  | _ => True

------------------------------------------------------------
-- Trees
------------------------------------------------------------

mutual

/- The JSON tree that the text of a value reads as. -/
def tree : Value → Json.Tree
  | .null => .null
  | .bool b => .bool b
  | .integer n => .number (.ofInt n.toInt)
  | .float x => .number (.float x.reread)
  | .timestamp t => .text (.ofList (momentText t.utc))
  | .text s => .text s
  | .list vs => .list (trees vs)
  | .map entries => .object (treeMembers entries)

/- The trees of items. -/
def trees : List Value → List Json.Tree
  | [] => []
  | v :: vs => tree v :: trees vs

/- The members of the tree of a map. -/
def treeMembers : List (String × Value) → List (String × Json.Tree)
  | [] => []
  | (k, v) :: entries => (k, tree v) :: treeMembers entries

end

------------------------------------------------------------
-- Documents of Values
------------------------------------------------------------

/- The document that a value is encoded as. -/
def doc (v : Value) : Json.Doc :=
  v.toDatum.canonical.doc

def docItems (vs : List Value) : List Json.Doc :=
  Datum.docItems (Datum.canonicalItems (toDatums vs))

/- The members of the document of a map. -/
def docMembers
    (entries : List (String × Value)) :
    List (List Char × Json.Doc) :=
  Datum.docEntries (Datum.canonicalEntries (toPairs entries))

/- A written integer of 64 bits is a numeral. -/
theorem isNumeral_writeInt (n : Int64) :
    Json.IsNumeral (Digits.writeInt n.toInt) ∧
      Json.numberOf (Digits.writeInt n.toInt) =
        .ofInt n.toInt := by
  apply Json.isNumeral_of_readFront
  · exact Digits.exists_writeInt_eq_cons n.toInt
  · intro rest hEnds
    have hHigh : n.toInt < twoTo 64 :=
      (Int64.toInt_lt n).trans (by decide)
    exact Json.readFront_writeInt (Int64.le_toInt n) hHigh hEnds

section Scalars

variable (budget : Nat)

/- A scalar is read at any depth. -/
theorem within_number (numeral : List Char) :
    Json.Doc.within budget (.number numeral) =
      some (.number (Json.numberOf numeral)) := by
  cases budget <;> rfl

theorem within_text (cs : List Char) :
    Json.Doc.within budget (.text cs) =
      some (.text (.ofList cs)) := by
  cases budget <;> rfl

theorem within_null :
    Json.Doc.within budget .null = some .null := by
  cases budget <;> rfl

theorem within_bool (b : Bool) :
    Json.Doc.within budget (.bool b) = some (.bool b) := by
  cases budget <;> rfl

end Scalars

section Documents

theorem doc_null : doc .null = .null :=
  rfl

theorem doc_bool (b : Bool) : doc (.bool b) = .bool b :=
  rfl

/- An integer is written as its numeral. -/
theorem doc_integer (n : Int64) :
    doc (.integer n) = .number (Digits.writeInt n.toInt) :=
  rfl

/- A float is written with the digits of its layout. -/
theorem doc_float (x : Binary64) :
    doc (.float x) = .number (Layout.double.write x) :=
  rfl

theorem doc_text (s : String) : doc (.text s) = .text s.toList :=
  rfl

/- A timestamp is written as the text that spells it in UTC. -/
theorem doc_timestamp (t : Instant) :
    doc (.timestamp t) = .text (momentText t.utc) := by
  rw [doc, toDatum, Datum.canonical, Datum.doc,
    String.toList_ofList, momentText]

/- A list is written item by item. -/
theorem doc_list (vs : List Value) :
    doc (.list vs) = .list (docItems vs) :=
  rfl

/- A map is written as an object, since its keys are texts. -/
theorem doc_map (entries : List (String × Value)) :
    doc (.map entries) = .object (docMembers entries) :=
  rfl

theorem docItems_cons (v : Value) (vs : List Value) :
    docItems (v :: vs) = v.doc :: docItems vs :=
  rfl

theorem docMembers_cons
    (k : String)
    (v : Value)
    (entries : List (String × Value)) :
    docMembers ((k, v) :: entries) =
      (k.toList, v.doc) :: docMembers entries :=
  rfl

end Documents

mutual

/-
  The document of a value stands for its tree, unless it is too
  deep.  The induction follows the value; a list passes on what
  is left of the depth.
-/
theorem within_doc : ∀ (v : Value) (budget : Nat),
    (∀ w ∈ v.nodes, w.IsFinite) →
      v.doc.within budget =
        if v.depth ≤ budget then some v.tree else none
  | .null, budget, _ => within_null budget
  | .bool b, budget, _ => within_bool budget b
  | .integer n, budget, _ => by
      have hNumber := (isNumeral_writeInt n).2
      exact (within_number budget _).trans (by rw [hNumber]; rfl)
  | .float x, budget, hFinite => by
      have hNumber :=
        (Json.read_write (hFinite _ List.mem_cons_self)).2.2
      exact (within_number budget _).trans (by rw [hNumber]; rfl)
  | .timestamp t, budget, _ => by
      rw [doc_timestamp, within_text]
      rfl
  | .text s, budget, _ => by
      refine (within_text budget s.toList).trans ?_
      rw [String.ofList_toList]
      rfl
  | .list vs, 0, _ => rfl
  | .list vs, budget + 1, hFinite => by
      rw [nodes, List.forall_mem_cons] at hFinite
      rw [doc_list, Json.Doc.within,
        withinItems_docItems vs budget hFinite.2, depth, tree]
      simp only [Nat.add_le_add_iff_right]
      split_ifs <;> rfl
  | .map entries, 0, _ => rfl
  | .map entries, budget + 1, hFinite => by
      rw [nodes, List.forall_mem_cons] at hFinite
      rw [doc_map, Json.Doc.within,
        withinMembers_docMembers entries budget hFinite.2, depth,
        tree]
      simp only [Nat.add_le_add_iff_right]
      split_ifs <;> rfl

/- The same of items. -/
theorem withinItems_docItems : ∀ (vs : List Value) (budget : Nat),
    (∀ w ∈ nodesOfItems vs, w.IsFinite) →
      Json.Doc.withinItems budget (docItems vs) =
        if depthOfItems vs ≤ budget then some (trees vs) else none
  | [], _, _ => rfl
  | v :: vs, budget, hFinite => by
      rw [nodesOfItems, List.forall_mem_append] at hFinite
      rw [docItems_cons, Json.Doc.withinItems,
        within_doc v budget hFinite.1,
        withinItems_docItems vs budget hFinite.2, depthOfItems,
        trees]
      simp only [Nat.max_le]
      split_ifs <;> simp_all

/- The same of entries. -/
theorem withinMembers_docMembers :
    ∀ (entries : List (String × Value)) (budget : Nat),
      (∀ w ∈ nodesOfEntries entries, w.IsFinite) →
        Json.Doc.withinMembers budget (docMembers entries) =
          if depthOfEntries entries ≤ budget then
            some (treeMembers entries)
          else none
  | [], _, _ => rfl
  | (k, v) :: entries, budget, hFinite => by
      rw [nodesOfEntries, List.forall_mem_append] at hFinite
      rw [docMembers_cons, Json.Doc.withinMembers,
        within_doc v budget hFinite.1,
        withinMembers_docMembers entries budget hFinite.2,
        depthOfEntries, treeMembers, String.ofList_toList]
      simp only [Nat.max_le]
      split_ifs <;> simp_all

end

mutual

/- The numerals of the document of a value read as numbers. -/
theorem legible_doc : ∀ v : Value,
    (∀ w ∈ v.nodes, w.IsFinite) → v.doc.Legible
  | .null, _ => by
      intro numeral hMember
      cases hMember
  | .bool b, _ => by
      intro numeral hMember
      cases hMember
  | .integer n, _ => by
      intro numeral hMember
      rw [List.mem_singleton.mp hMember]
      exact (isNumeral_writeInt n).1
  | .float x, hFinite => by
      intro numeral hMember
      rw [List.mem_singleton.mp hMember]
      exact (Json.read_write (hFinite _ List.mem_cons_self)).2.1
  | .timestamp t, _ => by
      rw [doc_timestamp]
      intro numeral hMember
      cases hMember
  | .text s, _ => by
      intro numeral hMember
      cases hMember
  | .list vs, hFinite => by
      rw [nodes, List.forall_mem_cons] at hFinite
      exact legible_docItems vs hFinite.2
  | .map entries, hFinite => by
      rw [nodes, List.forall_mem_cons] at hFinite
      exact legible_docMembers entries hFinite.2

/- The same of items. -/
theorem legible_docItems : ∀ vs : List Value,
    (∀ w ∈ nodesOfItems vs, w.IsFinite) →
      ∀ numeral ∈ Json.Doc.numeralsOfItems (docItems vs),
        Json.IsNumeral numeral
  | [], _ => by
      intro numeral hMember
      cases hMember
  | v :: vs, hFinite => by
      rw [nodesOfItems, List.forall_mem_append] at hFinite
      rw [docItems_cons, Json.Doc.numeralsOfItems]
      exact List.forall_mem_append.mpr
        ⟨legible_doc v hFinite.1, legible_docItems vs hFinite.2⟩

/- The same of entries. -/
theorem legible_docMembers :
    ∀ entries : List (String × Value),
      (∀ w ∈ nodesOfEntries entries, w.IsFinite) →
        ∀ numeral ∈ Json.Doc.numeralsOfMembers (docMembers entries),
          Json.IsNumeral numeral
  | [], _ => by
      intro numeral hMember
      cases hMember
  | (k, v) :: entries, hFinite => by
      rw [nodesOfEntries, List.forall_mem_append] at hFinite
      rw [docMembers_cons, Json.Doc.numeralsOfMembers]
      exact List.forall_mem_append.mpr
        ⟨legible_doc v hFinite.1,
          legible_docMembers entries hFinite.2⟩

end

mutual

/- The encoder finds no fault exactly if all numbers are finite. -/
theorem firstFault?_visits_eq_none_iff : ∀ v : Value,
    Datum.firstFault? v.toDatum.visits = none ↔
      ∀ w ∈ v.nodes, w.IsFinite
  | .null => iff_of_true rfl (by simp [nodes, IsFinite])
  | .bool b => iff_of_true rfl (by simp [nodes, IsFinite])
  | .integer n => iff_of_true rfl (by simp [nodes, IsFinite])
  | .float x => by
      change Datum.firstFault? [.value (.double x)] = none ↔
        ∀ w ∈ [float x], w.IsFinite
      rw [Datum.firstFault?_leaf, List.forall_mem_singleton]
      exact numberFault?_eq_none_iff
  | .timestamp t => iff_of_true rfl (by simp [nodes, IsFinite])
  | .text s => iff_of_true rfl (by simp [nodes, IsFinite])
  | .list vs => by
      rw [toDatum, Datum.visits, Datum.firstFault?_parts rfl,
        firstFault?_visitsOfItems_eq_none_iff vs, nodes,
        List.forall_mem_cons]
      exact (and_iff_right trivial).symm
  | .map entries => by
      rw [toDatum, Datum.visits, Datum.firstFault?_parts rfl,
        firstFault?_visitsOfEntries_eq_none_iff entries, nodes,
        List.forall_mem_cons]
      exact (and_iff_right trivial).symm

/- The same of items. -/
theorem firstFault?_visitsOfItems_eq_none_iff :
    ∀ vs : List Value,
      Datum.firstFault? (Datum.visitsOfItems (toDatums vs)) =
          none ↔
        ∀ w ∈ nodesOfItems vs, w.IsFinite
  | [] => iff_of_true rfl (by simp [nodesOfItems])
  | v :: vs => by
      rw [toDatums, Datum.visitsOfItems, Datum.firstFault?_append,
        Option.or_eq_none_iff, firstFault?_visits_eq_none_iff v,
        firstFault?_visitsOfItems_eq_none_iff vs, nodesOfItems,
        List.forall_mem_append]

/- The same of entries, whose keys are always encoded. -/
theorem firstFault?_visitsOfEntries_eq_none_iff :
    ∀ entries : List (String × Value),
      Datum.firstFault?
          (Datum.visitsOfEntries (toPairs entries)) = none ↔
        ∀ w ∈ nodesOfEntries entries, w.IsFinite
  | [] => iff_of_true rfl (by simp [nodesOfEntries])
  | (k, v) :: entries => by
      rw [toPairs, Datum.visitsOfEntries, Datum.firstFault?_cons,
        Datum.firstFault?_append, nodesOfEntries,
        List.forall_mem_append,
        ← firstFault?_visits_eq_none_iff v,
        ← firstFault?_visitsOfEntries_eq_none_iff entries,
        ← Option.or_eq_none_iff]
      exact Iff.rfl

end

------------------------------------------------------------
-- Texts
------------------------------------------------------------

variable {v : Value}

/- A value with finite floats is encoded as its document. -/
theorem encode_toDatum (hFinite : ∀ w ∈ v.nodes, w.IsFinite) :
    encode v.toDatum = .ok (.ofList v.doc.write) :=
  encode_of_encodable
    (Datum.firstFault?_eq_none_iff.mp
      ((firstFault?_visits_eq_none_iff v).mpr hFinite))

/- A value is encoded exactly if its numbers are finite. -/
theorem encode_toDatum_eq_ok_iff {text : String} :
    encode v.toDatum = .ok text ↔
      (∀ w ∈ v.nodes, w.IsFinite) ∧
        text = .ofList v.doc.write := by
  constructor
  · intro hEncode
    have hFinite : ∀ w ∈ v.nodes, w.IsFinite := by
      rw [← firstFault?_visits_eq_none_iff]
      rw [encode_eq_outcome] at hEncode
      cases hFault : Datum.firstFault? v.toDatum.visits with
      | none => rfl
      | some fault =>
          rw [hFault] at hEncode
          cases hEncode
    rw [encode_toDatum hFinite, Except.ok.injEq] at hEncode
    exact ⟨hFinite, hEncode.symm⟩
  · rintro ⟨hFinite, rfl⟩
    exact encode_toDatum hFinite

/- What the whole text of a value reads as. -/
theorem outcome_readTree (hFinite : ∀ w ∈ v.nodes, w.IsFinite) :
    Json.Outcome []
      (if v.depth ≤ Json.deepest then some v.tree else none)
      (Json.readTree Json.deepest v.doc.write) := by
  have hReads := Json.Doc.readsTo_write v.doc Json.deepest
    (legible_doc v hFinite) [] Json.ends_nil
  rwa [List.append_nil, within_doc v Json.deepest hFinite]
    at hReads

/- The document reads as the tree of the value. -/
theorem readTree_write
    (hFinite : ∀ w ∈ v.nodes, w.IsFinite)
    (hDepth : v.depth ≤ Json.deepest) :
    Json.readTree Json.deepest v.doc.write = .ok (v.tree, []) := by
  have hRead := outcome_readTree hFinite
  rwa [if_pos hDepth] at hRead

end Factbase.Value
