import Factbase.Proofs.Calendar.Offsets
import Factbase.Proofs.Data.Rereading

/-
  Values that are written again as they were.

  What a text without floats reads as is encoded as the text
  again, if no string in it is taken for a timestamp and it is
  nested no deeper than the reader goes.  A timestamp need not
  come back as it was, since a leap second in the middle of a
  minute is shown as the next second; but it is shown alike.

  Key definitions include:
    * `Value.IsPlain`
    * `Value.Restorable`

  Main declarations:
    * `Value.doc_ofTree_tree`
    * `Value.Restorable.exists_restored`
-/

namespace Factbase

namespace Value

------------------------------------------------------------
-- Plain Values
------------------------------------------------------------

/-
  A value is no float and no text that is read as a timestamp.
  A timestamp has a supported date and less than two seconds of
  nanoseconds, and the keys of a map ascend.
-/
def IsPlain : Value → Prop
  | .float _ => False
  | .timestamp t => t.Representable ∧ t.nanos < 2000000000
  | .text s => ∃ fault, Stamp.relaxed s.toList = .error fault
  | .map entries => Entries.Sorted entries
  | _ => True

/- All values in a value are plain, and the reader reaches them. -/
structure Restorable (v : Value) : Prop where
  plain : ∀ w ∈ v.nodes, w.IsPlain
  shallow : v.depth ≤ Json.deepest

theorem IsPlain.isFinite
    {v : Value}
    (hPlain : v.IsPlain) : v.IsFinite := by
  cases v with
  | float x => exact False.elim hPlain
  | _ => trivial

------------------------------------------------------------
-- Restored Values
------------------------------------------------------------

theorem keys_ofMembers (entries : List (String × Value)) :
    (ofMembers (treeMembers entries)).map Prod.fst =
      entries.map Prod.fst := by
  induction entries with
  | nil => rfl
  | cons e entries ih =>
      rw [treeMembers, ofMembers, List.map_cons, ih,
        List.map_cons]

/- Members that are read keep the order of the keys. -/
theorem sorted_ofMembers
    {entries : List (String × Value)}
    (hSorted : Entries.Sorted entries) :
    Entries.Sorted (ofMembers (treeMembers entries)) :=
  hSorted.of_keys_eq (keys_ofMembers entries)

mutual

/-
  The value of the tree of a plain value has the document of
  that value, and no numbers that cannot be written.  The
  induction follows the value.
-/
theorem doc_ofTree_tree : ∀ v : Value,
    (∀ w ∈ v.nodes, w.IsPlain) →
      (ofTree v.tree).doc = v.doc ∧
        ∀ w ∈ (ofTree v.tree).nodes, w.IsFinite
  | .null, _ => ⟨rfl, by simp [tree, ofTree, nodes, IsFinite]⟩
  | .bool b, _ => ⟨rfl, by simp [tree, ofTree, nodes, IsFinite]⟩
  | .integer n, _ => by
      rw [tree, ofTree, ofNumber_ofInt]
      exact ⟨rfl, by simp [nodes, IsFinite]⟩
  | .float x, hPlain =>
      False.elim (hPlain _ List.mem_cons_self)
  | .timestamp t, hPlain => by
      have hTime := hPlain _ List.mem_cons_self
      rw [tree, ofTree, ofText_momentText hTime, doc_timestamp,
        doc_timestamp, Stamp.momentText_settled hTime.2]
      exact ⟨rfl, by simp [nodes, IsFinite]⟩
  | .text s, hPlain => by
      rcases hPlain _ List.mem_cons_self with ⟨fault, hFault⟩
      rw [tree, ofTree, ofText, hFault]
      exact ⟨rfl, by simp [nodes, IsFinite]⟩
  | .list vs, hPlain => by
      rw [nodes, List.forall_mem_cons] at hPlain
      rcases docItems_ofTrees_trees vs hPlain.2
        with ⟨hDocs, hFinite⟩
      rw [tree, ofTree, doc_list, doc_list, hDocs, nodes,
        List.forall_mem_cons]
      exact ⟨rfl, trivial, hFinite⟩
  | .map entries, hPlain => by
      rw [nodes, List.forall_mem_cons] at hPlain
      rcases docMembers_ofMembers_treeMembers entries hPlain.2
        with ⟨hDocs, hFinite⟩
      rw [tree, ofTree, Entries.ofList_of_sorted
        (sorted_ofMembers hPlain.1), doc_map, doc_map, hDocs,
        nodes, List.forall_mem_cons]
      exact ⟨rfl, trivial, hFinite⟩

theorem docItems_ofTrees_trees : ∀ vs : List Value,
    (∀ w ∈ nodesOfItems vs, w.IsPlain) →
      docItems (ofTrees (trees vs)) = docItems vs ∧
        ∀ w ∈ nodesOfItems (ofTrees (trees vs)), w.IsFinite
  | [], _ => ⟨rfl, by simp [trees, ofTrees, nodesOfItems]⟩
  | v :: vs, hPlain => by
      rw [nodesOfItems, List.forall_mem_append] at hPlain
      rcases doc_ofTree_tree v hPlain.1 with ⟨hDoc, hFinite⟩
      rcases docItems_ofTrees_trees vs hPlain.2
        with ⟨hDocs, hFinites⟩
      rw [trees, ofTrees, docItems_cons, docItems_cons, hDoc,
        hDocs, nodesOfItems, List.forall_mem_append]
      exact ⟨rfl, hFinite, hFinites⟩

theorem docMembers_ofMembers_treeMembers :
    ∀ entries : List (String × Value),
      (∀ w ∈ nodesOfEntries entries, w.IsPlain) →
        docMembers (ofMembers (treeMembers entries)) =
            docMembers entries ∧
          ∀ w ∈ nodesOfEntries (ofMembers (treeMembers entries)),
            w.IsFinite
  | [], _ => ⟨rfl, by simp [treeMembers, ofMembers, nodesOfEntries]⟩
  | (k, v) :: entries, hPlain => by
      rw [nodesOfEntries, List.forall_mem_append] at hPlain
      rcases doc_ofTree_tree v hPlain.1 with ⟨hDoc, hFinite⟩
      rcases docMembers_ofMembers_treeMembers entries hPlain.2
        with ⟨hDocs, hFinites⟩
      rw [treeMembers, ofMembers, docMembers_cons,
        docMembers_cons, hDoc, hDocs, nodesOfEntries,
        List.forall_mem_append]
      exact ⟨rfl, hFinite, hFinites⟩

end

/- What a restorable value reads as is written as it was. -/
theorem Restorable.exists_restored
    {v : Value}
    {text : String}
    (hRestorable : v.Restorable)
    (hEncode : encode v.toDatum = .ok text) :
    ∃ w, decode .value text = .ok w ∧
      encode w.toDatum = .ok text := by
  have hFinite : ∀ w ∈ v.nodes, w.IsFinite :=
    fun w hNode => (hRestorable.plain w hNode).isFinite
  rcases doc_ofTree_tree v hRestorable.plain with ⟨hDoc, hNumbers⟩
  rw [encode_toDatum hFinite, Except.ok.injEq] at hEncode
  refine ⟨ofTree v.tree, ?_, ?_⟩
  · rw [← hEncode]
    exact decode_write_tree hFinite hRestorable.shallow
  · rw [encode_toDatum hNumbers, hDoc, hEncode]

end Value

end Factbase
