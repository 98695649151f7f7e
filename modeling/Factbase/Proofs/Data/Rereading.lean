import Factbase.Proofs.Calendar.Offsets
import Factbase.Proofs.Data.Entries
import Factbase.Proofs.Data.Trees

/-
  What a value of any shape reads back as.

  The encoding has no mark of a type, so a text that reads as a
  timestamp comes back as one, and a float comes back as what
  its numeral reads as.  A timestamp comes back as the instant
  that a clock shows, which is another one only for a leap second
  in the middle of a minute.  All else comes back as it was.  A
  value that is nested deeper than the reader goes is written all
  the same, but not read.

  Key definitions include:
    * `Value.IsSupported`
    * `Value.reread`

  Main declarations:
    * `Value.ofTree_tree`
    * `Value.decode_encode`
    * `Value.decode_encode_midminute`
-/

namespace Factbase

namespace Value

------------------------------------------------------------
-- Values as Read
------------------------------------------------------------

/- A timestamp is supported, and the keys of a map ascend. -/
def IsSupported : Value → Prop
  | .timestamp t => t.Supported
  | .map entries => Entries.Sorted entries
  | _ => True

mutual

/-
  A value with its texts that read as timestamps made into
  these, its timestamps settled, and its floats made into what
  their numerals read as.
-/
def reread : Value → Value
  | .float x => .float x.reread
  | .timestamp t => .timestamp t.settled
  | .text s =>
      match Stamp.relaxed s.toList with
      | .ok z => .timestamp z.instant
      | .error _ => .text s
  | .list vs => .list (rereadItems vs)
  | .map entries => .map (rereadEntries entries)
  | v => v

/- Items as read. -/
def rereadItems : List Value → List Value
  | [] => []
  | v :: vs => reread v :: rereadItems vs

/- Entries as read, with their keys. -/
def rereadEntries : List (String × Value) → List (String × Value)
  | [] => []
  | (k, v) :: entries => (k, reread v) :: rereadEntries entries

end

/- An integer of 64 bits is read as itself. -/
theorem ofNumber_ofInt (n : Int64) :
    ofNumber (.ofInt n.toInt) = .integer n := by
  have hSelf := Int64.ofInt_toInt n
  have hHigh := Int64.toInt_lt n
  generalize n.toInt = i at hSelf hHigh
  subst hSelf
  cases i with
  | ofNat m =>
      have hBound : m < twoTo 63 := Int.ofNat_lt.mp hHigh
      rw [Json.Number.ofInt, ofNumber, if_pos hBound]
      rfl
  | negSucc m => rfl

/- A stored timestamp is read as the instant that it shows. -/
theorem ofText_momentText
    {t : Instant}
    (hSupported : t.Supported) :
    ofText (.ofList (momentText t.utc)) =
      .timestamp t.settled := by
  have hProper := Instant.proper_settled hSupported.1 hSupported.2
  rw [← Stamp.momentText_settled hSupported.2, ofText,
    String.toList_ofList, Stamp.relaxed_momentText hProper]
  rfl

theorem rereadEntries_eq_map (entries : List (String × Value)) :
    rereadEntries entries =
      entries.map fun e => (e.1, e.2.reread) := by
  induction entries with
  | nil => rfl
  | cons e entries ih => rw [rereadEntries, ih, List.map_cons]

theorem sorted_rereadEntries
    {entries : Entries Value}
    (hSorted : Entries.Sorted entries) :
    Entries.Sorted (rereadEntries entries) := by
  rw [rereadEntries_eq_map]
  exact List.pairwise_map.mpr hSorted

mutual

/-
  The tree of a value stands for the value as read.  The
  induction follows the value.
-/
theorem ofTree_tree : ∀ v : Value,
    (∀ w ∈ v.nodes, w.IsSupported) → ofTree v.tree = v.reread
  | .null, _ => rfl
  | .bool b, _ => rfl
  | .integer n, _ => ofNumber_ofInt n
  | .float x, _ => rfl
  | .timestamp t, hSupported => by
      rw [tree, ofTree,
        ofText_momentText (hSupported _ List.mem_cons_self)]
      rfl
  | .text s, _ => rfl
  | .list vs, hSupported => by
      rw [nodes, List.forall_mem_cons] at hSupported
      rw [tree, ofTree, ofTrees_trees vs hSupported.2, reread]
  | .map entries, hSupported => by
      rw [nodes, List.forall_mem_cons] at hSupported
      rw [tree, ofTree, ofMembers_treeMembers entries hSupported.2,
        Entries.ofList_of_sorted (sorted_rereadEntries hSupported.1),
        reread]

/- The same of items. -/
theorem ofTrees_trees : ∀ vs : List Value,
    (∀ w ∈ nodesOfItems vs, w.IsSupported) →
      ofTrees (trees vs) = rereadItems vs
  | [], _ => rfl
  | v :: vs, hSupported => by
      rw [nodesOfItems, List.forall_mem_append] at hSupported
      rw [trees, ofTrees, ofTree_tree v hSupported.1,
        ofTrees_trees vs hSupported.2, rereadItems]

/- The same of entries. -/
theorem ofMembers_treeMembers :
    ∀ entries : List (String × Value),
      (∀ w ∈ nodesOfEntries entries, w.IsSupported) →
        ofMembers (treeMembers entries) = rereadEntries entries
  | [], _ => rfl
  | (k, v) :: entries, hSupported => by
      rw [nodesOfEntries, List.forall_mem_append] at hSupported
      rw [treeMembers, ofMembers, ofTree_tree v hSupported.1,
        ofMembers_treeMembers entries hSupported.2, rereadEntries]

end

------------------------------------------------------------
-- Decoding
------------------------------------------------------------

variable {v : Value}

/- A text is decoded as the value of the tree that it reads as. -/
theorem decode_write_tree
    (hFinite : ∀ w ∈ v.nodes, w.IsFinite)
    (hDepth : v.depth ≤ Json.deepest) :
    decode .value (.ofList v.doc.write) = .ok (ofTree v.tree) := by
  have hValue : Shape.value.read Json.deepest v.doc.write =
      .ok (ofTree v.tree, []) := by
    change (Json.readTree Json.deepest v.doc.write).map _ = _
    rw [readTree_write hFinite hDepth]
    rfl
  rw [decode, String.toList_ofList, Json.readAll, hValue]
  rfl

/- A value that is not nested too deep reads back. -/
theorem decode_write_of_le
    (hFinite : ∀ w ∈ v.nodes, w.IsFinite)
    (hSupported : ∀ w ∈ v.nodes, w.IsSupported)
    (hDepth : v.depth ≤ Json.deepest) :
    decode .value (.ofList v.doc.write) = .ok v.reread := by
  rw [decode_write_tree hFinite hDepth, ofTree_tree v hSupported]

/- A value that is nested deeper is refused for its depth. -/
theorem decode_write_of_lt
    (hFinite : ∀ w ∈ v.nodes, w.IsFinite)
    (hDepth : Json.deepest < v.depth) :
    ∃ left, decode .value (.ofList v.doc.write) =
      .error (.decode
        (Json.Flaw.message v.doc.write ⟨.tooDeep, left⟩)) := by
  have hRead := outcome_readTree hFinite
  rw [if_neg (Nat.not_le.mpr hDepth)] at hRead
  rcases hRead with ⟨left, hTree⟩
  have hValue : Shape.value.read Json.deepest v.doc.write =
      .error ⟨.tooDeep, left⟩ := by
    change (Json.readTree Json.deepest v.doc.write).map _ = _
    rw [hTree]
    rfl
  refine ⟨left, ?_⟩
  rw [decode, String.toList_ofList, Json.readAll, hValue]
  rfl

end Value

/-
  A value with finite floats is encoded.  If it is nested no
  deeper than the reader goes, its text reads back as the value
  with only its floats and the texts that are timestamps changed,
  and its timestamps settled; else the reader fails for the
  depth.  A float comes back as the float that its numeral reads
  as.  A timestamp is settled as it is, unless its leap second is
  in the middle of a minute.
-/
theorem Value.decode_encode
    (v : Value)
    (hFinite : ∀ w ∈ v.nodes, w.IsFinite)
    (hSupported : ∀ w ∈ v.nodes, w.IsSupported) :
    ∃ text, encode v.toDatum = .ok text ∧
      (v.depth ≤ 127 → decode .value text = .ok v.reread) ∧
      (127 < v.depth → ∃ left, decode .value text =
        .error (.decode
          (Json.Flaw.message text.toList ⟨.tooDeep, left⟩))) ∧
      ∀ x, .float x ∈ v.nodes →
        Json.readNumber (Layout.double.write x) =
          .ok (.float x.reread, []) := by
  refine ⟨_, encode_toDatum hFinite,
    decode_write_of_le hFinite hSupported, ?_, ?_⟩
  · rw [String.toList_ofList]
    exact decode_write_of_lt hFinite
  · intro x hMember
    exact (Json.read_write (hFinite _ hMember)).1

/-
  A leap second in the middle of a minute comes back as the
  second that follows.
-/
theorem Value.decode_encode_midminute :
    let odd : Value := .timestamp ⟨1546516800, 1500000000⟩
    let shown : Value := .timestamp ⟨1546516801, 500000000⟩
    (∀ u ∈ odd.nodes, u.IsFinite) ∧
      (∀ u ∈ odd.nodes, u.IsSupported) ∧ odd.depth ≤ 127 ∧
      ∃ text, encode odd.toDatum = .ok text ∧
        decode .value text = .ok shown ∧ shown ≠ odd := by
  intro odd shown
  have hFinite : ∀ u ∈ odd.nodes, u.IsFinite := by
    simp [odd, nodes, IsFinite]
  have hSupported : ∀ u ∈ odd.nodes, u.IsSupported := by
    have hInstant : Instant.Supported ⟨1546516800, 1500000000⟩ := by
      decide
    simp [odd, nodes, IsSupported, hInstant]
  have hDepth : odd.depth ≤ Json.deepest := by decide
  have hReread : odd.reread = shown := rfl
  refine ⟨hFinite, hSupported, hDepth, _, encode_toDatum hFinite,
    ?_, by simp [odd, shown]⟩
  rw [decode_write_of_le hFinite hSupported hDepth, hReread]

/-
  Of two texts one is a timestamp; minus one stays a float
  beside the integer.
-/
theorem Value.decode_encode_nested :
    let leap : Instant := ⟨1483228799, 1500000000⟩
    let one : Binary64 := ⟨true, 0x3ff0000000000000⟩
    let v : Value := .map
      [("met", .list [.text "2017-01-01",
          .text "2017-01-01T00:00:00Z", .timestamp leap]),
        ("size", .list [.float one, .integer (-1), .null])]
    let w : Value := .map
      [("met", .list [.text "2017-01-01",
          .timestamp ⟨1483228800, 0⟩, .timestamp leap]),
        ("size", .list [.float one, .integer (-1), .null])]
    (∀ u ∈ v.nodes, u.IsFinite) ∧
      (∀ u ∈ v.nodes, u.IsSupported) ∧
      v.depth ≤ 127 ∧ v.reread = w ∧
      ∃ text, encode v.toDatum = .ok text ∧
        decode .value text = .ok w := by
  intro leap one v w
  have hFinite : ∀ u ∈ v.nodes, u.IsFinite := by
    have hOne : one.isFinite = true := by decide
    simp [v, nodes, nodesOfItems, nodesOfEntries, IsFinite, hOne]
  have hSupported : ∀ u ∈ v.nodes, u.IsSupported := by
    have hLeap : leap.Supported := by decide
    have hKeys : v.IsSupported :=
      List.pairwise_pair.mpr
        (show ("met" : String) < "size" by decide)
    change ∀ u ∈ v :: nodesOfEntries _, u.IsSupported
    apply List.forall_mem_cons.mpr ⟨hKeys, ?_⟩
    simp [nodes, nodesOfItems, nodesOfEntries, IsSupported, hLeap]
  have hDepth : v.depth ≤ 127 := by decide
  have hReread : v.reread = w := by
    have hDate : reread (.text "2017-01-01") =
        .text "2017-01-01" := rfl
    have hMidnight : reread (.text "2017-01-01T00:00:00Z") =
        .timestamp ⟨1483228800, 0⟩ := rfl
    have hOne : one.reread = one := by decide +kernel
    have hSettled : leap.settled = leap := rfl
    rw [reread, rereadEntries, rereadEntries, rereadEntries,
      reread, rereadItems, rereadItems, hDate, hMidnight]
    simp only [reread, rereadItems, hOne, hSettled, w]
  rcases decode_encode v hFinite hSupported with ⟨text, hText, hRead, _⟩
  refine ⟨hFinite, hSupported, hDepth, hReread, text, hText, ?_⟩
  rw [← hReread]
  exact hRead hDepth

end Factbase
