import Factbase.Proofs.Data.Distinct

/-
  Equal values and their encodings.

  Values are equal if their leaves are, and leaves that are
  equal are the same but for zeros of opposite signs.  A zero is
  written with its sign, so equal values are encoded alike
  exactly if no zero in one of them faces a zero of the other
  sign.

  Key definitions include:
    * `Value.SameSigns`

  Main declarations:
    * `Value.eq_of_equals`
    * `Value.sameSigns_of_doc_eq`
    * `Value.encodings_eq_iff_of_equals`
-/

namespace Factbase

/- Equal numbers are the same, but for zeros of both signs. -/
theorem Binary.eq_of_equals
    {f : Format}
    {x y : Binary f}
    (hEquals : x.equals y = true)
    (hSigns : x.isZero = true → y.isZero = true →
      x.negative = y.negative) :
    x = y := by
  simp only [equals, Bool.and_eq_true, Bool.or_eq_true,
    decide_eq_true_eq] at hEquals
  rcases hEquals with ⟨_, ⟨hZero, hZero'⟩ | hSame⟩
  · have hSign := hSigns hZero hZero'
    rw [isZero, decide_eq_true_eq] at hZero hZero'
    cases x
    cases y
    rw [mk.injEq]
    exact ⟨hSign, hZero.trans hZero'.symm⟩
  · exact hSame

namespace Value

------------------------------------------------------------
-- Signs of Zeros
------------------------------------------------------------

mutual

/- No zero faces a zero of the other sign. -/
def SameSigns : Value → Value → Prop
  | .float x, .float y =>
      x.isZero = true → y.isZero = true → x.negative = y.negative
  | .list vs, .list ws => SameSignsItems vs ws
  | .map entries, .map others => SameSignsEntries entries others
  | _, _ => True

/- No zero in an item does. -/
def SameSignsItems : List Value → List Value → Prop
  | v :: vs, w :: ws => SameSigns v w ∧ SameSignsItems vs ws
  | _, _ => True

/- No zero in the value of an entry does. -/
def SameSignsEntries :
    List (String × Value) → List (String × Value) → Prop
  | (_, v) :: entries, (_, w) :: others =>
      SameSigns v w ∧ SameSignsEntries entries others
  | _, _ => True

end

------------------------------------------------------------
-- Equal Values
------------------------------------------------------------

mutual

/-
  Equal values are the same, if the signs of their zeros are.
  The induction follows the first value; only a value of its
  kind is equal to it.
-/
theorem eq_of_equals : ∀ v w : Value,
    v.equals w = true → v.SameSigns w → v = w
  | .null, w, hEquals, _ => by
      cases w with
      | null => rfl
      | _ => cases hEquals
  | .bool b, w, hEquals, _ => by
      cases w with
      | bool b' => simpa [equals] using hEquals
      | _ => cases hEquals
  | .integer n, w, hEquals, _ => by
      cases w with
      | integer n' => simpa [equals] using hEquals
      | _ => cases hEquals
  | .float x, w, hEquals, hSigns => by
      cases w with
      | float y =>
          rw [equals] at hEquals
          rw [SameSigns] at hSigns
          rw [Binary.eq_of_equals hEquals hSigns]
      | _ => cases hEquals
  | .timestamp t, w, hEquals, _ => by
      cases w with
      | timestamp u => simpa [equals] using hEquals
      | _ => cases hEquals
  | .text s, w, hEquals, _ => by
      cases w with
      | text s' => simpa [equals] using hEquals
      | _ => cases hEquals
  | .list vs, w, hEquals, hSigns => by
      cases w with
      | list ws => 
          rw [equals] at hEquals
          rw [SameSigns] at hSigns
          rw [eq_of_equalLists vs ws hEquals hSigns]
      | _ => cases hEquals
  | .map entries, w, hEquals, hSigns => by
      cases w with
      | map others =>
          rw [equals] at hEquals
          rw [SameSigns] at hSigns
          rw [eq_of_equalEntries entries others hEquals hSigns]
      | _ => cases hEquals

theorem eq_of_equalLists : ∀ vs ws : List Value,
    equalLists vs ws = true → SameSignsItems vs ws → vs = ws
  | [], [], _, _ => rfl
  | [], w :: ws, hEquals, _ => by cases hEquals
  | v :: vs, [], hEquals, _ => by cases hEquals
  | v :: vs, w :: ws, hEquals, hSigns => by
      rw [equalLists, Bool.and_eq_true] at hEquals
      rw [eq_of_equals v w hEquals.1 hSigns.1,
        eq_of_equalLists vs ws hEquals.2 hSigns.2]

theorem eq_of_equalEntries :
    ∀ entries others : List (String × Value),
      equalEntries entries others = true →
      SameSignsEntries entries others → entries = others
  | [], [], _, _ => rfl
  | [], e :: others, hEquals, _ => by cases hEquals
  | e :: entries, [], hEquals, _ => by cases hEquals
  | (j, v) :: entries, (k, w) :: others, hEquals, hSigns => by
      rw [equalEntries, Bool.and_eq_true, Bool.and_eq_true,
        decide_eq_true_eq] at hEquals
      rw [hEquals.1.1, eq_of_equals v w hEquals.1.2 hSigns.1,
        eq_of_equalEntries entries others hEquals.2 hSigns.2]

end

------------------------------------------------------------
-- Encodings of Equal Values
------------------------------------------------------------

mutual

/- In one document, zeros that face each other have one sign. -/
theorem sameSigns_of_doc_eq : ∀ v w : Value,
    (∀ u ∈ v.nodes, u.IsFinite) → (∀ u ∈ w.nodes, u.IsFinite) →
      v.doc = w.doc → v.SameSigns w
  | .float x, w, hFinite, hFinite', hDoc => by
      cases w with
      | float y =>
          intro _ _
          rw [Layout.write_inj_of_isFinite
            (hFinite _ List.mem_cons_self)
            (hFinite' _ List.mem_cons_self)
            (Json.Doc.number.inj hDoc)]
      | _ => trivial
  | .list vs, w, hFinite, hFinite', hDoc => by
      cases w with
      | list ws =>
          rw [nodes, List.forall_mem_cons] at hFinite hFinite'
          exact sameSignsItems_of_docItems_eq vs ws hFinite.2
            hFinite'.2 (Json.Doc.list.inj hDoc)
      | _ => trivial
  | .map entries, w, hFinite, hFinite', hDoc => by
      cases w with
      | map others =>
          rw [nodes, List.forall_mem_cons] at hFinite hFinite'
          exact sameSignsEntries_of_docMembers_eq entries others
            hFinite.2 hFinite'.2 (Json.Doc.object.inj hDoc)
      | _ => trivial
  | .null, _, _, _, _ => trivial
  | .bool _, _, _, _, _ => trivial
  | .integer _, _, _, _, _ => trivial
  | .timestamp _, _, _, _, _ => trivial
  | .text _, _, _, _, _ => trivial

theorem sameSignsItems_of_docItems_eq : ∀ vs ws : List Value,
    (∀ u ∈ nodesOfItems vs, u.IsFinite) →
    (∀ u ∈ nodesOfItems ws, u.IsFinite) →
      docItems vs = docItems ws → SameSignsItems vs ws
  | [], _, _, _, _ => trivial
  | _ :: _, [], _, _, _ => trivial
  | v :: vs, w :: ws, hFinite, hFinite', hDocs => by
      rw [nodesOfItems, List.forall_mem_append]
        at hFinite hFinite'
      rw [docItems_cons, docItems_cons, List.cons.injEq] at hDocs
      exact ⟨sameSigns_of_doc_eq v w hFinite.1 hFinite'.1
          hDocs.1,
        sameSignsItems_of_docItems_eq vs ws hFinite.2
          hFinite'.2 hDocs.2⟩

theorem sameSignsEntries_of_docMembers_eq :
    ∀ entries others : List (String × Value),
      (∀ u ∈ nodesOfEntries entries, u.IsFinite) →
      (∀ u ∈ nodesOfEntries others, u.IsFinite) →
        docMembers entries = docMembers others →
          SameSignsEntries entries others
  | [], _, _, _, _ => trivial
  | _ :: _, [], _, _, _ => trivial
  | (j, v) :: entries, (k, w) :: others, hFinite, hFinite',
      hDocs => by
      rw [nodesOfEntries, List.forall_mem_append]
        at hFinite hFinite'
      rw [docMembers_cons, docMembers_cons, List.cons.injEq,
        Prod.mk.injEq] at hDocs
      exact ⟨sameSigns_of_doc_eq v w hFinite.1 hFinite'.1
          hDocs.1.2,
        sameSignsEntries_of_docMembers_eq entries others
          hFinite.2 hFinite'.2 hDocs.2⟩

end

/- Equal values are encoded alike if their zeros have one sign. -/
theorem encodings_eq_iff_of_equals
    {v w : Value}
    (hEquals : v.equals w = true)
    {x y : String}
    (hEncode : encode v.toDatum = .ok x)
    (hEncode' : encode w.toDatum = .ok y) :
    x = y ↔ v.SameSigns w := by
  constructor
  · rintro rfl
    rcases encode_toDatum_eq_ok_iff.mp hEncode with
      ⟨hFinite, rfl⟩
    rcases encode_toDatum_eq_ok_iff.mp hEncode' with
      ⟨hFinite', hText⟩
    rw [String.ofList_inj] at hText
    exact sameSigns_of_doc_eq v w hFinite hFinite'
      (Json.Doc.write_inj (legible_doc v hFinite)
        (legible_doc w hFinite') hText)
  · intro hSigns
    rw [eq_of_equals v w hEquals hSigns, hEncode',
      Except.ok.injEq] at hEncode
    exact hEncode.symm

/- The two zeros are equal, but each is written with its sign. -/
theorem encodings_ne_of_opposite_zeros :
    let zero : Value := .float ⟨false, 0⟩
    let negative : Value := .float ⟨true, 0⟩
    zero.equals negative = true ∧
      ∃ x y, encode zero.toDatum = .ok x ∧
        encode negative.toDatum = .ok y ∧ x ≠ y := by
  intro zero negative
  have hEncode : encode zero.toDatum = .ok "0.0" := rfl
  have hEncode' : encode negative.toDatum = .ok "-0.0" := rfl
  exact ⟨rfl, _, _, hEncode, hEncode', by decide⟩

end Value

end Factbase
