import Factbase.Proofs.Json.Document
import Factbase.Proofs.Json.Sequences

/-
  What the compact text of a document reads as.

  A document reads as the tree of its numbers and strings, in
  their order.  If it is nested deeper than the reader goes, it
  fails for that and for nothing else.

  Key definitions include:
    * `Json.IsNumeral`
    * `Json.Doc.within`
    * `Json.Doc.Legible`

  Main declarations:
    * `Json.Doc.readsTo_write`
-/

namespace Factbase.Json

------------------------------------------------------------
-- Numerals
------------------------------------------------------------

/- The number that a numeral reads as, zero if it is none. -/
def numberOf (numeral : List Char) : Number :=
  match readFront numeral with
  | .ok (.number n, _) => n
  | _ => .natural 0

/-
  A text that starts as numbers do and reads as one, whatever
  follows it.
-/
def IsNumeral (numeral : List Char) : Prop :=
  (∃ c cs, numeral = c :: cs ∧ (c = '-' ∨ c.isDigit = true)) ∧
    ∀ rest, Ends rest →
      readFront (numeral ++ rest) =
        .ok (.number (numberOf numeral), rest)

/- The number of a numeral is the one that is read. -/
theorem isNumeral_of_readFront
    {numeral : List Char}
    {n : Number}
    (hStart : ∃ c cs, numeral = c :: cs ∧
      (c = '-' ∨ c.isDigit = true))
    (hRead : ∀ rest, Ends rest →
      readFront (numeral ++ rest) = .ok (.number n, rest)) :
    IsNumeral numeral ∧ numberOf numeral = n := by
  have hAlone := hRead [] ends_nil
  rw [List.append_nil] at hAlone
  have hNumber : numberOf numeral = n := by
    rw [numberOf, hAlone]
  rw [IsNumeral, hNumber]
  exact ⟨⟨hStart, hRead⟩, rfl⟩

namespace Doc

------------------------------------------------------------
-- Trees of Documents
------------------------------------------------------------

mutual

/- The tree of a document, unless it is nested too deep. -/
def within : Nat → Doc → Option Tree
  | _, .null => some .null
  | _, .bool b => some (.bool b)
  | _, .number numeral => some (.number (numberOf numeral))
  | _, .text cs => some (.text (.ofList cs))
  | 0, .list _ => none
  | budget + 1, .list ds => (withinItems budget ds).map .list
  | 0, .object _ => none
  | budget + 1, .object ms => (withinMembers budget ms).map .object

/- The trees of items. -/
def withinItems : Nat → List Doc → Option (List Tree)
  | _, [] => some []
  | budget, d :: ds => do
      let t ← within budget d
      let ts ← withinItems budget ds
      some (t :: ts)

/- The keys and trees of members. -/
def withinMembers :
    Nat → List (List Char × Doc) → Option (List (String × Tree))
  | _, [] => some []
  | budget, (k, d) :: ms => do
      let t ← within budget d
      let ts ← withinMembers budget ms
      some ((.ofList k, t) :: ts)

end

mutual

/- The numerals of a document. -/
def numerals : Doc → List (List Char)
  | .number numeral => [numeral]
  | .list ds => numeralsOfItems ds
  | .object ms => numeralsOfMembers ms
  | _ => []

def numeralsOfItems : List Doc → List (List Char)
  | [] => []
  | d :: ds => numerals d ++ numeralsOfItems ds

def numeralsOfMembers : List (List Char × Doc) → List (List Char)
  | [] => []
  | (_, d) :: ms => numerals d ++ numeralsOfMembers ms

end

/- Every numeral of a document is one. -/
def Legible (d : Doc) : Prop :=
  ∀ numeral ∈ d.numerals, IsNumeral numeral

------------------------------------------------------------
-- Reading
------------------------------------------------------------

theorem opens_null : Opens "null".toList :=
  ⟨'n', _, rfl, by decide, by decide⟩

/- The words of truth values open, too. -/
theorem opens_bool (b : Bool) : Opens (boolText b) := by
  cases b with
  | false => exact ⟨'f', _, rfl, by decide, by decide⟩
  | true => exact ⟨'t', _, rfl, by decide, by decide⟩

theorem opens_quoted (cs : List Char) : Opens (quoted cs) :=
  ⟨'"', _, rfl, by decide, by decide⟩

theorem opens_bracketed (parts : List (List Char)) :
    Opens (bracketed parts) :=
  ⟨'[', _, rfl, by decide, by decide⟩

theorem opens_braced (parts : List (List Char)) :
    Opens (braced parts) :=
  ⟨'{', _, rfl, by decide, by decide⟩

/- The text of a document opens as an item of a list does. -/
theorem opens_write {d : Doc} (hLegible : d.Legible) :
    Opens d.write := by
  cases d with
  | null => exact opens_null
  | bool b => exact opens_bool b
  | number numeral =>
      rcases (hLegible numeral (List.mem_singleton_self _)).1
        with ⟨c, cs, rfl, hMark⟩
      exact opens_of_numeral hMark
  | text cs => exact opens_quoted cs
  | list ds => exact opens_bracketed _
  | object ms => exact opens_braced _

/- Items fit within a budget one by one. -/
theorem withinItems_eq (budget : Nat) (ds : List Doc) :
    withinItems budget ds = ds.mapM (within budget) := by
  induction ds with
  | nil => rfl
  | cons d ds ih =>
      rw [withinItems, ih, List.mapM_cons]
      rfl

/- The parts of the text of an object. -/
def partsOf
    (budget : Nat)
    (ms : List (List Char × Doc)) : List (Part Tree) :=
  ms.map fun m => ⟨m.1, m.2.write, m.2.within budget⟩

/- Members are written as the parts of an object. -/
theorem writeMembers_eq
    (budget : Nat)
    (ms : List (List Char × Doc)) :
    writeMembers ms = (partsOf budget ms).map Part.written := by
  induction ms with
  | nil => rfl
  | cons m ms ih =>
      rw [writeMembers, ih]
      rfl

/- Members fit within a budget as the parts do. -/
theorem withinMembers_eq
    (budget : Nat)
    (ms : List (List Char × Doc)) :
    withinMembers budget ms =
      (partsOf budget ms).mapM Part.entry? := by
  induction ms with
  | nil => rfl
  | cons m ms ih =>
      rw [partsOf, List.map_cons, List.mapM_cons, Part.entry?,
        ← partsOf, ← ih, withinMembers]
      simp only [Option.bind_eq_bind, Option.bind_map]
      rfl

section Fronts

variable (rest : List Char)

theorem readFront_null :
    readFront ("null".toList ++ rest) = .ok (.null, rest) :=
  rfl

/- A truth value is told by its word. -/
theorem readFront_bool (b : Bool) :
    readFront (boolText b ++ rest) = .ok (.bool b, rest) := by
  cases b <;> rfl

/- A string is told by its quote, and is then read whole. -/
theorem readFront_quoted (cs : List Char) :
    readFront (quoted cs ++ rest) =
      .ok (.text (.ofList cs), rest) := by
  rw [quoted_append, readFront, skipBlank_cons (by decide)]
  change (readChars (cs.flatMap escape ++ '"' :: rest)).map _ = _
  rw [readChars_escaped]
  rfl

/- A list is told by its bracket, before its items are read. -/
theorem readFront_bracketed (parts : List (List Char)) :
    readFront (bracketed parts ++ rest) =
      .ok (.list, commaSeparated parts ++ ']' :: rest) := by
  simp only [bracketed, List.append_assoc, List.cons_append]
  rfl

/- An object is told by its brace, before its members are. -/
theorem readFront_braced (parts : List (List Char)) :
    readFront (braced parts ++ rest) =
      .ok (.object, commaSeparated parts ++ '}' :: rest) := by
  simp only [braced, List.append_assoc, List.cons_append]
  rfl

end Fronts

mutual

/-
  The text of a document reads as its tree, or fails for its
  depth.  The induction follows the document; a list passes on
  what is left of the depth.
-/
theorem readsTo_write : ∀ (d : Doc) (budget : Nat), d.Legible →
    ReadsTo (readTree budget) d.write (d.within budget)
  | .null, budget, _ => by
      intro rest hEnds
      rw [write, within, readTree, readFront_null]
      exact rfl
  | .bool b, budget, _ => by
      intro rest hEnds
      rw [write, within, readTree, readFront_bool]
      exact rfl
  | .number numeral, budget, hLegible => by
      intro rest hEnds
      have hRead := (hLegible numeral
        (List.mem_singleton_self _)).2 rest hEnds
      rw [write, within, readTree, hRead]
      exact rfl
  | .text cs, budget, _ => by
      intro rest hEnds
      rw [write, within, readTree, readFront_quoted]
      exact rfl
  | .list ds, 0, _ => by
      intro rest hEnds
      rw [write, within, readTree, readFront_bracketed]
      exact ⟨_, rfl⟩
  | .list ds, budget + 1, hLegible => by
      intro rest hEnds
      have hItems := readsTo_items ds budget hLegible
      have hParts := items_parts
        (ds.map fun d => (d.write, d.within budget))
        (List.forall_mem_map.mpr fun d hMember =>
          opens_write (hItems d hMember).1)
        (List.forall_mem_map.mpr fun d hMember =>
          (hItems d hMember).2) rest
      simp only [List.map_map, List.mapM_map,
        Function.comp_def] at hParts
      rw [write, within, withinItems_eq, writeItems_eq_map,
        readTree, readFront_bracketed, Option.map_eq_bind]
      exact hParts.bind fun ts => rfl
  | .object ms, 0, _ => by
      intro rest hEnds
      rw [write, within, readTree, readFront_braced]
      exact ⟨_, rfl⟩
  | .object ms, budget + 1, hLegible => by
      intro rest hEnds
      have hParts := members_parts (partsOf budget ms)
        (List.forall_mem_map.mpr
          (readsTo_members ms budget hLegible)) rest
      rw [write, within, withinMembers_eq,
        writeMembers_eq budget, readTree, readFront_braced,
        Option.map_eq_bind]
      exact hParts.bind fun entries => rfl

/- The same of items, which have the budget that is left. -/
theorem readsTo_items : ∀ (ds : List Doc) (budget : Nat),
    (∀ numeral ∈ numeralsOfItems ds, IsNumeral numeral) →
      ∀ d ∈ ds, d.Legible ∧
        ReadsTo (readTree budget) d.write (d.within budget)
  | [], _, _ => by simp
  | d :: ds, budget, hLegible => by
      rw [numeralsOfItems, List.forall_mem_append] at hLegible
      exact List.forall_mem_cons.mpr
        ⟨⟨hLegible.1, readsTo_write d budget hLegible.1⟩,
          readsTo_items ds budget hLegible.2⟩

/- The same of members. -/
theorem readsTo_members :
    ∀ (ms : List (List Char × Doc)) (budget : Nat),
      (∀ numeral ∈ numeralsOfMembers ms, IsNumeral numeral) →
        ∀ m ∈ ms,
          ReadsTo (readTree budget) m.2.write (m.2.within budget)
  | [], _, _ => by simp
  | (k, d) :: ms, budget, hLegible => by
      rw [numeralsOfMembers, List.forall_mem_append] at hLegible
      exact List.forall_mem_cons.mpr
        ⟨readsTo_write d budget hLegible.1,
          readsTo_members ms budget hLegible.2⟩

end

end Doc

end Factbase.Json
