import Factbase.Proofs.Query.Meaning
import Factbase.Proofs.Store.RowOrder
import Mathlib.Data.List.Nodup
import Mathlib.Data.List.Perm.Basic

/-
  Rankings of subjects, and the order of the rows joined with
  them.

  A subject is ranked by the nearest of its cells.  The rows of
  ranked subjects are sorted by key first and by row then; since
  keys that are equal fall back on the subject, this keeps the
  subjects in the order of their ranking, each with its rows.

  Main declarations:
    * `Direction.exists_nearest?`
    * `Ranking.compare_place_iff`
    * `Ranking.sort_join`
-/

namespace Factbase

------------------------------------------------------------
-- Directions
------------------------------------------------------------

namespace Direction

variable {d : Direction}

instance (d : Direction) : Std.TransCmp d.compare :=
  match d with
  | .ascending => inferInstanceAs (Std.TransCmp Cell.compare)
  | .descending =>
      inferInstanceAs (Std.TransCmp fun a b => Cell.compare b a)

instance (d : Direction) : Std.LawfulEqCmp d.compare where
  compare_self := Std.ReflCmp.compare_self
  eq_of_compare {a b} hEqual := by
    cases d with
    | ascending =>
        have hCells : Cell.compare a b = .eq := hEqual
        exact Std.LawfulEqCmp.eq_of_compare hCells
    | descending =>
        have hCells : Cell.compare b a = .eq := hEqual
        exact (Std.LawfulEqCmp.eq_of_compare hCells).symm

theorem compare_text_iff {v w : String} :
    d.compare (.text v) (.text w) = .lt ↔ d.Before v w := by
  cases d <;> exact compare_eq_lt_iff_utf8_lt

/- Of some cells, the nearest one comes before all others. -/
theorem exists_nearest?
    {cells : List Cell}
    (hCells : cells ≠ []) :
    ∃ nearest, d.nearest? cells = some nearest ∧
      nearest ∈ cells ∧
        ∀ c ∈ cells, (d.compare nearest c).isLE := by
  cases cells with
  | nil => exact absurd rfl hCells
  | cons c cs => exact ⟨_, rfl, foldl_least d.compare c cs⟩

end Direction

------------------------------------------------------------
-- Order of Ranked Subjects
------------------------------------------------------------

/- A subject with its key, as a place in a ranking. -/
def place (a : String × String) : Ranked :=
  ⟨a.1, .text a.2⟩

namespace Ranking

variable {k : Ranking}

instance (k : Ranking) : Std.TransCmp k.compare :=
  have := transCmp_comap k.direction.compare Ranked.key
  inferInstanceAs (Std.TransCmp (compareLex
    (fun _ _ => _) (compareOn _)))

/- The order of the rows that are joined with a ranking. -/
def compareJoined (k : Ranking) :
    Ranked × Row → Ranked × Row → Ordering :=
  compareLex
    (fun a b => k.direction.compare a.1.key b.1.key)
    (fun a b => a.2.compare b.2)

instance (k : Ranking) : Std.TransCmp k.compareJoined :=
  have := transCmp_comap k.direction.compare
    fun a : Ranked × Row => a.1.key
  have := transCmp_comap Row.compare
    fun a : Ranked × Row => a.2
  inferInstanceAs (Std.TransCmp (compareLex
    (fun _ _ => _) (fun _ _ => _)))

theorem compare_place_iff {scan : Scan} {a b : String × String}
    (hDirection : k.direction = scan.direction) :
    k.compare (place a) (place b) = .lt ↔ scan.Precedes a b := by
  simp [Ranking.compare, compareLex, Ordering.then_eq_lt,
    compareOn, place, Direction.compare_text_iff, hDirection,
    Scan.Precedes, compare_eq_lt_iff_utf8_lt]

theorem subject_eq_of_compare {a b : Ranked}
    (hEqual : k.compare a b = .eq) :
    a.subject = b.subject := by
  simp only [Ranking.compare, compareLex_eq_eq, compareOn,
    Std.LawfulEqCmp.compare_eq_iff_eq] at hEqual
  exact hEqual.2

/-
  Of two ranked subjects, the rows of the first come before
  those of the second.
-/
theorem compareJoined_lt
    {a b : Ranked}
    {r r' : Row}
    (hOrder : k.compare a b = .lt)
    (hFirst : r.subject = a.subject)
    (hSecond : r'.subject = b.subject) :
    (k.compareJoined (a, r) (b, r')).isLE := by
  simp only [Ranking.compare, compareLex, Ordering.then_eq_lt,
    compareOn] at hOrder
  simp only [compareJoined, compareLex,
    Ordering.isLE_then_iff_or]
  rcases hOrder with hKey | ⟨hKey, hSubject⟩
  · exact Or.inl hKey
  · refine Or.inr ⟨hKey, ?_⟩
    rw [Row.compare, compareLex, compareOn, hFirst, hSecond,
      hSubject]
    rfl

/- The sorted rows of a ranked subject, joined with it. -/
def joinedWith
    (rows : List Row)
    (a : Ranked) : List (Ranked × Row) :=
  (Row.sort (rows.filter (·.subject = a.subject))).map
    fun r => (a, r)

theorem subject_of_mem_joinedWith
    {rows : List Row}
    {a : Ranked}
    {x : Ranked × Row}
    (hMember : x ∈ joinedWith rows a) :
    x.1 = a ∧ x.2.subject = a.subject := by
  rcases List.mem_map.mp hMember with ⟨r, hRow, rfl⟩
  rw [Row.mem_sort_iff, List.mem_filter] at hRow
  exact ⟨rfl, by simpa using hRow.2⟩

/-
  Joined rows that compare as equal are the same, as no subject
  is ranked twice.
-/
theorem eq_of_compareJoined
    {ranked : List Ranked}
    (hSubjects : (ranked.map Ranked.subject).Nodup)
    {rows : List Row}
    {x y : Ranked × Row}
    (hx : x ∈ ranked.flatMap (joinedWith rows))
    (hy : y ∈ ranked.flatMap (joinedWith rows))
    (hEqual : k.compareJoined x y = .eq) :
    x = y := by
  rcases List.mem_flatMap.mp hx with ⟨a, hRankedA, hMemberA⟩
  rcases List.mem_flatMap.mp hy with ⟨b, hRankedB, hMemberB⟩
  rcases subject_of_mem_joinedWith hMemberA with
    ⟨hFirstA, hSubjectA⟩
  rcases subject_of_mem_joinedWith hMemberB with
    ⟨hFirstB, hSubjectB⟩
  rw [compareJoined, compareLex_eq_eq] at hEqual
  have hRows : x.2 = y.2 :=
    Std.LawfulEqCmp.eq_of_compare hEqual.2
  have hSame : a = b := by
    apply List.inj_on_of_nodup_map hSubjects hRankedA hRankedB
    rw [← hSubjectA, ← hSubjectB, hRows]
  exact Prod.ext (by rw [hFirstA, hFirstB, hSame]) hRows

/-
  Sorting the joined rows gives the subjects in the order of
  their ranking, and the sorted rows of each.
-/
theorem sort_join
    {ranked : List Ranked}
    (hOrder : ranked.Pairwise fun a b => k.compare a b = .lt)
    (hSubjects : (ranked.map Ranked.subject).Nodup)
    (rows : List Row) :
    ((Ranked.join ranked rows).mergeSort
        fun a b => (k.compareJoined a b).isLE).map Prod.snd =
      ranked.flatMap fun a =>
        Row.sort (rows.filter (·.subject = a.subject)) := by
  have hSorted :
      ((Ranked.join ranked rows).mergeSort
        fun a b => (k.compareJoined a b).isLE) =
      ranked.flatMap (joinedWith rows) := by
    -- the right side is a permutation that already ascends
    apply mergeSort_eq_of_perm
    · exact fun x hx y hy => eq_of_compareJoined hSubjects hx hy
    · apply List.Perm.flatMap_left
      intro a _
      exact ((Row.sort_perm _).map _).symm
    · rw [List.pairwise_flatMap]
      constructor
      · intro a _
        rw [joinedWith, List.pairwise_map]
        apply (Row.sort_pairwise _).imp
        intro r r' hRows
        have hKey :
            k.direction.compare a.key a.key = .eq :=
          Std.ReflCmp.compare_self
        rw [compareJoined, compareLex, hKey]
        exact hRows
      · apply hOrder.imp
        rintro a b hLess ⟨a', r⟩ hx ⟨b', r'⟩ hy
        rcases subject_of_mem_joinedWith hx with ⟨rfl, hFirst⟩
        rcases subject_of_mem_joinedWith hy with ⟨rfl, hSecond⟩
        exact compareJoined_lt hLess hFirst hSecond
  rw [hSorted, List.map_flatMap]
  simp [joinedWith, Function.comp_def]

end Ranking

end Factbase
