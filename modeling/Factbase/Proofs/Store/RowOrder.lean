import Factbase.Proofs.Text.ByteOrder

/-
  The order of rows, and what sorting by it gives.

  Comparison of cells and of rows is a total order, so a sorted
  list is fixed by its members.  On rows that store triples it
  is the order of the bytes of subject, predicate and value.

  Main declarations:
    * `mergeSort_eq_of_perm`
    * `Row.sort_filter`
    * `Triple.key`
    * `Triple.compare_row_eq_lt_iff`
-/

------------------------------------------------------------
-- Sorting by a Comparison
------------------------------------------------------------

namespace Factbase

section Sorting

variable {α : Type}
variable (cmp : α → α → Ordering) [Std.TransCmp cmp]

/- Sorting by a comparison gives an ascending list. -/
theorem pairwise_mergeSort_isLE (xs : List α) :
    (xs.mergeSort fun a b => (cmp a b).isLE).Pairwise
      fun a b => (cmp a b).isLE := by
  apply List.pairwise_mergeSort
  · intro a b c hFirst hSecond
    exact Std.TransCmp.isLE_trans hFirst hSecond
  · intro a b
    have hSwap : cmp b a = (cmp a b).swap :=
      Std.OrientedCmp.eq_swap
    cases hOrder : cmp a b <;> simp [hSwap, hOrder]

/-
  An ascending list is what sorting makes of each of its
  permutations, if no two of its members compare as equal.
-/
theorem mergeSort_eq_of_perm
    {xs ys : List α}
    (hDistinct :
      ∀ a ∈ ys, ∀ b ∈ ys, cmp a b = .eq → a = b)
    (hPerm : xs.Perm ys)
    (hSorted : ys.Pairwise fun a b => (cmp a b).isLE) :
    (xs.mergeSort fun a b => (cmp a b).isLE) = ys := by
  have hMerged : (xs.mergeSort
      fun a b => (cmp a b).isLE).Perm ys :=
    (List.mergeSort_perm xs _).trans hPerm
  apply List.Perm.eq_of_pairwise ?_
    (pairwise_mergeSort_isLE cmp xs) hSorted hMerged
  intro a b hLeft hRight hBefore hAfter
  exact hDistinct a (hMerged.subset hLeft) b hRight
    (Std.OrientedCmp.isLE_antisymm hBefore hAfter)

/-
  Going through a list with the least member so far in hand ends
  with a member that comes before all others.
-/
theorem foldl_least (x : α) (xs : List α) :
    let least := xs.foldl
      (fun a b => if cmp b a = .lt then b else a) x
    least ∈ x :: xs ∧
      ∀ y ∈ x :: xs, (cmp least y).isLE := by
  induction xs generalizing x with
  | nil =>
      simp only [List.foldl_nil, List.mem_singleton, true_and,
        forall_eq]
      have hSelf : cmp x x = .eq := Std.ReflCmp.compare_self
      rw [hSelf]
      rfl
  | cons z xs ih =>
      -- the member in hand after one step
      have hNearer : ∃ next,
          (if cmp z x = .lt then z else x) = next ∧
            (next = x ∨ next = z) ∧
            (cmp next x).isLE ∧ (cmp next z).isLE := by
        have hSwap : cmp x z = (cmp z x).swap :=
          Std.OrientedCmp.eq_swap
        cases hOrder : cmp z x with
        | lt =>
            refine ⟨z, rfl, Or.inr rfl, ?_, ?_⟩
            · simp [hOrder]
            · simp [Std.ReflCmp.compare_self]
        | eq | gt =>
            refine ⟨x, rfl, Or.inl rfl, ?_, ?_⟩
            · simp [Std.ReflCmp.compare_self]
            · rw [hSwap, hOrder]
              rfl
      rcases hNearer with
        ⟨next, hNext, hEither, hOld, hNew⟩
      rw [List.foldl_cons, hNext]
      rcases ih next with ⟨hMember, hLeast⟩
      have hHead := hLeast next (by simp)
      constructor
      · rcases List.mem_cons.mp hMember with hNone | hTail
        · rw [hNone]
          rcases hEither with rfl | rfl <;> simp
        · exact List.mem_cons_of_mem _
            (List.mem_cons_of_mem _ hTail)
      · intro y hy
        rcases List.mem_cons.mp hy with rfl | hy
        · exact Std.TransCmp.isLE_trans hHead hOld
        · rcases List.mem_cons.mp hy with rfl | hTail
          · exact Std.TransCmp.isLE_trans hHead hNew
          · exact hLeast y (List.mem_cons_of_mem _ hTail)

end Sorting

end Factbase

------------------------------------------------------------
-- Order of Cells and Rows
------------------------------------------------------------

namespace Factbase

/- Comparison by a part of the data is still transitive. -/
theorem transCmp_comap
    {α β : Type}
    (cmp : β → β → Ordering) [Std.TransCmp cmp]
    (part : α → β) :
    Std.TransCmp fun a b => cmp (part a) (part b) where
  eq_swap {a b} :=
    Std.OrientedCmp.eq_swap (a := part a) (b := part b)
  isLE_trans {_ b _} hFirst hSecond :=
    Std.TransCmp.isLE_trans (b := part b) hFirst hSecond

instance : Std.TransCmp Cell.compare where
  eq_swap {a b} := by
    cases a with
    | text s =>
        cases b with
        | text t => exact Std.OrientedOrd.eq_swap
        | blob ys => rfl
    | blob xs =>
        cases b with
        | text t => rfl
        | blob ys => exact Std.OrientedOrd.eq_swap
  isLE_trans {a b c} hFirst hSecond := by
    cases b with
    | text t =>
        cases a with
        | text s =>
            cases c with
            | text u => exact Std.TransOrd.isLE_trans hFirst hSecond
            | blob zs => rfl
        | blob xs => cases hFirst
    | blob ys =>
        cases c with
        | text u => cases hSecond
        | blob zs =>
            cases a with
            | text s => rfl
            | blob xs => exact Std.TransOrd.isLE_trans hFirst hSecond

instance : Std.LawfulEqCmp Cell.compare where
  compare_self {a} := by
    cases a with
    | text s => exact Std.ReflOrd.compare_self
    | blob xs => exact Std.ReflOrd.compare_self
  eq_of_compare {a b} hEqual := by
    cases a with
    | text s =>
        cases b with
        | text t =>
            rw [Std.LawfulEqOrd.eq_of_compare
              (a := s) (b := t) hEqual]
        | blob ys => cases hEqual
    | blob xs =>
        cases b with
        | text t => cases hEqual
        | blob ys =>
            rw [Std.LawfulEqOrd.eq_of_compare
              (a := xs) (b := ys) hEqual]

namespace Row

instance : Std.TransCmp Row.compare :=
  have := transCmp_comap Cell.compare Row.value
  inferInstanceAs (Std.TransCmp (compareLex (compareOn _)
    (compareLex (compareOn _) fun _ _ => _)))

instance : Std.LawfulEqCmp Row.compare where
  compare_self := Std.ReflCmp.compare_self
  eq_of_compare {r₁ r₂} hEqual := by
    rcases r₁ with ⟨s₁, p₁, v₁⟩
    rcases r₂ with ⟨s₂, p₂, v₂⟩
    simp only [Row.compare, compareLex_eq_eq, compareOn,
      Std.LawfulEqCmp.compare_eq_iff_eq] at hEqual
    rcases hEqual with ⟨rfl, rfl, rfl⟩
    rfl

------------------------------------------------------------
-- Sorted Rows
------------------------------------------------------------

theorem sort_perm (rows : List Row) :
    (sort rows).Perm rows :=
  List.mergeSort_perm rows _

@[simp] theorem mem_sort_iff {r : Row} {rows : List Row} :
    r ∈ sort rows ↔ r ∈ rows :=
  (sort_perm rows).mem_iff

theorem sort_pairwise (rows : List Row) :
    (sort rows).Pairwise fun a b => (a.compare b).isLE :=
  pairwise_mergeSort_isLE Row.compare rows

/- Rows in ascending order are their own sorting. -/
theorem sort_eq_of_perm
    {rows sorted : List Row}
    (hPerm : rows.Perm sorted)
    (hSorted : sorted.Pairwise fun a b => (a.compare b).isLE) :
    sort rows = sorted :=
  mergeSort_eq_of_perm Row.compare
    (fun _ _ _ _ hEqual =>
      Std.LawfulEqCmp.eq_of_compare hEqual)
    hPerm hSorted

/- Sorting commutes with the choice of rows. -/
theorem sort_filter
    (chosen : Row → Bool)
    (rows : List Row) :
    sort (rows.filter chosen) = (sort rows).filter chosen :=
  sort_eq_of_perm ((sort_perm rows).filter chosen).symm
    ((sort_pairwise rows).filter chosen)

/- Rows without repetition ascend strictly when sorted. -/
theorem sort_pairwise_lt
    {rows : List Row}
    (hNodup : rows.Nodup) :
    (sort rows).Pairwise fun a b => a.compare b = .lt := by
  have hDistinct : (sort rows).Nodup :=
    (sort_perm rows).nodup_iff.mpr hNodup
  apply (sort_pairwise rows).imp₂ ?_ hDistinct
  intro a b hBefore hNe
  rcases Ordering.isLE_iff_eq_lt_or_eq_eq.mp hBefore with
    hLess | hEqual
  · exact hLess
  · exact absurd (Std.LawfulEqCmp.eq_of_compare hEqual) hNe

end Row

end Factbase

------------------------------------------------------------
-- Rows of Triples
------------------------------------------------------------

namespace Factbase

namespace Triple

/- The bytes that triples are ordered by, part by part. -/
def key (t : Triple) : List (List UInt8) :=
  [utf8 t.subject, utf8 t.predicate, utf8 t.encoded]

@[simp] theorem row_inj {t u : Triple} :
    t.row = u.row ↔ t = u := by
  rcases t with ⟨s₁, p₁, v₁⟩
  rcases u with ⟨s₂, p₂, v₂⟩
  simp [Triple.row]

/- The order of rows is that of the bytes of their triples. -/
theorem compare_row_eq_lt_iff {t u : Triple} :
    t.row.compare u.row = .lt ↔ t.key < u.key := by
  simp only [Row.compare, compareLex, compareOn, Triple.row,
    Cell.compare, Ordering.then_eq_lt,
    compare_eq_lt_iff_utf8_lt, Std.LawfulEqOrd.compare_eq_iff_eq,
    Triple.key, List.cons_lt_cons_iff, utf8_inj]
  simp

end Triple

end Factbase

