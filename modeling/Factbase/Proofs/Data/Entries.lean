import Factbase.Data.Entries
import Mathlib.Data.List.Basic
import Mathlib.Tactic.SplitIfs

/-
  Entries in ascending order of their keys.

  Setting an entry changes what is found under its own key only,
  and keeps the order.  In order, entries are what is found by
  their keys, and they are the entries of their own list.

  Main declarations:
    * `Entries.find?_insert`
    * `Entries.Sorted.insert`
    * `Entries.Sorted.find?_eq_some_iff`
    * `Entries.sorted_ofList`
    * `Entries.ofList_of_sorted`
-/

namespace Factbase

namespace Entries

variable {α : Type}
variable {entries : Entries α}

------------------------------------------------------------
-- Entries by Key
------------------------------------------------------------

theorem find?_cons
    (key other : String)
    (x : α)
    (entries : Entries α) :
    find? other ((key, x) :: entries) =
      if other = key then some x else entries.find? other := by
  rw [find?, List.lookup_cons]
  by_cases hKey : other = key
  · simp [hKey]
  · rw [if_neg hKey, beq_eq_false_iff_ne.mpr hKey]
    rfl

/- Setting the entry of a key changes that of no other key. -/
theorem find?_insert
    (key other : String)
    (x : α)
    (entries : Entries α) :
    (insert key x entries).find? other =
      if other = key then some x else entries.find? other := by
  induction entries with
  | nil => exact find?_cons key other x []
  | cons e entries ih =>
      rcases e with ⟨k, y⟩
      rw [insert]
      by_cases hBefore : key < k
      · rw [if_pos hBefore, find?_cons]
      · rw [if_neg hBefore]
        by_cases hHere : key = k
        · rw [if_pos hHere, find?_cons, find?_cons, hHere]
          split_ifs <;> rfl
        · rw [if_neg hHere, find?_cons, find?_cons, ih]
          by_cases hKey : other = k
          · rw [if_pos hKey, if_pos hKey,
              if_neg (hKey ▸ Ne.symm hHere)]
          · rw [if_neg hKey, if_neg hKey]

/- What is found is one of the entries. -/
theorem mem_of_find?_eq_some
    {key : String}
    {x : α}
    (hFound : entries.find? key = some x) :
    (key, x) ∈ entries := by
  induction entries with
  | nil => cases hFound
  | cons e entries ih =>
      rcases e with ⟨k, y⟩
      rw [find?_cons] at hFound
      split_ifs at hFound with hKey
      · cases hFound
        rw [hKey]
        exact List.mem_cons_self
      · exact List.mem_cons_of_mem _ (ih hFound)

theorem mem_insert
    {key : String}
    {x : α}
    {e : String × α}
    (hMember : e ∈ insert key x entries) :
    e = (key, x) ∨ e ∈ entries := by
  induction entries with
  | nil => exact .inl (List.mem_singleton.mp hMember)
  | cons f entries ih =>
      rw [insert] at hMember
      split_ifs at hMember with hBefore hHere
      · exact List.mem_cons.mp hMember
      · exact (List.mem_cons.mp hMember).imp_right
          (List.mem_cons_of_mem _)
      · rcases List.mem_cons.mp hMember with hFirst | hRest
        · exact .inr (hFirst ▸ List.mem_cons_self)
        · exact (ih hRest).imp_right (List.mem_cons_of_mem _)

------------------------------------------------------------
-- Ascending Keys
------------------------------------------------------------

/- An entry is put where the keys still ascend. -/
theorem Sorted.insert
    (hSorted : Sorted entries)
    (key : String)
    (x : α) : Sorted (insert key x entries) := by
  induction entries with
  | nil => exact List.pairwise_singleton _ _
  | cons e entries ih =>
      rcases List.pairwise_cons.mp hSorted with ⟨hFirst, hRest⟩
      rw [Entries.insert]
      split_ifs with hBefore hHere
      · refine List.pairwise_cons.mpr ⟨?_, hSorted⟩
        rw [List.forall_mem_cons]
        exact ⟨hBefore, fun f hMember =>
          String.lt_trans hBefore (hFirst f hMember)⟩
      · subst hHere
        exact List.pairwise_cons.mpr ⟨hFirst, hRest⟩
      · refine List.pairwise_cons.mpr ⟨?_, ih hRest⟩
        intro f hMember
        rcases mem_insert hMember with hNew | hOld
        · rw [hNew]
          exact Std.lt_of_le_of_ne (String.not_lt.mp hBefore)
            (Ne.symm hHere)
        · exact hFirst f hOld

/- The order is one of the keys alone. -/
theorem Sorted.of_keys_eq
    {β : Type}
    {others : Entries β}
    (hSorted : Sorted entries)
    (hKeys : others.map Prod.fst = entries.map Prod.fst) :
    Sorted others := by
  rw [Sorted, ← List.pairwise_map (f := Prod.fst)] at *
  rwa [hKeys]

/- In order, the entries are what is found by their keys. -/
theorem Sorted.find?_eq_some_iff
    (hSorted : Sorted entries)
    {key : String}
    {x : α} :
    entries.find? key = some x ↔ (key, x) ∈ entries := by
  induction entries with
  | nil => simp [find?]
  | cons e entries ih =>
      rcases e with ⟨k, y⟩
      rcases List.pairwise_cons.mp hSorted with ⟨hFirst, hRest⟩
      rw [find?_cons, List.mem_cons, ← ih hRest, Prod.mk.injEq]
      by_cases hKey : key = k
      · subst hKey
        have hOnce : (key, x) ∉ entries := fun hMember =>
          String.lt_irrefl _ (hFirst (key, x) hMember)
        simp [ih hRest, hOnce, eq_comm]
      · simp [hKey]

theorem Sorted.find?_eq_none
    (hSorted : Sorted entries)
    {key : String}
    (hBefore : ∀ e ∈ entries, key < e.1) :
    entries.find? key = none := by
  cases hFound : entries.find? key with
  | none => rfl
  | some x =>
      have hMember := hSorted.find?_eq_some_iff.mp hFound
      exact absurd (hBefore _ hMember) (String.lt_irrefl key)

------------------------------------------------------------
-- Entries of a List
------------------------------------------------------------

/- The induction is on the pairs that are still to be set. -/
theorem sorted_ofList (pairs : List (String × α)) :
    Sorted (ofList pairs) := by
  have hFold : ∀ before : Entries α, Sorted before →
      Sorted (pairs.foldl (fun es e => insert e.1 e.2 es)
        before) := by
    induction pairs with
    | nil => exact fun before hSorted => hSorted
    | cons e pairs ih =>
        exact fun before hSorted => ih _ (hSorted.insert e.1 e.2)
  exact hFold [] List.Pairwise.nil

theorem mem_of_mem_ofList
    {pairs : List (String × α)}
    {e : String × α}
    (hMember : e ∈ ofList pairs) : e ∈ pairs := by
  have hFold : ∀ before : Entries α,
      e ∈ pairs.foldl (fun es e => insert e.1 e.2 es) before →
        e ∈ pairs ∨ e ∈ before := by
    clear hMember
    induction pairs with
    | nil => exact fun before hMember => .inr hMember
    | cons f pairs ih =>
        intro before hMember
        rcases ih _ hMember with hPair | hSet
        · exact .inl (List.mem_cons_of_mem _ hPair)
        · rcases mem_insert hSet with hFirst | hBefore
          · exact .inl (hFirst ▸ List.mem_cons_self)
          · exact .inr hBefore
  exact (hFold [] hMember).resolve_right List.not_mem_nil

theorem insert_of_last
    {key : String}
    (x : α)
    (hLast : ∀ e ∈ entries, e.1 < key) :
    insert key x entries = entries ++ [(key, x)] := by
  induction entries with
  | nil => rfl
  | cons e entries ih =>
      rw [List.forall_mem_cons] at hLast
      have hNe : key ≠ e.1 := by
        rintro rfl
        exact String.lt_irrefl _ hLast.1
      rw [insert, if_neg (String.lt_asymm hLast.1), if_neg hNe,
        ih hLast.2, List.cons_append]

/- Entries in order are the entries of their own list. -/
theorem ofList_of_sorted (hSorted : Sorted entries) :
    ofList entries = entries := by
  have hFold : ∀ before : Entries α,
      Sorted (before ++ entries) →
        entries.foldl (fun es e => insert e.1 e.2 es) before =
          before ++ entries := by
    clear hSorted
    induction entries with
    | nil => simp
    | cons e entries ih =>
        intro before hSorted
        have hLast : ∀ b ∈ before, b.1 < e.1 := by
          intro b hMember
          exact (List.pairwise_append.mp hSorted).2.2 b hMember e
            List.mem_cons_self
        rw [List.append_cons] at hSorted ⊢
        rw [List.foldl_cons, ← ih _ hSorted,
          ← insert_of_last e.2 hLast]
  exact hFold [] hSorted

end Entries

end Factbase
