/-
  This file defines maps from strings as lists of entries in
  ascending order of their keys.  Strings are ordered by their
  characters, which is also the order of their bytes in UTF-8.

  Key definitions include:
    * `Entries`
    * `Entries.insert`
    * `Entries.ofList`
    * `Entries.find?`
    * `Entries.Sorted`
-/

namespace Factbase

/- Entries in ascending order of their keys, each key once. -/
abbrev Entries (α : Type) :=
  List (String × α)

namespace Entries

variable {α : Type}

/- Set the entry of a key. -/
def insert
    (key : String)
    (x : α) : Entries α → Entries α
  | [] => [(key, x)]
  | (k, y) :: entries =>
      if key < k then (key, x) :: (k, y) :: entries
      else if key = k then (key, x) :: entries
      else (k, y) :: insert key x entries

/- Entries in order; of those with one key, the last. -/
def ofList (pairs : List (String × α)) : Entries α :=
  pairs.foldl (fun entries (k, x) => insert k x entries) []

/- The entry of a key. -/
def find?
    (key : String)
    (entries : Entries α) : Option α :=
  List.lookup key entries

/- The keys ascend. -/
def Sorted (entries : Entries α) : Prop :=
  entries.Pairwise fun a b => a.1 < b.1

end Entries

end Factbase
