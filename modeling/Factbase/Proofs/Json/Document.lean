import Factbase.Data.Datum

/-
  JSON documents and their compact text.

  A document is what a JSON text says, with numbers by their
  numerals and strings by their characters.  Its compact text
  has no blanks.

  Main declarations:
    * `Doc`
    * `Doc.write`
    * `Doc.writeItems_eq_map`
-/

namespace Factbase.Json

/- A JSON document. -/
inductive Doc where
  | null
  | bool (b : Bool)
  | number (numeral : List Char)
  | text (cs : List Char)
  | list (items : List Doc)
  | object (members : List (List Char × Doc))

namespace Doc

mutual

/- The compact text of a document. -/
def write : Doc → List Char
  | .null => "null".toList
  | .bool b => boolText b
  | .number numeral => numeral
  | .text cs => quoted cs
  | .list ds => bracketed (writeItems ds)
  | .object ms => braced (writeMembers ms)

/- The compact texts of items. -/
def writeItems : List Doc → List (List Char)
  | [] => []
  | d :: ds => write d :: writeItems ds

/- The compact texts of members. -/
def writeMembers : List (List Char × Doc) → List (List Char)
  | [] => []
  | (k, d) :: ms => member (quoted k) (write d) :: writeMembers ms

end

theorem writeItems_eq_map (ds : List Doc) :
    writeItems ds = ds.map write := by
  induction ds with
  | nil => rfl
  | cons d ds ih => rw [writeItems, ih, List.map_cons]

end Doc

end Factbase.Json
