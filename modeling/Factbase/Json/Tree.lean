import Factbase.Json.Scan

/-
  This file defines the reader of JSON values of any shape.

  `readFront` reads a scalar whole and of a list or an object
  its opening bracket only; every reader of values starts with
  it.  `skipValue` passes over a value that nobody asks for,
  with fewer checks and without a limit on nesting.

  Key definitions include:
    * `Json.Tree`
    * `Json.readFront`
    * `Json.items`
    * `Json.members`
    * `Json.readTree`
    * `Json.skipValue`
-/

namespace Factbase.Json

/- A JSON value. -/
inductive Tree where
  | null
  | bool (b : Bool)
  | number (n : Number)
  | text (s : String)
  | list (items : List Tree)
  | object (members : List (String × Tree))
deriving Repr

/- What reads one value off the front of a text. -/
abbrev Reader (α : Type) :=
  List Char → Except Flaw (α × List Char)

------------------------------------------------------------
-- Fronts
------------------------------------------------------------

/- A scalar, or the opening bracket of a list or an object. -/
inductive Front where
  | null
  | bool (b : Bool)
  | number (n : Number)
  | text (s : String)
  | list
  | object
deriving DecidableEq, Repr

/- The front of a value, after any blanks. -/
def readFront
    (cs : List Char) : Except Flaw (Front × List Char) :=
  match skipBlank cs with
  | [] => .error (.here .endInValue [])
  | 'n' :: r =>
      (word "ull".toList r).map fun r => (.null, r)
  | 't' :: r =>
      (word "rue".toList r).map fun r => (.bool true, r)
  | 'f' :: r =>
      (word "alse".toList r).map fun r => (.bool false, r)
  | '"' :: r =>
      (readChars r).map fun (cs, r) => (.text (.ofList cs), r)
  | '[' :: r => .ok (.list, r)
  | '{' :: r => .ok (.object, r)
  | '-' :: r =>
      (readUnsigned true r).map fun (n, r) => (.number n, r)
  | c :: r =>
      if c.isDigit then
        (readUnsigned false (c :: r)).map fun (n, r) =>
          (.number n, r)
      else .error (.past .expectedValue (c :: r))

/- The front as something found in place of a shape. -/
def Front.found : Front → Found
  | .null => .null
  | .bool b => .bool b
  | .number n => n.found
  | .text s => .text s
  | .list => .sequence
  | .object => .map

/-
  The flaw that a front is not of the shape wanted.  Brackets
  are not counted as passed.
-/
def Front.misfit
    (front : Front)
    (expected : String)
    (rest : List Char) : Flaw :=
  let cause := .wrongType front.found expected
  match front with
  | .list | .object => ⟨cause, byteLength rest + 1⟩
  | _ => .here cause rest

------------------------------------------------------------
-- Lists
------------------------------------------------------------

/-
  Whether a list has another item, with the rest at that item
  or at the closing bracket.
-/
def nextItem
    (first : Bool)
    (cs : List Char) : Except Flaw (Bool × List Char) :=
  match skipBlank cs with
  | [] => .error (.here .endInList [])
  | ']' :: r => .ok (false, ']' :: r)
  | r =>
      if first then .ok (true, r)
      else
        match r with
        | ',' :: r =>
            match skipBlank r with
            | [] => .error (.here .endInValue [])
            | ']' :: r =>
                .error (.past .trailingComma (']' :: r))
            | r => .ok (true, r)
        | r => .error (.past .expectedCommaInList r)

/- The items from one on, and the closing bracket. -/
def itemsFrom
    {α : Type}
    (item : Reader α) :
    Nat → Bool → List Char → Except Flaw (List α × List Char)
  | 0, _, _ => .error (.here .endInList [])
  | fuel + 1, first, cs => do
      match ← nextItem first cs with
      | (false, r) => .ok ([], r.drop 1)
      | (true, r) =>
          let (x, r) ← item r
          let (xs, r) ← itemsFrom item fuel false r
          .ok (x :: xs, r)

/-
  The items of a list whose opening bracket was read.  Every
  item takes a character, so their count bounds the items.
-/
def items
    {α : Type}
    (item : Reader α)
    (cs : List Char) : Except Flaw (List α × List Char) :=
  itemsFrom item (cs.length + 1) true cs

/- The closing bracket of a list that has all its items. -/
def endList (cs : List Char) : Except Flaw (List Char) :=
  match skipBlank cs with
  | [] => .error (.here .endInList [])
  | ']' :: r => .ok r
  | ',' :: r =>
      match skipBlank r with
      | ']' :: r => .error (.past .trailingComma (']' :: r))
      | r => .error (.past .trailingCharacters r)
  | r => .error (.past .trailingCharacters r)

------------------------------------------------------------
-- Objects
------------------------------------------------------------

/- Pass over the colon after a key. -/
def colon (cs : List Char) : Except Flaw (List Char) :=
  match skipBlank cs with
  | [] => .error (.here .endInObject [])
  | ':' :: r => .ok r
  | r => .error (.past .expectedColon r)

/-
  The next key of an object, or none at the closing bracket,
  which stays in the rest.
-/
def nextKey
    (first : Bool)
    (cs : List Char) :
    Except Flaw (Option (List Char) × List Char) :=
  match skipBlank cs with
  | [] => .error (.here .endInObject [])
  | '}' :: r => .ok (none, '}' :: r)
  | r =>
      if first then
        match r with
        | '"' :: r => (readChars r).map fun (k, r) => (some k, r)
        | r => .error (.past .keyNotString r)
      else
        match r with
        | ',' :: r =>
            match skipBlank r with
            | [] => .error (.here .endInValue [])
            | '"' :: r =>
                (readChars r).map fun (k, r) => (some k, r)
            | '}' :: r =>
                .error (.past .trailingComma ('}' :: r))
            | r => .error (.past .keyNotString r)
        | r => .error (.past .expectedCommaInObject r)

/- The members from one on, and the closing bracket. -/
def membersFrom
    {α : Type}
    (value : Reader α) :
    Nat → Bool → List Char →
      Except Flaw (List (String × α) × List Char)
  | 0, _, _ => .error (.here .endInObject [])
  | fuel + 1, first, cs => do
      match ← nextKey first cs with
      | (none, r) => .ok ([], r.drop 1)
      | (some k, r) =>
          let (x, r) ← value (← colon r)
          let (xs, r) ← membersFrom value fuel false r
          .ok ((.ofList k, x) :: xs, r)

/- The members of an object whose opening bracket was read. -/
def members
    {α : Type}
    (value : Reader α)
    (cs : List Char) :
    Except Flaw (List (String × α) × List Char) :=
  membersFrom value (cs.length + 1) true cs

------------------------------------------------------------
-- Values
------------------------------------------------------------

/- How deep lists and objects may be nested. -/
def deepest : Nat :=
  127

/- A value with at most some lists and objects around its parts. -/
def readTree : Nat → Reader Tree
  | budget, cs => do
      match ← readFront cs with
      | (.null, r) => .ok (.null, r)
      | (.bool b, r) => .ok (.bool b, r)
      | (.number n, r) => .ok (.number n, r)
      | (.text s, r) => .ok (.text s, r)
      | (.list, r) =>
          match budget with
          | 0 => .error (.here .tooDeep r)
          | budget + 1 => do
              let (xs, r) ← items (readTree budget) r
              .ok (.list xs, r)
      | (.object, r) =>
          match budget with
          | 0 => .error (.here .tooDeep r)
          | budget + 1 => do
              let (ms, r) ← members (readTree budget) r
              .ok (.object ms, r)

/- A whole text of one value, with blanks around it. -/
def readAll
    {α : Type}
    (value : Reader α)
    (cs : List Char) : Except Flaw α := do
  let (x, r) ← value cs
  match skipBlank r with
  | [] => .ok x
  | r => .error (.past .trailingCharacters r)

------------------------------------------------------------
-- Values that nobody asks for
------------------------------------------------------------

/- Pass over the key of a member and its colon. -/
def skipKey (cs : List Char) : Except Flaw (List Char) :=
  match skipBlank cs with
  | [] => .error (.here .endInObject [])
  | '"' :: r => do colon (← skipChars r)
  | r => .error (.past .keyNotString r)

mutual

/- Pass over a value. -/
def skipValueWithin : Nat → List Char → Except Flaw (List Char)
  | 0, _ => .error (.here .endInValue [])
  | fuel + 1, cs =>
      match skipBlank cs with
      | [] => .error (.here .endInValue [])
      | 'n' :: r => word "ull".toList r
      | 't' :: r => word "rue".toList r
      | 'f' :: r => word "alse".toList r
      | '"' :: r => skipChars r
      | '-' :: r => skipNumber r
      | '[' :: r =>
          match skipBlank r with
          | [] => .error (.here .endInList [])
          | ']' :: r => .ok r
          | r => skipItems fuel r
      | '{' :: r =>
          match skipBlank r with
          | [] => .error (.here .endInObject [])
          | '}' :: r => .ok r
          | r => skipMembers fuel r
      | c :: r =>
          if c.isDigit then skipNumber (c :: r)
          else .error (.past .expectedValue (c :: r))

/- Pass over the items of a list from one on. -/
def skipItems : Nat → List Char → Except Flaw (List Char)
  | 0, _ => .error (.here .endInList [])
  | fuel + 1, cs => do
      match skipBlank (← skipValueWithin fuel cs) with
      | [] => .error (.here .endInList [])
      | ']' :: r => .ok r
      | ',' :: r => skipItems fuel r
      | r => .error (.past .expectedCommaInList r)

/- Pass over the members of an object from one on. -/
def skipMembers : Nat → List Char → Except Flaw (List Char)
  | 0, _ => .error (.here .endInObject [])
  | fuel + 1, cs => do
      match skipBlank (← skipValueWithin fuel (← skipKey cs)) with
      | [] => .error (.here .endInObject [])
      | '}' :: r => .ok r
      | ',' :: r => skipMembers fuel r
      | r => .error (.past .expectedCommaInObject r)

end

/-
  Pass over a value.  Of two rounds one at least passes a
  character, so twice their count bounds the rounds.
-/
def skipValue (cs : List Char) : Except Flaw (List Char) :=
  skipValueWithin (2 * cs.length + 2) cs

end Factbase.Json
