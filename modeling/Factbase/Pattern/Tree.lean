/-
  This file defines patterns: the regular expressions that a
  value may be compared with.

  Key definitions include:
    * `Pattern.Literal`
    * `Pattern.NamedClass`
    * `Pattern.CharSet`
    * `Pattern.CharSet.depth`
    * `Pattern.Options`
    * `Pattern.Tree`
    * `Pattern.Tree.depth`
-/

namespace Factbase.Pattern

------------------------------------------------------------
-- Characters and classes
------------------------------------------------------------

/- A character that stands for itself. -/
structure Literal where
  char : Char
  /- It is written as two hexadecimal digits. -/
  asByte : Bool
deriving DecidableEq, Repr

/- A class of characters that has a name. -/
inductive NamedClass where
  /- Digits, white space or word characters, or all others. -/
  | common (negated : Bool)
  /- The characters of a category, if there is such a one. -/
  | category (known : Bool)
deriving DecidableEq, Repr

/- How two sets of characters are combined. -/
inductive SetOperation where
  | intersection
  | difference
  | symmetricDifference
deriving DecidableEq, Repr

inductive CharSet where
  /- One character, or all from the first to the second. -/
  | literals (ends : List Literal)
  /- A class of ASCII characters, or all others. -/
  | ascii (negated : Bool)
  | named (c : NamedClass)
  | brackets (negated : Bool) (s : CharSet)
  | union (sets : List CharSet)
  | combined (op : SetOperation) (left right : CharSet)
deriving Repr

namespace CharSet

/- The union of some sets; that of one set is that set. -/
def ofList : List CharSet → CharSet
  | [s] => s
  | sets => .union sets

mutual

/- How deep sets lie in each other. -/
def depth : CharSet → Nat
  | .brackets _ s => depth s + 1
  | .union [] => 0
  | .union sets => depths sets + 1
  | .combined _ a b => max (depth a) (depth b) + 1
  | _ => 0

/- The greatest depth of some sets. -/
def depths : List CharSet → Nat
  | [] => 0
  | s :: sets => max (depth s) (depths sets)

end

end CharSet

------------------------------------------------------------
-- Patterns
------------------------------------------------------------

/-
  The options that are switched on, and those that are switched
  off, each by its letter.
-/
structure Options where
  on : List Char
  off : List Char
deriving DecidableEq, Repr

/- The state of an option, if it is switched at all. -/
def Options.state?
    (o : Options)
    (letter : Char) : Option Bool :=
  if letter ∈ o.on then some true
  else if letter ∈ o.off then some false
  else none

inductive Tree where
  | empty
  /- Options for the rest of the group. -/
  | options (o : Options)
  | literal (l : Literal)
  /- Any character. -/
  | any
  /- The start or the end of a line or of the text. -/
  | edge
  /- The start, the end or the inside of a word. -/
  | wordEdge
  | named (c : NamedClass)
  | set (s : CharSet)
  | repeated (t : Tree)
  | group (o : Options) (t : Tree)
  | alternatives (ts : List Tree)
  | sequence (ts : List Tree)
deriving Repr

namespace Tree

/- Patterns one after another. -/
def ofSequence : List Tree → Tree
  | [] => .empty
  | [t] => t
  | ts => .sequence ts

/- Patterns of which one is to be met. -/
def ofAlternatives : List Tree → Tree
  | [t] => t
  | ts => .alternatives ts

mutual

/- How deep patterns lie in each other. -/
def depth : Tree → Nat
  | .set s => s.depth
  | .repeated t => depth t + 1
  | .group _ t => depth t + 1
  | .alternatives ts => depths ts + 1
  | .sequence ts => depths ts + 1
  | _ => 0

/- The greatest depth of some patterns. -/
def depths : List Tree → Nat
  | [] => 0
  | t :: ts => max (depth t) (depths ts)

end

end Tree

end Factbase.Pattern
