import Factbase.Pattern.Reader

/-
  This file defines which texts are patterns that values can be
  compared with.

  A pattern describes characters of Unicode.  Where that is
  switched off it describes bytes, and then it has to keep to
  ASCII, because anything else could match half a character.

  Key definitions include:
    * `Pattern.CharSet.reachesBeyond?`
    * `Pattern.Tree.check`
    * `Pattern.Fault`
    * `Pattern.fault?`
-/

namespace Factbase.Pattern

------------------------------------------------------------
-- Sets
------------------------------------------------------------

/- A class may be used, for characters or for bytes. -/
def NamedClass.isUsable
    (unicode : Bool) : NamedClass → Bool
  | .common negated => unicode || !negated
  | .category known => unicode && known

namespace CharSet

mutual

/-
  Whether a set has bytes beyond ASCII in it, unless the set
  may not be used.  All of those bytes are in it or none.  Of a
  set of characters it does not matter.
-/
def reachesBeyond?
    (unicode : Bool) : CharSet → Option Bool
  | .literals ls =>
      if unicode || ls.all (·.char.toNat < 0x80) then some false
      else none
  | .ascii negated => some negated
  | .named c => if c.isUsable unicode then some false else none
  | .brackets negated s => do
      let beyond := (← reachesBeyond? unicode s) != negated
      if beyond && !unicode then none else pure beyond
  | .union sets => reachBeyond? unicode sets
  | .combined op a b => do
      let a ← reachesBeyond? unicode a
      let b ← reachesBeyond? unicode b
      pure (match op with
        | .intersection => a && b
        | .difference => a && !b
        | .symmetricDifference => a != b)

/- Whether one of some sets has bytes beyond ASCII in it. -/
def reachBeyond?
    (unicode : Bool) : List CharSet → Option Bool
  | [] => some false
  | s :: sets => do
      let a ← reachesBeyond? unicode s
      let b ← reachBeyond? unicode sets
      pure (a || b)

end

end CharSet

------------------------------------------------------------
-- Patterns
------------------------------------------------------------

/-
  Whether a pattern describes characters, and whether it asked
  so far for the edge of a word of any script.
-/
structure Scope where
  unicode : Bool
  wordEdge : Bool
deriving DecidableEq, Repr

/- A scope after options. -/
def Scope.under
    (s : Scope)
    (o : Options) : Scope :=
  { s with unicode := (o.state? 'u').getD s.unicode }

namespace Tree

mutual

/- The scope after a pattern, unless the pattern is none. -/
def check : Tree → Scope → Option Scope
  | .empty, s => some s
  | .options o, s => some (s.under o)
  | .literal l, s =>
      if l.asByte && 0x80 ≤ l.char.toNat && !s.unicode then none
      else some s
  | .any, s => if s.unicode then some s else none
  | .edge, s => some s
  | .wordEdge, s =>
      some { s with wordEdge := s.wordEdge || s.unicode }
  | .named c, s => if c.isUsable s.unicode then some s else none
  | .set cs, s => (cs.reachesBeyond? s.unicode).map fun _ => s
  | .repeated t, s => check t s
  | .group o t, s => do
      let inner ← check t (s.under o)
      pure { inner with unicode := s.unicode }
  | .alternatives ts, s => checkAll ts s
  | .sequence ts, s => checkAll ts s

/- The scope after some patterns. -/
def checkAll : List Tree → Scope → Option Scope
  | [], s => some s
  | t :: ts, s => do checkAll ts (← check t s)

end

end Tree

------------------------------------------------------------
-- Faults
------------------------------------------------------------

/- Why values cannot be compared with a text. -/
inductive Fault where
  | malformed
  /- It asks for the edge of a word of any script. -/
  | wordEdge
deriving DecidableEq, Repr

/- The wording of a fault. -/
def Fault.message : Fault → String
  | .malformed => "error building NFA"
  | .wordEdge =>
      "unsupported regex feature for DFAs: cannot build DFAs for "
        ++ "regexes with Unicode word boundaries; switch to ASCII "
        ++ "word boundaries, or heuristically enable Unicode word "
        ++ "boundaries or use a different regex engine"

/- How deep patterns may lie in each other. -/
def deepest : Nat :=
  250

/- The fault of a text as a pattern. -/
def fault? (cs : List Char) : Option Fault :=
  match read? cs with
  | none => some .malformed
  | some t =>
      if deepest < t.depth then some .malformed
      else match t.check ⟨true, false⟩ with
        | none => some .malformed
        | some s => if s.wordEdge then some .wordEdge else none

end Factbase.Pattern
