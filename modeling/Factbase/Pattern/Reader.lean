import Factbase.Pattern.Words

/-
  This file defines the reader of patterns.

  Key definitions include:
    * `Pattern.readSet`
    * `Pattern.Reading`
    * `Pattern.readAlternatives`
    * `Pattern.read`
-/

namespace Factbase.Pattern

------------------------------------------------------------
-- Sets
------------------------------------------------------------

/- A character or a class inside brackets. -/
def readMember
    (spaced : Bool) : List Char → Option (CharSet × List Char)
  | [] => none
  | '\\' :: r => do
      match ← readEscape spaced r with
      | (.literal l, r) => pure (.literals [l], r)
      | (.named c, r) => pure (.named c, r)
      | _ => none
  | c :: r => some (.literals [⟨c, false⟩], r)

/-
  A hyphen starts the second half of a range, unless a hyphen
  or the closing bracket follows it.
-/
def startsRange
    (spaced : Bool)
    (cs : List Char) : Bool :=
  match cs with
  | '-' :: r =>
      let after :=
        if spaced then
          match r.dropWhile isBlank with
          | '#' :: r => (r.dropWhile isBlank).head?
          | r => r.head?
        else r.head?
      after ≠ some ']' && after ≠ some '-'
  | _ => false

/- A member of a set, or a range of characters. -/
def readRange
    (spaced : Bool)
    (cs : List Char) : Option (CharSet × List Char) := do
  let (first, r) ← readMember spaced cs
  let r := skip spaced r
  if startsRange spaced r then do
    let (last, r) ← readMember spaced (skip spaced (r.drop 1))
    match first, last with
    | .literals [a], .literals [b] =>
        if a.char ≤ b.char then pure (.literals [a, b], r) else none
    | _, _ => none
  else pure (first, r)

/- The hyphens at the front of a set, and what follows them. -/
def leadingHyphens
    (spaced : Bool) :
    Nat → List Char → List CharSet × List Char
  | 0, cs => ([], cs)
  | fuel + 1, cs =>
      match cs with
      | '-' :: r =>
          let (sets, r) := leadingHyphens spaced fuel (skip spaced r)
          (.literals [⟨'-', false⟩] :: sets, r)
      | r => ([], r)

/-
  The start of a set: whether it is negated, and the hyphens or
  the closing bracket that stand for themselves there.
-/
def readSetStart
    (spaced : Bool)
    (cs : List Char) : Bool × List CharSet × List Char :=
  let (negated, r) := match skip spaced cs with
    | '^' :: r => (true, skip spaced r)
    | r => (false, r)
  match leadingHyphens spaced r.length r with
  | ([], ']' :: r) =>
      (negated, [.literals [⟨']', false⟩]], skip spaced r)
  | (sets, r) => (negated, sets, r)

/- The operation between two sets at the front of a text. -/
def setOperation? : List Char → Option (SetOperation × List Char)
  | '&' :: '&' :: r => some (.intersection, r)
  | '-' :: '-' :: r => some (.difference, r)
  | '~' :: '~' :: r => some (.symmetricDifference, r)
  | _ => none

/- A set after what stands to the left of an operation. -/
def closeSet
    (left : Option (SetOperation × CharSet))
    (sets : List CharSet) : CharSet :=
  let right := CharSet.ofList sets.reverse
  match left with
  | none => right
  | some (op, left) => .combined op left right

mutual

/- A set after its opening bracket. -/
def readSet
    (spaced : Bool) :
    Nat → List Char → Option (CharSet × List Char)
  | 0, _ => none
  | fuel + 1, cs => do
      let (negated, sets, r) := readSetStart spaced cs
      let (s, r) ← readSets spaced fuel none sets.reverse r
      pure (.brackets negated s, r)

/- The rest of a set, of which some parts have been read. -/
def readSets
    (spaced : Bool) :
    Nat → Option (SetOperation × CharSet) → List CharSet →
      List Char → Option (CharSet × List Char)
  | 0, _, _, _ => none
  | fuel + 1, left, sets, cs =>
      let cs := skip spaced cs
      match cs, setOperation? cs with
      | _, some (op, r) =>
          readSets spaced fuel (some (op, closeSet left sets)) [] r
      | ']' :: r, _ => some (closeSet left sets, r)
      | '[' :: r, _ => do
          let (s, r) ← (readAsciiClass r).or (readSet spaced fuel r)
          readSets spaced fuel left (s :: sets) r
      | r, _ => do
          let (s, r) ← readRange spaced r
          readSets spaced fuel left (s :: sets) r

end

------------------------------------------------------------
-- Patterns
------------------------------------------------------------

/-
  The text that is left, whether it is spaced, and the names of
  the groups so far.
-/
structure Reading where
  rest : List Char
  spaced : Bool
  names : List (List Char)
deriving Repr

/- The start of a group up to the pattern inside it. -/
inductive GroupStart where
  /- Options for the rest of the group around it. -/
  | options (o : Options)
  | group (o : Options) (name : Option (List Char))
deriving Repr

/-
  The start of a group after its opening bracket.  A group may
  not look ahead or behind.
-/
def readGroupStart
    (cs : List Char) : Option (GroupStart × List Char) :=
  match cs with
  | '?' :: '=' :: _ | '?' :: '!' :: _ => none
  | '?' :: '<' :: '=' :: _ | '?' :: '<' :: '!' :: _ => none
  | '?' :: '<' :: r | '?' :: 'P' :: '<' :: r =>
      (readGroupName r).map fun (name, r) =>
        (.group ⟨[], []⟩ (some name), r)
  | '?' :: r => do
      match ← readOptions r with
      | (o, ':' :: r) => pure (.group o none, r)
      | (o, ')' :: r) =>
          if o = ⟨[], []⟩ then none else pure (.options o, r)
      | _ => none
  | r => some (.group ⟨[], []⟩ none, r)

/- The last pattern of a sequence, which is latest first, repeated. -/
def repeatLast : List Tree → Option (List Tree)
  | [] | .options _ :: _ => none
  | t :: ts => some (.repeated t :: ts)

/- A pattern of one word. -/
def readAtom
    (spaced : Bool) : List Char → Option (Tree × List Char)
  | [] => none
  | '\\' :: r => readEscape spaced r
  | '.' :: r => some (.any, r)
  | '^' :: r | '$' :: r => some (.edge, r)
  | c :: r => some (.literal ⟨c, false⟩, r)

mutual

/- Patterns with bars between them. -/
def readAlternatives :
    Nat → Reading → Option (List Tree × Reading)
  | 0, _ => none
  | fuel + 1, s => do
      let (t, s) ← readSequence fuel [] s
      match s.rest with
      | '|' :: r => do
          let (ts, s) ← readAlternatives fuel { s with rest := r }
          pure (t :: ts, s)
      | _ => pure ([t], s)

/- The rest of a sequence, of which some were read, latest first. -/
def readSequence :
    Nat → List Tree → Reading → Option (Tree × Reading)
  | 0, _, _ => none
  | fuel + 1, ts, s =>
      let s := { s with rest := skip s.spaced s.rest }
      match s.rest with
      | [] | '|' :: _ | ')' :: _ =>
          some (.ofSequence ts.reverse, s)
      | '(' :: r => do
          let (t, s) ← readGroup fuel
            { s with rest := skip s.spaced r }
          readSequence fuel (t :: ts) s
      | '[' :: r => do
          let (set, r) ← readSet s.spaced fuel r
          readSequence fuel (.set set :: ts) { s with rest := r }
      | '*' :: '?' :: r | '+' :: '?' :: r | '?' :: '?' :: r
      | '*' :: r | '+' :: r | '?' :: r => do
          readSequence fuel (← repeatLast ts) { s with rest := r }
      | '{' :: r => do
          let r ← readCount s.spaced r
          readSequence fuel (← repeatLast ts) { s with rest := r }
      | r => do
          let (t, r) ← readAtom s.spaced r
          readSequence fuel (t :: ts) { s with rest := r }

/- A group, or options that stand where a group could. -/
def readGroup :
    Nat → Reading → Option (Tree × Reading)
  | 0, _ => none
  | fuel + 1, s => do
      match ← readGroupStart s.rest with
      | (.options o, r) =>
          pure (.options o,
            { s with
              rest := r
              spaced := (o.state? 'x').getD s.spaced })
      | (.group o name, r) =>
          if name.any (· ∈ s.names) then none
          else do
            let inner : Reading :=
              { rest := r
                spaced := (o.state? 'x').getD s.spaced
                names := name.toList ++ s.names }
            let (ts, inner) ← readAlternatives fuel inner
            let ')' :: r := inner.rest | none
            pure (.group o (.ofAlternatives ts),
              { inner with rest := r, spaced := s.spaced })

end

/- The pattern that a text spells. -/
def read? (cs : List Char) : Option Tree := do
  let start : Reading := ⟨cs, false, []⟩
  let (ts, s) ← readAlternatives (4 * cs.length + 4) start
  if s.rest = [] then pure (.ofAlternatives ts) else none

end Factbase.Pattern
