import Factbase.Pattern.Tree
import Factbase.Text.Digits
import Factbase.Text.Wordlike

/-
  This file defines the readers of the words of a pattern:
  escapes, classes with names, counts, the names of groups and
  their options.  Each takes the text that is left and gives
  what it read and the new rest, or nothing if the text is not
  well formed.

  In spaced text, white space and comments between words do not
  count.

  Key definitions include:
    * `Pattern.skip`
    * `Pattern.readEscape`
    * `Pattern.readAsciiClass`
    * `Pattern.readCount`
    * `Pattern.readGroupName`
    * `Pattern.readOptions`
-/

namespace Factbase.Pattern

------------------------------------------------------------
-- Space between words
------------------------------------------------------------

/- A text after white space and comments. -/
def skipSpace (inComment : Bool) : List Char → List Char
  | [] => []
  | c :: cs =>
      if inComment then skipSpace (c ≠ '\n') cs
      else if isBlank c then skipSpace false cs
      else if c = '#' then skipSpace true cs
      else c :: cs

/- A text after what does not count. -/
def skip
    (spaced : Bool)
    (cs : List Char) : List Char :=
  if spaced then skipSpace false cs else cs

/- What stands before a closing brace, and what stands after it. -/
def readBraces
    (spaced : Bool)
    (cs : List Char) : Option (List Char × List Char) :=
  match cs.dropWhile (· ≠ '}') with
  | [] => none
  | _ :: r =>
      let word := cs.takeWhile (· ≠ '}')
      some (if spaced then word.filter (!isBlank ·) else word, r)

------------------------------------------------------------
-- Characters
------------------------------------------------------------

/- The character of a numeral in hexadecimal digits. -/
def hexCharacter? (ds : List Char) : Option Char := do
  if ds = [] then none
  else Digits.character? (← Digits.hexValue? ds)

/- A number of hexadecimal digits. -/
def readHexDigits
    (spaced : Bool) :
    Nat → List Char → Option (List Char × List Char)
  | 0, cs => some ([], cs)
  | _ + 1, [] => none
  | count + 1, c :: cs => do
      let (ds, r) ← readHexDigits spaced count (skip spaced cs)
      pure (c :: ds, r)

/-
  A character written as so many hexadecimal digits, or as any
  number of them between braces.
-/
def readHex
    (spaced : Bool)
    (count : Nat)
    (cs : List Char) : Option (Literal × List Char) := do
  match skip spaced cs with
  | '{' :: r => do
      let (ds, r) ← readBraces spaced r
      pure (⟨← hexCharacter? ds, false⟩, skip spaced r)
  | r => do
      let (ds, r) ← readHexDigits spaced count r
      pure (⟨← hexCharacter? ds, count = 2⟩, r)

/- Characters that mean something in a pattern. -/
def signs : List Char :=
  "\\.+*?()|[]\x7b\x7d^$#&-~".toList

/- Whether a backslash before a character makes it stand for itself. -/
def isEscapable (c : Char) : Bool :=
  c ∈ signs || (c.toNat < 0x80 && !c.isAlphanum && c ≠ '<' && c ≠ '>')

/- The control character that a letter after a backslash names. -/
def control? : Char → Option Char
  | 'a' => some '\x07'
  | 'f' => some '\x0c'
  | 't' => some '\t'
  | 'n' => some '\n'
  | 'r' => some '\r'
  | 'v' => some '\x0b'
  | _ => none

------------------------------------------------------------
-- Classes
------------------------------------------------------------

/- The short names of the categories of characters. -/
def categories : List String :=
  ["c", "cc", "cf", "cn", "co", "l", "lc", "ll", "lm", "lo",
   "lt", "lu", "m", "mc", "me", "mn", "n", "nd", "nl", "no",
   "p", "pc", "pd", "pe", "pf", "pi", "po", "ps", "s", "sc",
   "sk", "sm", "so", "z", "zl", "zp", "zs"]

/- A name is that of a category, whatever its case. -/
def isCategory (name : List Char) : Bool :=
  String.ofList (name.map Char.toLower) ∈ categories

/- The category that a letter or a name between braces stands for. -/
def readCategory
    (spaced : Bool)
    (cs : List Char) : Option (NamedClass × List Char) :=
  match skip spaced cs with
  | [] | '\\' :: _ => none
  | '{' :: r => do
      let (name, r) ← readBraces spaced r
      pure (.category (isCategory name), r)
  | c :: r => some (.category (isCategory [c]), skip spaced r)

/- The classes of ASCII characters. -/
def asciiClasses : List String :=
  ["alnum", "alpha", "ascii", "blank", "cntrl", "digit", "graph",
   "lower", "print", "punct", "space", "upper", "word", "xdigit"]

/- A class of ASCII characters after its opening bracket. -/
def readAsciiClass
    (cs : List Char) : Option (CharSet × List Char) := do
  let ':' :: r := cs | none
  let (negated, r) := match r with
    | '^' :: r => (true, r)
    | r => (false, r)
  let ':' :: ']' :: rest := r.dropWhile (· ≠ ':') | none
  if String.ofList (r.takeWhile (· ≠ ':')) ∈ asciiClasses then
    pure (.ascii negated, rest)
  else none

------------------------------------------------------------
-- Escapes
------------------------------------------------------------

/- What may stand between braces after the sign of a word's edge. -/
def wordEdges : List String :=
  ["start", "end", "start-half", "end-half"]

/-
  A word's edge of a kind named between braces.  Braces that
  start with no letter and no hyphen are a count instead.
-/
def readWordEdge
    (spaced : Bool)
    (cs : List Char) : Option (List Char) :=
  match cs with
  | '{' :: r =>
      match (skip spaced r).head? with
      | none => none
      | some c =>
          if c.isAlpha || c = '-' then do
            let (kind, r) ← readBraces spaced r
            if String.ofList kind ∈ wordEdges then pure r else none
          else some cs
  | r => some r

/- What a backslash and the text after it stand for. -/
def readEscape
    (spaced : Bool) : List Char → Option (Tree × List Char)
  | [] => none
  | c :: r =>
      if c ∈ ['d', 's', 'w'] then some (.named (.common false), r)
      else if c ∈ ['D', 'S', 'W'] then
        some (.named (.common true), r)
      else if c ∈ ['p', 'P'] then
        (readCategory spaced r).map fun (c, r) => (.named c, r)
      else if c ∈ ['x', 'u', 'U'] then
        let count := if c = 'x' then 2 else if c = 'u' then 4 else 8
        (readHex spaced count r).map fun (l, r) => (.literal l, r)
      else if isEscapable c then some (.literal ⟨c, false⟩, r)
      else if c ∈ ['A', 'z'] then some (.edge, r)
      else if c = 'b' then
        (readWordEdge spaced r).map fun r => (.wordEdge, r)
      else if c ∈ ['B', '<', '>'] then some (.wordEdge, r)
      else (control? c).map fun c => (.literal ⟨c, false⟩, r)

------------------------------------------------------------
-- Counts
------------------------------------------------------------

/- A number of times; white space around it does not count. -/
def times? (cs : List Char) : Option Nat :=
  let ds := trim cs
  if ds ≠ [] ∧ ds.all Char.isDigit ∧ Digits.value ds < 0x100000000
  then some (Digits.value ds)
  else none

/- A least and a greatest number of times. -/
def isCount (cs : List Char) : Bool :=
  match cs.splitOn ',' with
  | [n] => (times? n).isSome
  | [n, m] =>
      match times? n, times? m with
      | some n, some m => n ≤ m
      | some _, none => m = []
      | none, _ => false
  | _ => false

/- A text after a count, which starts after its opening brace. -/
def readCount
    (spaced : Bool)
    (cs : List Char) : Option (List Char) := do
  let (count, r) ← readBraces spaced cs
  if isCount count then
    match skip spaced r with
    | '?' :: r => pure r
    | r => pure r
  else none

------------------------------------------------------------
-- Groups
------------------------------------------------------------

/- The name of a group, up to its closing bracket. -/
def readGroupName
    (cs : List Char) : Option (List Char × List Char) := do
  let name := cs.takeWhile (· ≠ '>')
  let _ :: r := cs.dropWhile (· ≠ '>') | none
  let c :: more := name | none
  if (c = '_' || isAlphabetic c)
      && more.all fun d => d ∈ ['_', '.', '[', ']'] || isWordlike d
  then pure (name, r)
  else none

/- The letters of options, and the sign that switches off. -/
def optionLetters : List Char :=
  ['i', 'm', 's', 'U', 'u', 'R', 'x', '-']

/-
  Options after a question mark.  The rest starts with what
  ended them.
-/
def readOptions
    (cs : List Char) : Option (Options × List Char) :=
  let isLetter c := c ≠ ':' && c ≠ ')'
  let letters := cs.takeWhile isLetter
  if letters.all (· ∈ optionLetters) ∧ letters.Nodup
      ∧ letters.getLast? ≠ some '-' then
    some
      (⟨letters.takeWhile (· ≠ '-'), letters.dropWhile (· ≠ '-')⟩,
        cs.dropWhile isLetter)
  else none

end Factbase.Pattern
