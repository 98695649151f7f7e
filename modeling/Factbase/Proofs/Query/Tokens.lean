import Factbase.Query.Sql
import Mathlib.Data.List.Basic

/-
  The tokens of an SQL text.

  A text is read token by token, each as long as it can be.
  Between quotes stands a name, in which two quotes are one; a
  word is an identifier unless it is a keyword.  Statements here
  have no comments and no literals, so none are read.

  A quoted name is read back as that name, whatever follows that
  is not a quote.  Two texts one after the other have the tokens
  of both, unless a token of the first could go on in the second.

  Key definitions include:
    * `Sql.Token`
    * `Sql.readToken?`
    * `Sql.tokens?`
    * `Sql.readIdentifier?`
    * `Sql.Reads`
    * `Sql.Parted`

  Main declarations:
    * `Sql.readToken?_quoteIdentifier`
    * `Sql.Reads.append`
    * `Sql.tokens?_eq_some_iff`
-/

namespace Factbase

namespace Sql

------------------------------------------------------------
-- Tokens
------------------------------------------------------------

/- A token of a text. -/
inductive Token where
  /- A name between quotes. -/
  | quoted (name : List Char)
  | word (cs : List Char)
  /- Any other character. -/
  | mark (c : Char)
deriving DecidableEq, Repr

/- A character between tokens. -/
def isSpacing (c : Char) : Bool :=
  c = ' ' || c = '\t' || c = '\n' || c = '\r' || c = '\x0c'

/- A character that words are made of. -/
def isWordChar (c : Char) : Bool :=
  c.isAlphanum || c = '_' || c = '$' || 0x80 ≤ c.toNat

/-
  A name up to the quote that ends it, with one quote for every
  two, and what follows.
-/
def closeQuote : List Char → Option (List Char × List Char)
  | '"' :: '"' :: cs =>
      (closeQuote cs).map fun (name, r) => ('"' :: name, r)
  | '"' :: cs => some ([], cs)
  | c :: cs => (closeQuote cs).map fun (name, r) => (c :: name, r)
  | [] => none

/- The token that a text starts with, and what follows. -/
def readToken? : List Char → Option (Token × List Char)
  | [] => none
  | c :: cs =>
      if c = '"' then
        (closeQuote cs).map fun (name, r) => (.quoted name, r)
      else if isWordChar c then
        some (.word (c :: cs.takeWhile isWordChar),
          cs.dropWhile isWordChar)
      else some (.mark c, cs)

/- The tokens of a text; each takes a character. -/
def tokensWithin : Nat → List Char → Option (List Token)
  | 0, _ => none
  | fuel + 1, cs =>
      match cs.dropWhile isSpacing with
      | [] => some []
      | r => do
          let (t, r) ← readToken? r
          let ts ← tokensWithin fuel r
          pure (t :: ts)

/- The tokens of a whole text. -/
def tokens? (text : String) : Option (List Token) :=
  tokensWithin (text.toList.length + 1) text.toList

------------------------------------------------------------
-- Identifiers
------------------------------------------------------------

/- The words that are no identifiers unless they are quoted. -/
def keywords : List String :=
  ["abort", "action", "add", "after", "all", "alter", "always",
    "analyze", "and", "as", "asc", "attach", "autoincrement",
    "before", "begin", "between", "by", "cascade", "case", "cast",
    "check", "collate", "column", "commit", "conflict",
    "constraint", "create", "cross", "current", "current_date",
    "current_time", "current_timestamp", "database", "default",
    "deferrable", "deferred", "delete", "desc", "detach",
    "distinct", "do", "drop", "each", "else", "end", "escape",
    "except", "exclude", "exclusive", "exists", "explain", "fail",
    "filter", "first", "following", "for", "foreign", "from",
    "full", "generated", "glob", "group", "groups", "having",
    "if", "ignore", "immediate", "in", "index", "indexed",
    "initially", "inner", "insert", "instead", "intersect",
    "into", "is", "isnull", "join", "key", "last", "left", "like",
    "limit", "match", "materialized", "natural", "no", "not",
    "nothing", "notnull", "null", "nulls", "of", "offset", "on",
    "or", "order", "others", "outer", "over", "partition", "plan",
    "pragma", "preceding", "primary", "query", "raise", "range",
    "recursive", "references", "regexp", "reindex", "release",
    "rename", "replace", "restrict", "returning", "right",
    "rollback", "row", "rows", "savepoint", "select", "set",
    "table", "temp", "temporary", "then", "ties", "to",
    "transaction", "trigger", "unbounded", "union", "unique",
    "update", "using", "vacuum", "values", "view", "virtual",
    "when", "where", "window", "with", "without"]

/- A word that is a keyword, in letters of any case. -/
def isKeyword (cs : List Char) : Bool :=
  keywords.any fun k => k.toList = cs.map Char.toLower

/- The name that a token is, if it is an identifier. -/
def Token.name? : Token → Option (List Char)
  | .quoted name => some name
  | .word cs => some cs
  | .mark _ => none

/-
  A token is an identifier: any name between quotes, or a word
  that starts as one and is no keyword.
-/
def Token.isIdentifier : Token → Bool
  | .quoted _ => true
  | .word cs =>
      cs.head?.all (fun c => !c.isDigit && c ≠ '$') && !isKeyword cs
  | .mark _ => false

/- The identifier that a text starts with, and what follows. -/
def readIdentifier?
    (cs : List Char) : Option (String × List Char) := do
  let (t, r) ← readToken? cs
  if t.isIdentifier then
    t.name?.map fun name => (.ofList name, r)
  else none

------------------------------------------------------------
-- Quoted Names
------------------------------------------------------------

/- Two quotes are one, and only a single one ends the name. -/
theorem closeQuote_escaped
    {rest : List Char}
    (hRest : rest.head? ≠ some '"')
    (name : List Char) :
    closeQuote (name.flatMap escapeQuote ++ '"' :: rest) =
      some (name, rest) := by
  induction name with
  | nil =>
      cases rest with
      | nil => rfl
      | cons c rest =>
          have hOther : c ≠ '"' := fun hSame =>
            hRest (congrArg some hSame)
          simp [closeQuote, hOther]
  | cons c name ih =>
      rw [List.flatMap_cons, List.append_assoc]
      by_cases hQuote : c = '"'
      · simp [escapeQuote, hQuote, closeQuote, ih]
      · simp [escapeQuote, hQuote, closeQuote, ih]

theorem readToken?_quoteIdentifier
    {rest : List Char}
    (hRest : rest.head? ≠ some '"')
    (name : String) :
    readToken? ((quoteIdentifier name).toList ++ rest) =
      some (.quoted name.toList, rest) := by
  rw [quoteIdentifier, String.toList_ofList, List.cons_append,
    List.cons_append, List.append_assoc, readToken?, if_pos rfl]
  simp [closeQuote_escaped hRest]

/- A quoted name is an identifier, whichever name it is. -/
theorem readIdentifier?_quoteIdentifier
    {rest : List Char}
    (hRest : rest.head? ≠ some '"')
    (name : String) :
    readIdentifier? ((quoteIdentifier name).toList ++ rest) =
      some (name, rest) := by
  rw [readIdentifier?, readToken?_quoteIdentifier hRest]
  simp [Token.isIdentifier, Token.name?]

------------------------------------------------------------
-- Reading One Token
------------------------------------------------------------

/- A name ends with a quote, and what follows is left as it is. -/
theorem exists_of_closeQuote
    {cs name r : List Char}
    (hClose : closeQuote cs = some (name, r)) :
    ∃ front, cs = front ++ '"' :: r := by
  induction cs using closeQuote.induct generalizing name with
  | case1 cs ih =>
      rw [closeQuote, Option.map_eq_some_iff] at hClose
      rcases hClose with ⟨⟨name, r⟩, hRest, hPair⟩
      cases hPair
      rcases ih hRest with ⟨front, rfl⟩
      exact ⟨'"' :: '"' :: front, rfl⟩
  | case2 cs hSingle =>
      rw [closeQuote] at hClose
      · cases hClose
        exact ⟨[], rfl⟩
      · exact hSingle
  | case3 c cs hDouble hSingle ih =>
      rw [closeQuote] at hClose
      · rw [Option.map_eq_some_iff] at hClose
        rcases hClose with ⟨⟨name, r⟩, hRest, hPair⟩
        cases hPair
        rcases ih hRest with ⟨front, rfl⟩
        exact ⟨c :: front, rfl⟩
      · exact hDouble
      · exact hSingle
  | case4 => cases hClose

/- A token takes some of a text and leaves the rest as it is. -/
theorem exists_of_readToken?
    {cs r : List Char}
    {t : Token}
    (hRead : readToken? cs = some (t, r)) :
    ∃ front ≠ [], cs = front ++ r := by
  cases cs with
  | nil => cases hRead
  | cons c cs =>
      rw [readToken?] at hRead
      split_ifs at hRead with hQuote hWord
      · rw [Option.map_eq_some_iff] at hRead
        rcases hRead with ⟨⟨name, r⟩, hClose, hPair⟩
        cases hPair
        rcases exists_of_closeQuote hClose with ⟨front, rfl⟩
        exact ⟨c :: front ++ ['"'], by simp, by simp⟩
      · cases hRead
        exact ⟨c :: cs.takeWhile isWordChar, by simp,
          by simp [List.takeWhile_append_dropWhile]⟩
      · cases hRead
        exact ⟨[c], by simp, rfl⟩

------------------------------------------------------------
-- Texts Apart
------------------------------------------------------------

/- A character that is no part of a word or of a quoted name. -/
def isApart (c : Char) : Bool :=
  c ≠ '"' && !isWordChar c

/-
  The last token of a text ends there, because that ends or
  what follows starts with a character apart.
-/
def Parted (cs more : List Char) : Prop :=
  (∀ c ∈ cs.getLast?, isApart c = true) ∨
    ∀ c ∈ more.head?, isApart c = true

theorem Parted.of_append
    (front : List Char)
    {cs more : List Char}
    (hParted : Parted (front ++ cs) more) : Parted cs more := by
  refine hParted.imp_left fun hLast c hMember => hLast c ?_
  rw [List.getLast?_append, Option.mem_def.mp hMember,
    Option.some_or]
  rfl

/- A name that ends with its quote is not continued. -/
theorem closeQuote_append
    {cs name r more : List Char}
    (hClose : closeQuote cs = some (name, r))
    (hEnds : r ≠ [] ∨ more.head? ≠ some '"') :
    closeQuote (cs ++ more) = some (name, r ++ more) := by
  induction cs using closeQuote.induct generalizing name with
  | case1 cs ih =>
      rw [closeQuote, Option.map_eq_some_iff] at hClose
      rcases hClose with ⟨⟨name, r⟩, hRest, hPair⟩
      cases hPair
      simp [closeQuote, ih hRest]
  | case2 cs hSingle =>
      rw [closeQuote] at hClose
      · cases hClose
        rw [List.cons_append, closeQuote]
        intro rest hSame
        cases r with
        | nil =>
            rw [List.nil_append] at hSame
            rw [hSame] at hEnds
            exact hEnds.elim (absurd rfl) (absurd rfl)
        | cons c r =>
            cases hSame
            exact hSingle r rfl
      · exact hSingle
  | case3 c cs hDouble hSingle ih =>
      rw [closeQuote] at hClose
      · rw [Option.map_eq_some_iff] at hClose
        rcases hClose with ⟨⟨name, r⟩, hRest, hPair⟩
        cases hPair
        rw [List.cons_append, closeQuote, ih hRest]
        · rfl
        · exact fun _ hQuote _ => hSingle hQuote
        · exact hSingle
      · exact hDouble
      · exact hSingle
  | case4 => cases hClose

/- A word that a text apart from it follows goes no further. -/
theorem span_append
    {c : Char}
    {cs more : List Char}
    (hWord : isWordChar c = true)
    (hParted : Parted (c :: cs) more) :
    (cs ++ more).takeWhile isWordChar = cs.takeWhile isWordChar ∧
      (cs ++ more).dropWhile isWordChar =
        cs.dropWhile isWordChar ++ more := by
  induction cs generalizing c with
  | nil =>
      have hFirst : ∀ d ∈ more.head?, isApart d = true := by
        refine hParted.resolve_left fun hLast => ?_
        have hApart := hLast c rfl
        simp [isApart, hWord] at hApart
      cases more with
      | nil => exact ⟨rfl, rfl⟩
      | cons d more =>
          have hApart := hFirst d rfl
          rw [isApart, Bool.and_eq_true, Bool.not_eq_true'] at hApart
          simp [hApart.2]
  | cons d cs ih =>
      by_cases hNext : isWordChar d = true
      · have hRest := ih hNext (hParted.of_append [c])
        simp [hNext, hRest.1, hRest.2]
      · simp [hNext]

/- What follows a token, parted from it, leaves that as it is. -/
theorem readToken?_append
    {cs r more : List Char}
    {t : Token}
    (hRead : readToken? cs = some (t, r))
    (hParted : Parted cs more) :
    readToken? (cs ++ more) = some (t, r ++ more) := by
  cases cs with
  | nil => cases hRead
  | cons c cs =>
      rw [readToken?] at hRead
      rw [List.cons_append, readToken?]
      split_ifs at hRead ⊢ with hQuote hWord
      · rw [Option.map_eq_some_iff] at hRead
        rcases hRead with ⟨⟨name, r⟩, hClose, hPair⟩
        cases hPair
        have hEnds : r ≠ [] ∨ more.head? ≠ some '"' := by
          rw [or_iff_not_imp_left, not_not]
          rintro rfl hHead
          rcases exists_of_closeQuote hClose with ⟨front, rfl⟩
          rcases hParted.of_append (c :: front) with
            hLast | hFirst
          · exact nomatch hLast '"' rfl
          · exact nomatch hFirst '"' hHead
        rw [closeQuote_append hClose hEnds]
        rfl
      · cases hRead
        rw [(span_append hWord hParted).1,
          (span_append hWord hParted).2]
      · cases hRead
        rfl

------------------------------------------------------------
-- Reading
------------------------------------------------------------

/- A text has some tokens, one after another, and no others. -/
inductive Reads : List Char → List Token → Prop where
  | blank {cs : List Char}
      (hBlank : cs.dropWhile isSpacing = []) : Reads cs []
  | token {cs r : List Char} {t : Token} {ts : List Token}
      (hFirst : readToken? (cs.dropWhile isSpacing) = some (t, r))
      (hRest : Reads r ts) : Reads cs (t :: ts)

theorem tokensWithin_succ
    {fuel : Nat}
    {cs r : List Char}
    {t : Token}
    (hFirst : readToken? (cs.dropWhile isSpacing) = some (t, r)) :
    tokensWithin (fuel + 1) cs =
      (tokensWithin fuel r).map (t :: ·) := by
  rw [tokensWithin]
  split
  · next hBlank =>
      rw [hBlank] at hFirst
      cases hFirst
  · rw [hFirst]
    cases hRest : tokensWithin fuel r <;> simp [hRest]

/- The fuel lasts, because each token takes a character. -/
theorem Reads.tokensWithin_eq
    {cs : List Char}
    {ts : List Token}
    (hReads : Reads cs ts)
    {fuel : Nat}
    (hFuel : cs.length < fuel) :
    tokensWithin fuel cs = some ts := by
  induction hReads generalizing fuel with
  | @blank cs hBlank =>
      cases fuel with
      | zero => cases hFuel
      | succ fuel => rw [tokensWithin, hBlank]
  | @token cs r t ts hFirst hRest ih =>
      cases fuel with
      | zero => cases hFuel
      | succ fuel =>
          rcases exists_of_readToken? hFirst with
            ⟨front, hFront, hSplit⟩
          have hShort : r.length < fuel := by
            have hPos := List.length_pos_iff.mpr hFront
            have hLength := congrArg List.length hSplit
            have hSuffix := (List.dropWhile_suffix
              (p := isSpacing) (l := cs)).length_le
            rw [List.length_append] at hLength
            omega
          rw [tokensWithin_succ hFirst, ih hShort, Option.map_some]

theorem reads_of_tokensWithin
    {fuel : Nat}
    {cs : List Char}
    {ts : List Token}
    (hTokens : tokensWithin fuel cs = some ts) : Reads cs ts := by
  induction fuel generalizing cs ts with
  | zero => cases hTokens
  | succ fuel ih =>
      cases hFirst : readToken? (cs.dropWhile isSpacing) with
      | none =>
          rw [tokensWithin] at hTokens
          split at hTokens
          · cases hTokens
            exact .blank ‹_›
          · rw [hFirst] at hTokens
            cases hTokens
      | some read =>
          rcases read with ⟨t, r⟩
          rw [tokensWithin_succ hFirst, Option.map_eq_some_iff]
            at hTokens
          rcases hTokens with ⟨ts, hRest, rfl⟩
          exact .token hFirst (ih hRest)

theorem tokens?_eq_some_iff
    {text : String}
    {ts : List Token} :
    tokens? text = some ts ↔ Reads text.toList ts :=
  ⟨reads_of_tokensWithin, fun hReads =>
    hReads.tokensWithin_eq (Nat.lt_succ_self _)⟩

/- A text that is one token from its start to its end. -/
theorem tokens?_of_readToken?
    {text : String}
    {t : Token}
    (hRead : readToken? text.toList = some (t, []))
    (hStart : text.toList.dropWhile isSpacing = text.toList) :
    tokens? text = some [t] :=
  tokens?_eq_some_iff.mpr
    (.token (hStart.symm ▸ hRead) (.blank rfl))

/- The tokens of two texts that are parted from each other. -/
theorem Reads.append
    {cs more : List Char}
    {ts us : List Token}
    (hReads : Reads cs ts)
    (hMore : Reads more us)
    (hParted : Parted cs more) :
    Reads (cs ++ more) (ts ++ us) := by
  induction hReads with
  | @blank cs hBlank =>
      have hSkip : (cs ++ more).dropWhile isSpacing =
          more.dropWhile isSpacing := by
        rw [List.dropWhile_append, hBlank]
        rfl
      cases hMore with
      | blank hRest => exact .blank (hSkip.trans hRest)
      | token hFirst hRest =>
          exact .token (hSkip ▸ hFirst) hRest
  | @token cs r t ts hFirst hRest ih =>
      rcases exists_of_readToken? hFirst with ⟨front, hFront, hSplit⟩
      have hSkip : (cs ++ more).dropWhile isSpacing =
          cs.dropWhile isSpacing ++ more := by
        rw [List.dropWhile_append, hSplit]
        simp [hFront]
      have hLast : Parted (cs.dropWhile isSpacing) more := by
        apply Parted.of_append (cs.takeWhile isSpacing)
        rwa [List.takeWhile_append_dropWhile]
      refine .token (r := r ++ more) ?_ (ih ?_)
      · rw [hSkip]
        exact readToken?_append hFirst hLast
      · rw [hSplit] at hLast
        exact hLast.of_append front

end Sql

end Factbase
