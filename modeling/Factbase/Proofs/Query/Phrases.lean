import Factbase.Proofs.Query.Tokens
import Factbase.Proofs.Store.Actions
import Factbase.Store.Sql

/-
  The tables that an SQL text addresses.

  The name of a table comes after certain words.  Ahead of what
  it does, a statement can define sets of its own by names, and
  such a name is then no longer that of a table.

  A phrase is a text about a collection whose tokens are those
  of one frame with the name of the collection in it.  Phrases
  are put together from words and from the quoted name, as long
  as the tokens of one do not run into those of the next.

  Key definitions include:
    * `Sql.Place`
    * `Sql.definitions`
    * `Sql.addressed`
    * `Sql.tables?`
    * `Sql.Framed`
    * `Sql.IsPhrase`
    * `Sql.NamesTable`

  Main declarations:
    * `Sql.IsPhrase.append`
    * `Sql.isPhrase_table`
    * `Sql.addressed_eq`
    * `Sql.NamesTable.tables?_eq`
-/

namespace Factbase

namespace Sql

------------------------------------------------------------
-- Places
------------------------------------------------------------

/- A token is a word, in letters of any case. -/
def Token.isWord
    (t : Token)
    (w : String) : Bool :=
  match t with
  | .word cs => cs.map Char.toLower = w.toList
  | _ => false

/- What is known where a token stands. -/
structure Place where
  /- The words that the name of a table comes after. -/
  cues : List String
  /- The token before is one of these words. -/
  expected : Bool
  /- How many parentheses are open. -/
  depth : Nat
  /- The statement has not yet said what it does. -/
  pending : Bool
deriving DecidableEq, Repr

namespace Place

/- A place in what a statement does. -/
def within (depth : Nat) : Place :=
  ⟨["from", "join", "into"], false, depth, false⟩

/- A place ahead of that. -/
def ahead (depth : Nat) : Place :=
  { within depth with pending := true }

/- The same where the name of a table is expected. -/
def naming (p : Place) : Place :=
  { p with expected := true }

/-
  The place after a token.  Statements that make a table or an
  index name the table after words of their own.
-/
def next (p : Place) (t : Token) : Place :=
  { cues :=
      if t.isWord "table" then ["exists"]
      else if t.isWord "index" then ["on"]
      else p.cues,
    expected := p.cues.any t.isWord,
    depth :=
      if t = .mark '(' then p.depth + 1
      else if t = .mark ')' then p.depth - 1
      else p.depth,
    pending := p.pending && !(p.depth = 0 &&
      ["create", "insert", "delete", "select"].any t.isWord) }

def after (p : Place) (ts : List Token) : Place :=
  ts.foldl next p

/- A token is the name of a table. -/
def isNamed (p : Place) (t : Token) : Bool :=
  p.expected && t.name?.isSome

/-
  A token comes before what a statement does, and is outside of
  parentheses or one of the outermost.
-/
def isAhead (p : Place) (t : Token) : Bool :=
  (p.next t).pending &&
    (p.depth = 0 || p.depth = 1 && t = .mark ')')

theorem after_append
    (p : Place)
    (ts us : List Token) :
    p.after (ts ++ us) = (p.after ts).after us :=
  List.foldl_append

end Place

/- The tokens that are kept for where they stand. -/
def collect
    (keep : Place → Token → Bool)
    (p : Place) : List Token → List Token
  | [] => []
  | t :: ts =>
      if keep p t then t :: collect keep (p.next t) ts
      else collect keep (p.next t) ts

/-
  What is kept of the later tokens depends on the place that the
  earlier ones lead to.
-/
theorem collect_append
    (keep : Place → Token → Bool)
    (p : Place)
    (ts us : List Token) :
    collect keep p (ts ++ us) =
      collect keep p ts ++ collect keep (p.after ts) us := by
  induction ts generalizing p with
  | nil => rfl
  | cons t ts ih =>
      rw [List.cons_append, collect, collect, ih]
      split_ifs <;> rfl

------------------------------------------------------------
-- Tables of a Text
------------------------------------------------------------

/-
  The names of the sets that are defined outside of parentheses,
  where columns and what a set is are left out.
-/
def definitions : List Token → List (List Char)
  | [] => []
  | t :: ts =>
      (match ts with
        | .mark '(' :: .mark ')' :: w :: .mark '(' :: _ =>
            if w.isWord "as" then t.name?.toList else []
        | w :: .mark '(' :: _ =>
            if w.isWord "as" then t.name?.toList else []
        | _ => []) ++ definitions ts

/-
  The names of tables, each once.  A name that a statement itself
  defines is not that of a table, in letters of any case.
-/
def addressed (own named : List (List Char)) : List (List Char) :=
  (named.filter fun n => !(own.map (List.map Char.toLower)).contains
    (n.map Char.toLower)).eraseDups

/- The tables that a text addresses. -/
def tables? (text : String) : Option (List String) :=
  (tokens? text).map fun ts =>
    (addressed (definitions (collect Place.isAhead (.ahead 0) ts))
      ((collect Place.isNamed (.ahead 0) ts).filterMap
        Token.name?)).map String.ofList

/- Many times the same is the same once. -/
theorem eraseDups_of_forall_eq
    {xs : List (List Char)}
    {x : List Char}
    (hMember : x ∈ xs)
    (hAll : ∀ y ∈ xs, y = x) : xs.eraseDups = [x] := by
  cases xs with
  | nil => cases hMember
  | cons y xs =>
      rw [List.forall_mem_cons] at hAll
      have hRest : xs.filter (fun z => !z == y) = [] := by
        rw [List.filter_eq_nil_iff]
        intro z hRest
        simp [hAll.1, hAll.2 z hRest]
      rw [List.eraseDups_cons, hRest, List.eraseDups_nil, hAll.1]

/- Where only one name is not defined, that is the table. -/
theorem addressed_eq
    {own : List String}
    {named : List (List Char)}
    {name : String}
    (hLower : ∀ o ∈ own, foldName o = o)
    (hMember : name.toList ∈ named)
    (hNamed : ∀ n ∈ named,
      n = name.toList ∨ ∃ o ∈ own, n = o.toList) :
    addressed (own.map String.toList) named =
      if foldName name ∈ own then [] else [name.toList] := by
  have hFree : ∀ n : String,
      (!((own.map String.toList).map (List.map Char.toLower)).contains
        (n.toList.map Char.toLower)) = true ↔ foldName n ∉ own := by
    intro n
    have hOwn : (own.map String.toList).map (List.map Char.toLower) =
        own.map String.toList := by
      rw [List.map_map]
      apply List.map_congr_left
      intro o hOwn
      rw [Function.comp_apply, ← toList_foldName, hLower o hOwn]
    rw [hOwn, ← toList_foldName, Bool.not_eq_true',
      ← Bool.not_eq_true, List.contains_iff_mem,
      List.mem_map_of_injective]
    exact fun a b => String.toList_inj.mp
  have hOwn : ∀ o ∈ own, ¬ foldName o ∉ own := by
    intro o hOwn
    rw [hLower o hOwn]
    exact not_not_intro hOwn
  rw [addressed]
  by_cases hDefined : foldName name ∈ own
  · rw [if_pos hDefined, List.filter_eq_nil_iff.mpr, List.eraseDups_nil]
    intro n hMember
    rcases hNamed n hMember with rfl | ⟨o, hSet, rfl⟩
    · rw [hFree name]
      exact not_not_intro hDefined
    · rw [hFree o]
      exact hOwn o hSet
  · rw [if_neg hDefined]
    apply eraseDups_of_forall_eq
    · exact List.mem_filter.mpr ⟨hMember, (hFree name).mpr hDefined⟩
    · intro n hKept
      rcases List.mem_filter.mp hKept with ⟨hMember, hOther⟩
      rcases hNamed n hMember with hTable | ⟨o, hSet, rfl⟩
      · exact hTable
      · exact absurd ((hFree o).mp hOther) (hOwn o hSet)

------------------------------------------------------------
-- Frames
------------------------------------------------------------

/- A part of a statement about a collection. -/
inductive Piece where
  /- A token that is the same for all collections. -/
  | fixed (t : Token)
  | table
  | index
  | constraint
deriving DecidableEq, Repr

/- The name of a set that the statement defines. -/
def Piece.set (name : String) : Piece :=
  .fixed (.word name.toList)

/- The token of a part, for a collection. -/
def Piece.token (collection : String) : Piece → Token
  | .fixed t => t
  | .table => .quoted collection.toList
  | .index => .quoted (indexName collection).toList
  | .constraint => .word (constraintName collection).toList

/- The tokens of a frame, for a collection. -/
def filled
    (frame : List Piece)
    (collection : String) : List Token :=
  frame.map (Piece.token collection)

theorem filled_append
    (first second : List Piece)
    (collection : String) :
    filled (first ++ second) collection =
      filled first collection ++ filled second collection :=
  List.map_append

/- Words of its own are the same for every collection. -/
theorem filled_fixed
    (ts : List Token)
    (collection : String) :
    filled (ts.map .fixed) collection = ts := by
  simp [filled, Function.comp_def, Piece.token]

/-
  The tokens of a text about a collection are those of a frame
  with the collection in it, whatever that is called.
-/
def Framed
    (text : String → String)
    (frame : List Piece) : Prop :=
  ∀ name, validateCollection name = .ok () →
    tokens? (text name) = some (filled frame name)

------------------------------------------------------------
-- Phrases
------------------------------------------------------------

/-
  Between two places, tokens have some that name tables and some
  that stand outside before what the statement does.
-/
structure Scans
    (p : Place)
    (ts : List Token)
    (q : Place)
    (named out : List Token) : Prop where
  place : p.after ts = q
  named : collect Place.isNamed p ts = named
  out : collect Place.isAhead p ts = out

instance
    (p q : Place)
    (ts named out : List Token) :
    Decidable (Scans p ts q named out) :=
  decidable_of_iff
    (p.after ts = q ∧ collect Place.isNamed p ts = named ∧
      collect Place.isAhead p ts = out)
    ⟨fun h => ⟨h.1, h.2.1, h.2.2⟩, fun h => ⟨h.1, h.2, h.3⟩⟩

/- Two scans are one if the second starts where the first ends. -/
theorem Scans.append
    {p q r : Place}
    {ts us named named' out out' : List Token}
    (hFirst : Scans p ts q named out)
    (hSecond : Scans q us r named' out') :
    Scans p (ts ++ us) r (named ++ named') (out ++ out') := by
  constructor
  · rw [Place.after_append, hFirst.place, hSecond.place]
  · rw [collect_append, hFirst.named, hFirst.place, hSecond.named]
  · rw [collect_append, hFirst.out, hFirst.place, hSecond.out]

/-
  A text about a collection has a frame with some parts that
  name tables, and some tokens before what it does.
-/
def IsPhrase
    (text : String → String)
    (p q : Place)
    (named : List Piece)
    (out : List Token) : Prop :=
  ∃ frame, Framed text frame ∧ ∀ name,
    Scans p (filled frame name) q (filled named name) out

/- What is found in words that are the same for all names. -/
def isScanned
    (text : String)
    (p q : Place)
    (named out : List Token) : Bool :=
  (tokens? text).any fun ts => Scans p ts q named out

/- Words that are scanned are a phrase for every collection. -/
theorem isPhrase_scanned
    {text : String}
    {p q : Place}
    {named out : List Token}
    (hScan : isScanned text p q named out = true) :
    IsPhrase (fun _ => text) p q (named.map .fixed) out := by
  rcases (Option.any_eq_true _ _).mp hScan with ⟨ts, hSome, hScans⟩
  refine ⟨ts.map .fixed, fun name _ => ?_, fun name => ?_⟩
  · rw [hSome, filled_fixed]
  · rw [filled_fixed, filled_fixed]
    exact of_decide_eq_true hScans

/- Words that name no table. -/
theorem isPhrase_unnamed
    {text : String}
    {p q : Place}
    {out : List Token}
    (hScan : isScanned text p q [] out = true) :
    IsPhrase (fun _ => text) p q [] out :=
  isPhrase_scanned hScan

/- Words that define nothing either. -/
theorem isPhrase_words
    {text : String}
    {p q : Place}
    (hScan : isScanned text p q [] [] = true) :
    IsPhrase (fun _ => text) p q [] [] :=
  isPhrase_unnamed hScan

/- Words that name one set, which the statement defines. -/
theorem isPhrase_set
    {text set : String}
    {p q : Place}
    (hScan : isScanned text p q [.word set.toList] [] = true) :
    IsPhrase (fun _ => text) p q [.set set] [] :=
  isPhrase_scanned hScan

/- A quoted name is one token, whatever it is made of. -/
theorem tokens?_quoteIdentifier (name : String) :
    tokens? (quoteIdentifier name) = some [.quoted name.toList] := by
  have hEnd : ([] : List Char).head? ≠ some '"' := nofun
  have hRead := readToken?_quoteIdentifier hEnd name
  rw [List.append_nil] at hRead
  apply tokens?_of_readToken? hRead
  rw [quoteIdentifier, String.toList_ofList]
  rfl

/- The quoted name of the table, where one is expected. -/
theorem isPhrase_quoteIdentifier
    {p q : Place}
    (hScans : ∀ cs : List Char,
      Scans p [.quoted cs] q [.quoted cs] []) :
    IsPhrase quoteIdentifier p q [.table] [] :=
  ⟨[.table], fun name _ => tokens?_quoteIdentifier name,
    fun name => hScans name.toList⟩

/- The quoted name of the table in what a statement does. -/
theorem isPhrase_table (depth : Nat) :
    IsPhrase quoteIdentifier (Place.within depth).naming
      (.within depth) [.table] [] :=
  isPhrase_quoteIdentifier fun _ => ⟨rfl, rfl, rfl⟩

/- The same in parentheses ahead of what a statement does. -/
theorem isPhrase_table_ahead :
    IsPhrase quoteIdentifier (Place.ahead 1).naming (.ahead 1)
      [.table] [] :=
  isPhrase_quoteIdentifier fun _ => ⟨rfl, rfl, rfl⟩

/- A text starts with a character apart from what comes before. -/
def startsApart (text : String) : Bool :=
  text.toList.head?.any isApart

/- A text ends with a character apart from what comes after. -/
def endsApart (text : String) : Bool :=
  text.toList.getLast?.any isApart

/- What stands in front does not matter to the end. -/
theorem endsApart_append
    {text : String}
    (hEnds : endsApart text = true)
    (front : String) : endsApart (front ++ text) = true := by
  rw [endsApart, Option.any_eq_true] at *
  rcases hEnds with ⟨c, hLast, hApart⟩
  refine ⟨c, ?_, hApart⟩
  rw [String.toList_append, List.getLast?_append, hLast,
    Option.some_or]

/- What follows does not matter to the start. -/
theorem startsApart_append
    {text : String}
    (hStarts : startsApart text = true)
    (more : String) : startsApart (text ++ more) = true := by
  rw [startsApart, Option.any_eq_true] at *
  rcases hStarts with ⟨c, hFirst, hApart⟩
  refine ⟨c, ?_, hApart⟩
  rw [String.toList_append, List.head?_append, hFirst,
    Option.some_or]

theorem parted_of_endsApart
    {text : String}
    (hEnds : endsApart text = true)
    (more : List Char) : Parted text.toList more := by
  rw [endsApart, Option.any_eq_true] at hEnds
  rcases hEnds with ⟨c, hLast, hApart⟩
  refine .inl fun d hMember => ?_
  rw [hLast] at hMember
  cases hMember
  exact hApart

theorem parted_of_startsApart
    {text : String}
    (hStarts : startsApart text = true)
    (front : List Char) : Parted front text.toList := by
  rw [startsApart, Option.any_eq_true] at hStarts
  rcases hStarts with ⟨c, hFirst, hApart⟩
  refine .inr fun d hMember => ?_
  rw [hFirst] at hMember
  cases hMember
  exact hApart

section Append

variable {f g : String → String}
variable {p q r : Place}
variable {named named' : List Piece}
variable {out out' : List Token}

/-
  Phrases are put together if the tokens of one do not run into
  those of the next.
-/
theorem IsPhrase.append
    (hFirst : IsPhrase f p q named out)
    (hSecond : IsPhrase g q r named' out')
    (hParted : ∀ name, Parted (f name).toList (g name).toList) :
    IsPhrase (fun name => f name ++ g name) p r
      (named ++ named') (out ++ out') := by
  rcases hFirst with ⟨frame, hFrame, hScans⟩
  rcases hSecond with ⟨frame', hFrame', hScans'⟩
  refine ⟨frame ++ frame', fun name hName => ?_, fun name => ?_⟩
  · have hReads := tokens?_eq_some_iff.mp (hFrame name hName)
    have hReads' := tokens?_eq_some_iff.mp (hFrame' name hName)
    rw [tokens?_eq_some_iff, String.toList_append, filled_append]
    exact hReads.append hReads' (hParted name)
  · rw [filled_append, filled_append]
    exact (hScans name).append (hScans' name)

theorem IsPhrase.of_eq
    (hPhrase : IsPhrase f p q named out)
    (hNamed : named = named')
    (hOut : out = out') : IsPhrase f p q named' out' :=
  hNamed ▸ hOut ▸ hPhrase

/- What ends apart may go before anything. -/
theorem IsPhrase.before
    (hFirst : IsPhrase f p q named out)
    (hEnds : ∀ name, endsApart (f name) = true)
    (hSecond : IsPhrase g q r named' out') :
    IsPhrase (fun name => f name ++ g name) p r
      (named ++ named') (out ++ out') :=
  hFirst.append hSecond fun name =>
    parted_of_endsApart (hEnds name) _

/- In particular, what ends with words that do. -/
theorem IsPhrase.next
    {text : String}
    (hFirst : IsPhrase (fun name => f name ++ text) p q named out)
    (hEnds : endsApart text = true)
    (hSecond : IsPhrase g q r named' out') :
    IsPhrase (fun name => f name ++ text ++ g name) p r
      (named ++ named') (out ++ out') :=
  hFirst.before (fun name => endsApart_append hEnds (f name)) hSecond

/- What starts apart may come after anything. -/
theorem IsPhrase.andThen
    (hFirst : IsPhrase f p q named out)
    (hStarts : ∀ name, startsApart (g name) = true)
    (hSecond : IsPhrase g q r named' out') :
    IsPhrase (fun name => f name ++ g name) p r
      (named ++ named') (out ++ out') :=
  hFirst.append hSecond fun name =>
    parted_of_startsApart (hStarts name) _

/- Words that start apart may come after any phrase. -/
theorem IsPhrase.plain
    {text : String}
    (hFirst : IsPhrase f p q named out)
    (hStarts : startsApart text = true)
    (hScan : isScanned text q r [] [] = true) :
    IsPhrase (fun name => f name ++ text) p r named out :=
  (hFirst.andThen (fun _ => hStarts) (isPhrase_words hScan)).of_eq
    (List.append_nil _) (List.append_nil _)

end Append

------------------------------------------------------------
-- Names of the Table
------------------------------------------------------------

/-
  A text about a collection names its table, and besides that
  only sets that it defines itself.
-/
def NamesTable
    (text : String → String)
    (own : List String) : Prop :=
  ∃ (q : Place) (named : List Piece) (out : List Token),
    IsPhrase text (.ahead 0) q named out ∧
      .table ∈ named ∧
      named ⊆ .table :: own.map .set ∧
      definitions out = own.map String.toList

/- A text without sets of its own names the table once. -/
theorem IsPhrase.namesTable
    {text : String → String}
    {q : Place}
    (hPhrase : IsPhrase text (.ahead 0) q [.table] []) :
    NamesTable text [] :=
  ⟨q, _, _, hPhrase, by simp, by simp, rfl⟩

/- The table stands between words that are the same for all. -/
theorem namesTable_between
    {front back : String}
    (depth : Nat)
    (hFront : isScanned front (.ahead 0) (Place.within depth).naming
      [] [] = true)
    (hEnds : endsApart front = true)
    (hStarts : startsApart back = true)
    (hBack : isScanned back (.within depth) (.within 0)
      [] [] = true) :
    NamesTable (fun name => front ++ quoteIdentifier name ++ back)
      [] :=
  IsPhrase.namesTable (isPhrase_words hFront
    |>.before (fun _ => hEnds) (isPhrase_table depth)
    |>.plain hStarts hBack)

/-
  A text that names its table addresses that table alone, unless
  it defines the name itself, when it addresses none.
-/
theorem NamesTable.tables?_eq
    {text : String → String}
    {own : List String}
    (hNames : NamesTable text own)
    (hLower : ∀ o ∈ own, foldName o = o)
    {name : String}
    (hName : validateCollection name = .ok ()) :
    tables? (text name) =
      some (if foldName name ∈ own then [] else [name]) := by
  rcases hNames with
    ⟨q, named, out, ⟨frame, hFrame, hScans⟩, hTable, hNamed,
      hDefined⟩
  have hMember : name.toList ∈
      (filled named name).filterMap Token.name? :=
    List.mem_filterMap.mpr ⟨_, List.mem_map_of_mem hTable, rfl⟩
  have hOthers : ∀ n ∈ (filled named name).filterMap Token.name?,
      n = name.toList ∨ ∃ o ∈ own, n = o.toList := by
    intro n hMember
    rcases List.mem_filterMap.mp hMember with ⟨t, hToken, hSome⟩
    rcases List.mem_map.mp hToken with ⟨x, hPiece, rfl⟩
    rcases List.mem_cons.mp (hNamed hPiece) with rfl | hSet
    · exact .inl (Option.some.inj hSome).symm
    · rcases List.mem_map.mp hSet with ⟨o, hOwn, rfl⟩
      exact .inr ⟨o, hOwn, (Option.some.inj hSome).symm⟩
  rw [tables?, hFrame name hName, Option.map_some,
    (hScans name).named, (hScans name).out, hDefined,
    addressed_eq hLower hMember hOthers]
  split_ifs
  · rfl
  · rw [List.map_singleton, String.ofList_toList]

/- A text that names its table has one frame for all names. -/
theorem NamesTable.framed
    {text : String → String}
    {own : List String}
    (hNames : NamesTable text own) :
    ∃ frame, Framed text frame := by
  rcases hNames with ⟨q, named, out, ⟨frame, hFrame, _⟩, _⟩
  exact ⟨frame, hFrame⟩

end Sql

end Factbase
