import Factbase.Proofs.Query.Tables
import Factbase.Proofs.Store.Openings

/-
  The statements of a collection, and the one table of theirs.

  The name of a collection is spelled in three ways: quoted with
  doubled quotes in queries and writes, between quotes as it is
  where its table is made, and inside of the plain name of a
  constraint.  All of them read back as what they stand for, and
  every statement addresses the table of that name.  The only
  statements that do not are those that define a set of the same
  name for themselves.

  Key definitions include:
    * `CollectionStatement`
    * `CollectionStatement.text`
    * `CollectionStatement.ownNames`

  Main declarations:
    * `Sql.betweenQuotes_eq`
    * `Sql.readIdentifier?_constraintName`
    * `CollectionStatement.namesTable`
    * `CollectionStatement.addresses_collection`
-/

namespace Factbase

namespace Sql

------------------------------------------------------------
-- Valid Names
------------------------------------------------------------

variable {name : String}

theorem isIdentifier_of_valid
    (hName : validateCollection name = .ok ()) :
    isIdentifier name = true := by
  rw [validateCollection] at hName
  split_ifs at hName with hValid
  rw [Bool.and_eq_true] at hValid
  exact hValid.1

/- A valid name is made of letters, digits and underscores. -/
theorem plain_of_valid
    (hName : validateCollection name = .ok ()) :
    ∀ c ∈ name.toList, c.isAlphanum = true ∨ c = '_' := by
  have hIdentifier := isIdentifier_of_valid hName
  rw [isIdentifier] at hIdentifier
  cases hChars : name.toList with
  | nil => exact nofun
  | cons first cs =>
      simp only [hChars, Bool.and_eq_true, List.all_eq_true]
        at hIdentifier
      intro c hMember
      rcases List.mem_cons.mp hMember with rfl | hLater
      · have hFirst := hIdentifier.1
        simp only [startsIdentifier, Bool.or_eq_true,
          decide_eq_true_eq] at hFirst
        exact hFirst.imp_left fun hAlpha => by
          rw [Char.isAlphanum, hAlpha, Bool.true_or]
      · have hPart := hIdentifier.2 c hLater
        simp only [startsIdentifier, Bool.or_eq_true,
          decide_eq_true_eq] at hPart
        rcases hPart with (hAlpha | hLine) | hDigit
        · exact .inl (by rw [Char.isAlphanum, hAlpha, Bool.true_or])
        · exact .inr hLine
        · exact .inl (by rw [Char.isAlphanum, hDigit, Bool.or_true])

theorem isWordChar_of_valid
    (hName : validateCollection name = .ok ()) :
    ∀ c ∈ name.toList, isWordChar c = true := by
  intro c hMember
  rw [isWordChar]
  rcases plain_of_valid hName c hMember with hPlain | hLine
  · simp [hPlain]
  · simp [hLine]

/- Without quotes, a name is quoted by putting it between them. -/
theorem betweenQuotes_of_unquoted
    (hPlain : '"' ∉ name.toList) :
    betweenQuotes name = quoteIdentifier name := by
  have hEscaped : name.toList.flatMap escapeQuote = name.toList := by
    have hSelf : ∀ c ∈ name.toList, escapeQuote c = [c] := by
      intro c hMember
      have hOther : c ≠ '"' := fun hSame => hPlain (hSame ▸ hMember)
      rw [escapeQuote, if_neg hOther]
    rw [List.flatMap_congr hSelf, List.flatMap_singleton']
  rw [betweenQuotes, quoteIdentifier, hEscaped, ← String.toList_inj]
  simp

/- So a valid name is quoted as it is. -/
theorem betweenQuotes_eq
    (hName : validateCollection name = .ok ()) :
    betweenQuotes name = quoteIdentifier name := by
  apply betweenQuotes_of_unquoted
  intro hQuote
  exact absurd (isWordChar_of_valid hName _ hQuote) (by decide)

theorem betweenQuotes_indexName
    (hName : validateCollection name = .ok ()) :
    betweenQuotes (indexName name) =
      quoteIdentifier (indexName name) := by
  apply betweenQuotes_of_unquoted
  rw [indexName, String.toList_append, List.mem_append]
  rintro (hQuote | hQuote)
  · exact absurd (isWordChar_of_valid hName _ hQuote) (by decide)
  · exact absurd hQuote (by decide)

------------------------------------------------------------
-- Constraints
------------------------------------------------------------

theorem toList_constraintName (name : String) :
    (constraintName name).toList =
      'u' :: ("nique_".toList ++ name.toList ++ "_triple".toList) := by
  simp [constraintName]

/- The name of a constraint starts as no keyword does. -/
theorem isKeyword_constraintName (name : String) :
    isKeyword (constraintName name).toList = false := by
  have hStart : (constraintName name).toList.map Char.toLower =
      "unique_".toList
        ++ (name.toList ++ "_triple".toList).map Char.toLower := by
    simp [constraintName]
  have hOthers : ∀ k ∈ keywords,
      "unique_".toList.isPrefixOf k.toList = false := by
    decide +kernel
  rw [isKeyword, List.any_eq_false]
  intro k hKeyword hSame
  have hPrefix : "unique_".toList.isPrefixOf k.toList = true := by
    rw [of_decide_eq_true hSame, hStart, List.isPrefixOf_iff_prefix]
    exact List.prefix_append _ _
  rw [hOthers k hKeyword] at hPrefix
  cases hPrefix

/- The characters of the name do not end the word. -/
theorem readToken?_constraintName
    (hName : validateCollection name = .ok ())
    {rest : List Char}
    (hRest : ∀ c ∈ rest.head?, isWordChar c = false) :
    readToken? ((constraintName name).toList ++ rest) =
      some (.word (constraintName name).toList, rest) := by
  have hFrontWord : "nique_".toList.all isWordChar = true := by
    decide
  have hEndWord : "_triple".toList.all isWordChar = true := by
    decide
  have hWord : ∀ c ∈ "nique_".toList ++ name.toList
      ++ "_triple".toList, isWordChar c = true := by
    intro c hMember
    rw [List.mem_append, List.mem_append] at hMember
    rcases hMember with (hFront | hName') | hEnd
    · exact List.all_eq_true.mp hFrontWord c hFront
    · exact isWordChar_of_valid hName c hName'
    · exact List.all_eq_true.mp hEndWord c hEnd
  have hEnd : rest.takeWhile isWordChar = [] ∧
      rest.dropWhile isWordChar = rest := by
    cases rest with
    | nil => exact ⟨rfl, rfl⟩
    | cons c rest => simp [hRest c rfl]
  rw [toList_constraintName, List.cons_append, readToken?,
    if_neg (by decide), if_pos (by decide),
    List.takeWhile_append_of_pos hWord,
    List.dropWhile_append_of_pos hWord, hEnd.1, hEnd.2,
    List.append_nil]

/- The name of a constraint is one plain identifier. -/
theorem readIdentifier?_constraintName
    (hName : validateCollection name = .ok ())
    {rest : List Char}
    (hRest : ∀ c ∈ rest.head?, isWordChar c = false) :
    readIdentifier? ((constraintName name).toList ++ rest) =
      some (constraintName name, rest) := by
  have hIdentifier : (Token.word
      (constraintName name).toList).isIdentifier = true := by
    rw [Token.isIdentifier, isKeyword_constraintName,
      toList_constraintName]
    rfl
  rw [readIdentifier?, readToken?_constraintName hName hRest]
  simp [hIdentifier, Token.name?]

------------------------------------------------------------
-- Making and Changing
------------------------------------------------------------

/- Texts that are the same for valid names are the same phrase. -/
theorem IsPhrase.congr
    {f g : String → String}
    {p q : Place}
    {named : List Piece}
    {out : List Token}
    (hPhrase : IsPhrase g p q named out)
    (hText : ∀ name, validateCollection name = .ok () →
      f name = g name) : IsPhrase f p q named out := by
  rcases hPhrase with ⟨frame, hFrame, hScans⟩
  refine ⟨frame, fun name hName => ?_, hScans⟩
  rw [hText name hName]
  exact hFrame name hName

/- The place in what a statement does, after words of its own. -/
def Place.making (cue : String) (depth : Nat) : Place :=
  ⟨[cue], false, depth, false⟩

/- The name of the table where a statement makes or indexes it. -/
theorem isPhrase_betweenQuotes
    {cue : String}
    (hCue : cue = "exists" ∨ cue = "on") :
    IsPhrase betweenQuotes (Place.making cue 0).naming
      (.making cue 0) [.table] [] := by
  refine IsPhrase.congr ?_ fun name hName => betweenQuotes_eq hName
  rcases hCue with rfl | rfl <;>
    exact isPhrase_quoteIdentifier fun _ => ⟨rfl, rfl, rfl⟩

/- The name of the index of a collection, which is no table. -/
theorem isPhrase_indexName :
    IsPhrase (fun name => betweenQuotes (indexName name))
      (.making "on" 0) (.making "on" 0) [] [] := by
  have hQuoted : IsPhrase
      (fun name => quoteIdentifier (indexName name))
      (.making "on" 0) (.making "on" 0) [] [] :=
    ⟨[.index], fun name _ => tokens?_quoteIdentifier _,
      fun _ => ⟨rfl, rfl, rfl⟩⟩
  exact hQuoted.congr fun name hName => betweenQuotes_indexName hName

/-
  The name of a constraint, which is no table and no word that a
  table comes after.
-/
theorem isPhrase_constraintName :
    IsPhrase constraintName
      (.making "exists" 1) (.making "exists" 1) [] [] := by
  refine ⟨[.constraint], fun name hName => ?_, fun name => ?_⟩
  · have hEnd : ∀ c ∈ ([] : List Char).head?,
        isWordChar c = false := nofun
    have hRead := readToken?_constraintName hName hEnd
    rw [List.append_nil] at hRead
    apply tokens?_of_readToken? hRead
    rw [toList_constraintName]
    rfl
  · have hOther : ∀ w ∈ ["table", "index", "exists"],
        (Token.word (constraintName name).toList).isWord w =
          false := by
      simp [Token.isWord, toList_constraintName]
    constructor
    · simp [filled, Piece.token, Place.after, Place.next,
        Place.making, hOther]
    · simp [filled, Piece.token, collect, Place.isNamed,
        Place.making]
    · simp [filled, Piece.token, collect, Place.isAhead, Place.next,
        Place.making]

/- The table is named where it is made and where it is indexed. -/
theorem isPhrase_migrate :
    IsPhrase migrate (.ahead 0) (.making "on" 0)
      [.table, .table] [] := by
  unfold migrate
  exact isPhrase_words (by decide)
    |>.before (fun _ => by decide) (isPhrase_betweenQuotes (.inl rfl))
    -- the columns, at depth 1
    |>.plain (q := .making "exists" 0) (r := .making "exists" 1)
      (by decide) (by decide)
    |>.plain (r := .making "exists" 1) (by decide) (by decide)
    |>.plain (r := .making "exists" 1) (by decide) (by decide)
    |>.plain (by decide) (by decide)
    |>.next (by decide) isPhrase_constraintName
    -- the key, at depth 2
    |>.plain (r := .making "exists" 2) (by decide) (by decide)
    |>.plain (r := .making "exists" 2) (by decide) (by decide)
    |>.plain (r := .making "exists" 0) (by decide) (by decide)
    |>.plain (by decide) (by decide)
    |>.next (by decide) isPhrase_indexName
    |>.plain (by decide) (by decide)
    |>.next (by decide) (isPhrase_betweenQuotes (.inr rfl))
    |>.plain (r := .making "on" 0) (by decide) (by decide)
    |>.plain (by decide) (by decide)

/- The text that makes a collection names its table. -/
theorem namesTable_migrate : NamesTable migrate [] :=
  ⟨_, _, _, isPhrase_migrate, by simp, by simp, rfl⟩

theorem namesTable_get : NamesTable get [] := by
  have hOrder : IsPhrase (fun _ => "order by value limit 1")
      (.within 0) (.within 0) [] [] :=
    isPhrase_words (by decide)
  apply IsPhrase.namesTable (q := .within 0)
  unfold get
  exact isPhrase_words (by decide)
    |>.before (fun _ => by decide) (isPhrase_table 0)
    |>.plain (by decide) (by decide)
    |>.next (by decide) hOrder

end Sql

------------------------------------------------------------
-- Statements of a Collection
------------------------------------------------------------

/- The statements that a store runs on a collection. -/
inductive CollectionStatement where
  | migrate
  | upsert
  | deleteValue
  | deletePredicate
  | deleteSubject
  | get
  | list (q : Query)
  | any (q : Query)

namespace CollectionStatement

def text
    (s : CollectionStatement)
    (collection : String) : String :=
  match s with
  | migrate => Sql.migrate collection
  | upsert => Sql.upsert collection
  | deleteValue => Sql.deleteValue collection
  | deletePredicate => Sql.deletePredicate collection
  | deleteSubject => Sql.deleteSubject collection
  | get => Sql.get collection
  | list q => (q.compile collection).sql
  | any q => (q.compileExists collection).sql

/- The names that a statement gives to sets of its own. -/
def ownNames : CollectionStatement → List String
  | list q => q.statement.template.names
  | any q => q.statement.template.names
  | _ => []

/- Every statement of a collection names its table. -/
theorem namesTable (s : CollectionStatement) :
    Sql.NamesTable s.text s.ownNames := by
  cases s with
  | migrate => exact Sql.namesTable_migrate
  | upsert | deleteValue | deletePredicate | deleteSubject =>
      exact Sql.namesTable_between 0 (by decide) (by decide)
        (by decide) (by decide)
  | get => exact Sql.namesTable_get
  | list q => exact Sql.namesTable_rows q.statement.template
  | any q => exact Sql.namesTable_exist q.statement.template

/- The sets of statements have names in lower case. -/
theorem foldName_of_mem_ownNames
    {s : CollectionStatement}
    {o : String}
    (hOwn : o ∈ s.ownNames) : foldName o = o := by
  have hNames : ∀ t : Template, o ∈ t.names → foldName o = o := by
    intro t hName
    cases t with
    | everything | about => cases hName
    | aboutAmong c | among c =>
        rw [List.mem_singleton.mp hName]
        exact foldName_eq_self rfl
    | ranked c k =>
        rcases List.mem_pair.mp hName with rfl | rfl <;>
          exact foldName_eq_self rfl
  cases s with
  | list q | any q => exact hNames _ hOwn
  | _ => cases hOwn

/-
  A quoted name reads back as that name, whatever it is and
  whatever follows that is not a quote.  The tokens of a statement
  are those of one frame with the valid name in it, so that no
  name ends its token early.  A valid name is spelled the same
  between quotes, it makes one plain word of the constraint, and
  each statement addresses the table of that name alone.  Only a
  statement that defines a set of the same name for itself, which
  is refused, addresses no table.
-/
theorem addresses_collection
    (name : String) :
    (∀ rest : List Char, rest.head? ≠ some '"' →
      Sql.readIdentifier?
        ((Sql.quoteIdentifier name).toList ++ rest) =
          some (name, rest)) ∧
    (∀ s : CollectionStatement, ∃ frame, Sql.Framed s.text frame) ∧
    (validateCollection name = .ok () →
      Sql.betweenQuotes name = Sql.quoteIdentifier name ∧
      (∀ rest : List Char,
        (∀ c ∈ rest.head?, Sql.isWordChar c = false) →
          Sql.readIdentifier?
            ((Sql.constraintName name).toList ++ rest) =
              some (Sql.constraintName name, rest)) ∧
      ∀ s : CollectionStatement,
        Sql.tables? (s.text name) =
          some (if foldName name ∈ s.ownNames then [] else [name])) := by
  refine ⟨?_, fun s => s.namesTable.framed, ?_⟩
  · intro rest hRest
    exact Sql.readIdentifier?_quoteIdentifier hRest name
  · intro hName
    refine ⟨Sql.betweenQuotes_eq hName, ?_, ?_⟩
    · intro rest hRest
      exact Sql.readIdentifier?_constraintName hName hRest
    · intro s
      exact s.namesTable.tables?_eq
        (fun _ hOwn => foldName_of_mem_ownNames hOwn) hName

/-
  A name of quotes and letters reads back.  A condition addresses
  the table `people`, but not a table that is called as the set
  of its own candidates, which can be made and written to.
-/
theorem addresses_collection_people_candidates :
    let q : Query := .matching ⟨.equals ⟨"tag", "true"⟩, [], [], []⟩
    Sql.readIdentifier? ((Sql.quoteIdentifier "\"a\"\"").toList
        ++ " (".toList) = some ("\"a\"\"", " (".toList) ∧
      validateCollection "people" = .ok () ∧
      Sql.tables? ((list q).text "people") = some ["people"] ∧
      validateCollection "candidates" = .ok () ∧
      Sql.tables? (migrate.text "candidates") =
        some ["candidates"] ∧
      Sql.tables? (upsert.text "candidates") = some ["candidates"] ∧
      Sql.tables? ((list q).text "candidates") = some [] := by
  intro q
  have hFold : foldName "people" = "people" := foldName_eq_self rfl
  have hFoldSet : foldName "candidates" = "candidates" :=
    foldName_eq_self rfl
  have hPeople : validateCollection "people" = .ok () :=
    valid_of_lower (by decide) hFold (by decide)
  have hSet : validateCollection "candidates" = .ok () :=
    valid_of_lower (by decide) hFoldSet (by decide)
  have hRead := (addresses_collection "\"a\"\"").1 " (".toList
    (by decide)
  have hTables := ((addresses_collection "people").2.2 hPeople).2.2
  have hSets := ((addresses_collection "candidates").2.2 hSet).2.2
  refine ⟨hRead, hPeople, ?_, hSet, hSets migrate,
    hSets upsert, ?_⟩
  · have hList := hTables (list q)
    rwa [hFold, if_neg (by decide)] at hList
  · have hList := hSets (list q)
    rwa [hFoldSet, if_pos (by decide)] at hList

end CollectionStatement

end Factbase
