import Factbase.Proofs.Json.Numbers
import Factbase.Proofs.Json.Strings

/-
  Written lists and objects and what they read as.

  A list reads as its items do, one after another, and so does
  an object.  The first part that is nested too deep decides.

  Key definitions include:
    * `Json.Outcome`
    * `Json.ReadsTo`

  Main declarations:
    * `Json.items_parts`
    * `Json.members_parts`
-/

namespace Factbase.Json

------------------------------------------------------------
-- Outcomes
------------------------------------------------------------

/- A value and the rest, or the flaw of too much depth. -/
def Outcome
    {α : Type}
    (rest : List Char)
    (result : Option α)
    (read : Except Flaw (α × List Char)) : Prop :=
  match result with
  | some x => read = .ok (x, rest)
  | none => ∃ left, read = .error ⟨.tooDeep, left⟩

/-
  A text reads as a value, or it is nested too deep, whatever
  follows it.
-/
def ReadsTo
    {α : Type}
    (value : Reader α)
    (text : List Char)
    (result : Option α) : Prop :=
  ∀ rest, Ends rest → Outcome rest result (value (text ++ rest))

section Outcomes

variable {α β : Type}
variable {rest middle : List Char}
variable {read : Except Flaw (α × List Char)}

/- A result that is made into another one keeps its outcome. -/
theorem Outcome.map
    (f : α → β)
    {result : Option α}
    (hRead : Outcome rest result read) :
    Outcome rest (result.map f)
      (read.map fun (x, r) => (f x, r)) := by
  cases result with
  | none =>
      rcases hRead with ⟨left, rfl⟩
      exact ⟨left, rfl⟩
  | some x =>
      cases hRead
      rfl

/- Two readers in turn. -/
theorem Outcome.bind
    {result : Option α}
    {next : α × List Char → Except Flaw (β × List Char)}
    {then? : α → Option β}
    (hRead : Outcome middle result read)
    (hNext : ∀ x, Outcome rest (then? x) (next (x, middle))) :
    Outcome rest (result.bind then?) (read >>= next) := by
  cases result with
  | none =>
      rcases hRead with ⟨left, rfl⟩
      exact ⟨left, rfl⟩
  | some x =>
      cases hRead
      exact hNext x

end Outcomes

------------------------------------------------------------
-- Separated Parts
------------------------------------------------------------

/- A text does not start with space or the end of a list. -/
def Opens (text : List Char) : Prop :=
  ∃ c cs, text = c :: cs ∧ isSpace c = false ∧ c ≠ ']'

/- Numbers are such texts. -/
theorem opens_of_numeral
    {c : Char}
    {cs : List Char}
    (hMark : c = '-' ∨ c.isDigit = true) : Opens (c :: cs) := by
  refine ⟨c, cs, rfl, ?_, ?_⟩
  · rcases hMark with rfl | hDigit
    · decide
    · exact isSpace_of_isDigit hDigit
  · rcases hMark with rfl | hDigit
    · decide
    · rintro rfl
      exact absurd hDigit (by decide)

theorem Opens.ne_nil
    {text : List Char}
    (hOpens : Opens text) : text ≠ [] := by
  rcases hOpens with ⟨c, cs, rfl, _⟩
  exact List.cons_ne_nil _ _

/- The parts after the first one have commas before them. -/
theorem commaSeparated_cons
    (part : List Char)
    (parts : List (List Char)) :
    commaSeparated (part :: parts) =
      part ++ parts.flatMap fun p => ',' :: p := by
  induction parts generalizing part with
  | nil => simp [commaSeparated]
  | cons next parts ih =>
      rw [commaSeparated, ih, List.flatMap_cons]
      rfl

/- The rest after a part does not go on with it. -/
theorem ends_parts
    {β : Type}
    (text : β → List Char)
    (parts : List β)
    {close : Char}
    (hClose : close = ']' ∨ close = '}')
    (rest : List Char) :
    Ends ((parts.flatMap fun p => ',' :: text p)
      ++ close :: rest) := by
  cases parts with
  | nil =>
      apply ends_cons
      rcases hClose with rfl | rfl <;> decide
  | cons part parts => exact ends_cons (by decide)

/- There are no more parts than characters. -/
theorem length_le_commaSeparated
    (parts : List (List Char))
    (hParts : ∀ p ∈ parts, p ≠ []) :
    parts.length ≤ (commaSeparated parts).length := by
  cases parts with
  | nil => exact Nat.le_refl 0
  | cons part parts =>
      have hHead := List.length_pos_iff.mpr
        (hParts part List.mem_cons_self)
      have hRest : parts.length ≤
          (parts.flatMap fun p => ',' :: p).length := by
        clear hParts
        induction parts with
        | nil => exact Nat.le_refl 0
        | cons next parts ih =>
            simp only [List.flatMap_cons, List.length_append,
              List.length_cons]
            omega
      rw [commaSeparated_cons, List.length_append,
        List.length_cons]
      omega

------------------------------------------------------------
-- Lists
------------------------------------------------------------

section Lists

variable {α : Type}
variable {item : Reader α}
variable {text rest : List Char}

/- The first item comes without a comma. -/
theorem nextItem_first (hOpens : Opens text) :
    nextItem true (text ++ rest) = .ok (true, text ++ rest) := by
  rcases hOpens with ⟨c, cs, rfl, hSpace, hClose⟩
  rw [nextItem, List.cons_append, skipBlank_cons hSpace]
  split
  · rename_i hText
    cases hText
  · rename_i hText
    cases hText
    exact absurd rfl hClose
  · rfl

/- A later item comes after one. -/
theorem nextItem_comma (hOpens : Opens text) :
    nextItem false (',' :: (text ++ rest)) =
      .ok (true, text ++ rest) := by
  rcases hOpens with ⟨c, cs, rfl, hSpace, hClose⟩
  rw [nextItem, skipBlank_cons (by decide), List.cons_append]
  split
  case h_1 hText => cases hText
  case h_2 hText => cases hText
  case h_3 =>
    rw [if_neg Bool.false_ne_true]
    split
    case h_1 hText =>
      cases hText
      rw [skipBlank_cons hSpace]
      split
      case h_1 hRest => cases hRest
      case h_2 hRest =>
        cases hRest
        exact absurd rfl hClose
      case h_3 => rfl
    case h_2 hOther => exact absurd rfl (hOther _)

/- The items after the first one, and the closing bracket. -/
theorem itemsFrom_parts
    {parts : List (List Char × Option α)}
    (hOpens : ∀ p ∈ parts, Opens p.1)
    (hReads : ∀ p ∈ parts, ReadsTo item p.1 p.2)
    {fuel : Nat}
    (hFuel : parts.length < fuel) :
    Outcome rest (parts.mapM Prod.snd)
      (itemsFrom item fuel false
        ((parts.flatMap fun p => ',' :: p.1) ++ ']' :: rest)) := by
  induction parts generalizing fuel with
  | nil =>
      cases fuel with
      | zero => cases hFuel
      | succ fuel => rfl
  | cons part parts ih =>
      cases fuel with
      | zero => cases hFuel
      | succ fuel =>
          rw [List.forall_mem_cons] at hOpens hReads
          rw [List.flatMap_cons, List.append_assoc,
            List.cons_append, itemsFrom,
            nextItem_comma hOpens.1, List.mapM_cons]
          apply (hReads.1 _
            (ends_parts Prod.fst parts (.inl rfl) rest)).bind
          intro x
          apply (ih hOpens.2 hReads.2
            (Nat.lt_of_succ_lt_succ hFuel)).bind
          intro xs
          rfl

/- The items of a list whose opening bracket was read. -/
theorem items_parts
    (parts : List (List Char × Option α))
    (hOpens : ∀ p ∈ parts, Opens p.1)
    (hReads : ∀ p ∈ parts, ReadsTo item p.1 p.2)
    (rest : List Char) :
    Outcome rest (parts.mapM Prod.snd)
      (items item
        (commaSeparated (parts.map Prod.fst) ++ ']' :: rest)) := by
  have hFuel : parts.length <
      (commaSeparated (parts.map Prod.fst)
        ++ ']' :: rest).length := by
    have hLength := length_le_commaSeparated
      (parts.map Prod.fst) (by
        intro p hMember
        rcases List.mem_map.mp hMember with ⟨part, hPart, rfl⟩
        exact (hOpens part hPart).ne_nil)
    rw [List.length_map] at hLength
    rw [List.length_append, List.length_cons]
    omega
  rw [items]
  generalize (commaSeparated (parts.map Prod.fst)
    ++ ']' :: rest).length = fuel at hFuel
  cases parts with
  | nil => rfl
  | cons part parts =>
      rw [List.forall_mem_cons] at hOpens hReads
      rw [itemsFrom, List.map_cons, commaSeparated_cons,
        List.flatMap_map, List.append_assoc,
        nextItem_first hOpens.1, List.mapM_cons]
      apply (hReads.1 _
        (ends_parts Prod.fst parts (.inl rfl) rest)).bind
      intro x
      apply (itemsFrom_parts hOpens.2 hReads.2
        (Nat.lt_of_succ_lt hFuel)).bind
      intro xs
      rfl

end Lists

------------------------------------------------------------
-- Objects
------------------------------------------------------------

section Objects

variable {α : Type}
variable {value : Reader α}
variable {rest : List Char}

theorem quoted_append (key rest : List Char) :
    quoted key ++ rest =
      '"' :: (key.flatMap escape ++ '"' :: rest) := by
  simp [quoted, opening]

theorem nextKey_first (key rest : List Char) :
    nextKey true (quoted key ++ rest) = .ok (some key, rest) := by
  rw [quoted_append, nextKey, skipBlank_cons (by decide)]
  change (readChars (key.flatMap escape ++ '"' :: rest)).map _ = _
  rw [readChars_escaped]
  rfl

theorem nextKey_comma (key rest : List Char) :
    nextKey false (',' :: (quoted key ++ rest)) =
      .ok (some key, rest) := by
  rw [quoted_append, nextKey, skipBlank_cons (by decide)]
  change (readChars (key.flatMap escape ++ '"' :: rest)).map _ = _
  rw [readChars_escaped]
  rfl

/- A member of an object: its key, its text and what that reads as. -/
structure Part (α : Type) where
  key : List Char
  text : List Char
  result : Option α

def Part.written (p : Part α) : List Char :=
  member (quoted p.key) p.text

/- The member that is read. -/
def Part.entry? (p : Part α) : Option (String × α) :=
  p.result.map fun x => (.ofList p.key, x)

theorem Part.written_append (p : Part α) (rest : List Char) :
    p.written ++ rest =
      quoted p.key ++ ':' :: (p.text ++ rest) := by
  simp [written, member]

/- There are no more members than characters. -/
theorem length_lt_members
    (parts : List (Part α))
    (rest : List Char) :
    parts.length <
      (commaSeparated (parts.map Part.written)
        ++ '}' :: rest).length := by
  have hLength := length_le_commaSeparated
    (parts.map Part.written) (by
      intro p hMember
      rcases List.mem_map.mp hMember with ⟨part, _, rfl⟩
      exact List.cons_ne_nil _ _)
  rw [List.length_map] at hLength
  rw [List.length_append, List.length_cons]
  omega

/- The members after the first one, and the closing bracket. -/
theorem membersFrom_parts
    {parts : List (Part α)}
    (hReads : ∀ p ∈ parts, ReadsTo value p.text p.result)
    {fuel : Nat}
    (hFuel : parts.length < fuel) :
    Outcome rest (parts.mapM Part.entry?)
      (membersFrom value fuel false
        ((parts.flatMap fun p => ',' :: p.written)
          ++ '}' :: rest)) := by
  induction parts generalizing fuel with
  | nil =>
      cases fuel with
      | zero => cases hFuel
      | succ fuel => rfl
  | cons part parts ih =>
      cases fuel with
      | zero => cases hFuel
      | succ fuel =>
          rw [List.forall_mem_cons] at hReads
          rw [List.flatMap_cons, List.append_assoc,
            List.cons_append, Part.written_append, membersFrom,
            nextKey_comma, List.mapM_cons, Part.entry?]
          simp only [Option.bind_eq_bind, Option.bind_map]
          apply (hReads.1 _
            (ends_parts Part.written parts (.inr rfl) rest)).bind
          intro x
          apply (ih hReads.2 (Nat.lt_of_succ_lt_succ hFuel)).bind
          intro xs
          rfl

/- The members of an object whose opening bracket was read. -/
theorem members_parts
    (parts : List (Part α))
    (hReads : ∀ p ∈ parts, ReadsTo value p.text p.result)
    (rest : List Char) :
    Outcome rest (parts.mapM Part.entry?)
      (members value
        (commaSeparated (parts.map Part.written)
          ++ '}' :: rest)) := by
  have hFuel := length_lt_members parts rest
  rw [members]
  generalize (commaSeparated (parts.map Part.written)
    ++ '}' :: rest).length = fuel at hFuel
  cases parts with
  | nil => rfl
  | cons part parts =>
      rw [List.forall_mem_cons] at hReads
      rw [membersFrom, List.map_cons, commaSeparated_cons,
        List.flatMap_map, List.append_assoc,
        Part.written_append, nextKey_first, List.mapM_cons,
        Part.entry?]
      simp only [Option.bind_eq_bind, Option.bind_map]
      apply (hReads.1 _
        (ends_parts Part.written parts (.inr rfl) rest)).bind
      intro x
      apply (membersFrom_parts hReads.2
        (Nat.lt_of_succ_lt hFuel)).bind
      intro xs
      rfl

end Objects

end Factbase.Json
