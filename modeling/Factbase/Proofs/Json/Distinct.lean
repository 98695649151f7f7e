import Factbase.Proofs.Json.Reading

/-
  Documents are told apart by their compact texts.

  A text starts as the compact text of one document only, and
  what follows it starts at one place only.  The front of the
  text tells which kind of document it is.  A list goes on after
  an item exactly if a comma follows, which is no part of the
  item: a number ends there, and all else ends by itself.

  Key definitions include:
    * `Json.Determines`

  Main declarations:
    * `Json.commaSeparated_inj`
    * `Json.Doc.determines_write`
    * `Json.Doc.write_inj`
-/

namespace Factbase.Json

variable {rest rest' : List Char}

------------------------------------------------------------
-- Separated Parts
------------------------------------------------------------

section Parts

variable {α : Type}
variable {text : α → List Char}

/-
  A text that starts as that of a part is of no other part that
  meets a condition, and what follows starts at one place.
-/
def Determines
    (text : α → List Char)
    (condition : α → Prop)
    (x : α) : Prop :=
  ∀ y, condition y → ∀ rest rest', Ends rest → Ends rest' →
    text x ++ rest = text y ++ rest' → x = y ∧ rest = rest'

variable {condition : α → Prop}
variable {close : Char}

/- The parts after the first one, each after its comma. -/
theorem tail_inj
    (hClose : close = ']' ∨ close = '}')
    {xs ys : List α}
    (hText : ∀ x ∈ xs, Determines text condition x)
    (hOther : ∀ y ∈ ys, condition y)
    (hSame :
      (xs.flatMap fun x => ',' :: text x) ++ close :: rest =
        (ys.flatMap fun y => ',' :: text y) ++ close :: rest') :
    xs = ys ∧ rest = rest' := by
  have hComma : close ≠ ',' := by
    rcases hClose with rfl | rfl <;> decide
  induction xs generalizing ys with
  | nil =>
      cases ys with
      | nil => exact ⟨rfl, (List.cons.inj hSame).2⟩
      | cons y ys => exact absurd (List.cons.inj hSame).1 hComma
  | cons x xs ih =>
      cases ys with
      | nil =>
          exact absurd (List.cons.inj hSame).1.symm hComma
      | cons y ys =>
          rw [List.forall_mem_cons] at hText hOther
          simp only [List.flatMap_cons, List.cons_append,
            List.append_assoc] at hSame
          rcases hText.1 y hOther.1 _ _
            (ends_parts text xs hClose rest)
            (ends_parts text ys hClose rest')
            (List.cons.inj hSame).2 with ⟨rfl, hTail⟩
          rcases ih hText.2 hOther.2 hTail with ⟨rfl, hRest⟩
          exact ⟨rfl, hRest⟩

/- Parts with commas between them and a bracket after them. -/
theorem commaSeparated_inj
    (hClose : close = ']' ∨ close = '}')
    {xs ys : List α}
    (hText : ∀ x ∈ xs, Determines text condition x)
    (hOther : ∀ y ∈ ys, condition y)
    (hOpens : ∀ x ∈ xs ++ ys,
      ∃ c cs, text x = c :: cs ∧ c ≠ close)
    (hSame :
      commaSeparated (xs.map text) ++ close :: rest =
        commaSeparated (ys.map text) ++ close :: rest') :
    xs = ys ∧ rest = rest' := by
  have hStart : ∀ x ∈ xs ++ ys, ∀ after tail,
      text x ++ after ≠ close :: tail := by
    intro x hMember after tail hText
    rcases hOpens x hMember with ⟨c, cs, hWritten, hMark⟩
    rw [hWritten, List.cons_append] at hText
    exact hMark (List.cons.inj hText).1
  cases xs with
  | nil =>
      cases ys with
      | nil => exact ⟨rfl, (List.cons.inj hSame).2⟩
      | cons y ys =>
          rw [List.map_cons, commaSeparated_cons,
            List.append_assoc] at hSame
          exact absurd hSame.symm (hStart y (by simp) _ _)
  | cons x xs =>
      rw [List.map_cons, commaSeparated_cons, List.append_assoc]
        at hSame
      cases ys with
      | nil => exact absurd hSame (hStart x (by simp) _ _)
      | cons y ys =>
          rw [List.forall_mem_cons] at hText hOther
          rw [List.map_cons, commaSeparated_cons,
            List.append_assoc] at hSame
          simp only [List.flatMap_map] at hSame
          rcases hText.1 y hOther.1 _ _
            (ends_parts text xs hClose rest)
            (ends_parts text ys hClose rest') hSame
            with ⟨rfl, hTail⟩
          rcases tail_inj hClose hText.2 hOther.2 hTail
            with ⟨rfl, hRest⟩
          exact ⟨rfl, hRest⟩

end Parts

------------------------------------------------------------
-- Documents
------------------------------------------------------------

namespace Doc

/- The text of a member of an object. -/
def memberText (m : List Char × Doc) : List Char :=
  member (quoted m.1) m.2.write

/- The value of a member is legible. -/
def LegibleMember (m : List Char × Doc) : Prop :=
  m.2.Legible

theorem writeMembers_eq_map (ms : List (List Char × Doc)) :
    writeMembers ms = ms.map memberText := by
  induction ms with
  | nil => rfl
  | cons m ms ih =>
      rw [writeMembers, ih, List.map_cons]
      rfl

theorem memberText_append
    (m : List Char × Doc)
    (rest : List Char) :
    memberText m ++ rest =
      quoted m.1 ++ ':' :: (m.2.write ++ rest) := by
  simp [memberText, member]

theorem memberText_opens (m : List Char × Doc) :
    ∃ c cs, memberText m = c :: cs ∧ c ≠ '}' :=
  ⟨'"', _, rfl, by decide⟩

/- The items of a legible list are legible. -/
theorem legible_items : ∀ {ds : List Doc},
    (∀ numeral ∈ numeralsOfItems ds, IsNumeral numeral) →
      ∀ d ∈ ds, d.Legible
  | [], _ => by simp
  | d :: ds, hLegible => by
      rw [numeralsOfItems, List.forall_mem_append] at hLegible
      exact List.forall_mem_cons.mpr
        ⟨hLegible.1, legible_items hLegible.2⟩

theorem legible_members : ∀ {ms : List (List Char × Doc)},
    (∀ numeral ∈ numeralsOfMembers ms, IsNumeral numeral) →
      ∀ m ∈ ms, LegibleMember m
  | [], _ => by simp
  | (k, d) :: ms, hLegible => by
      rw [numeralsOfMembers, List.forall_mem_append] at hLegible
      exact List.forall_mem_cons.mpr
        ⟨hLegible.1, legible_members hLegible.2⟩

------------------------------------------------------------
-- Fronts of Documents
------------------------------------------------------------

/- The front of the text of a document. -/
def front : Doc → Front
  | .null => .null
  | .bool b => .bool b
  | .number numeral => .number (numberOf numeral)
  | .text cs => .text (.ofList cs)
  | .list _ => .list
  | .object _ => .object

/- What is left of the text of a document after the front. -/
def afterFront : Doc → List Char
  | .list ds => commaSeparated (ds.map write) ++ [']']
  | .object ms => commaSeparated (ms.map memberText) ++ ['}']
  | _ => []

/- What a document starts with tells its kind. -/
theorem readFront_write
    {d : Doc}
    (hLegible : d.Legible)
    (hEnds : Ends rest) :
    readFront (d.write ++ rest) =
      .ok (d.front, d.afterFront ++ rest) := by
  cases d with
  | null => exact readFront_null rest
  | bool b => exact readFront_bool rest b
  | number numeral =>
      exact (hLegible numeral (List.mem_singleton_self _)).2 rest
        hEnds
  | text cs => exact readFront_quoted rest cs
  | list ds =>
      rw [write, readFront_bracketed, writeItems_eq_map,
        afterFront, List.append_assoc]
      rfl
  | object ms =>
      rw [write, readFront_braced, writeMembers_eq_map,
        afterFront, List.append_assoc]
      rfl

/- Documents whose texts start alike have one front. -/
theorem front_eq_of_append
    {d e : Doc}
    (hLegible : d.Legible)
    (hOther : e.Legible)
    (hEnds : Ends rest)
    (hEnds' : Ends rest')
    (hSame : d.write ++ rest = e.write ++ rest') :
    d.front = e.front ∧
      d.afterFront ++ rest = e.afterFront ++ rest' := by
  have hFront := readFront_write hLegible hEnds
  rw [hSame, readFront_write hOther hEnds', Except.ok.injEq,
    Prod.mk.injEq] at hFront
  exact ⟨hFront.1.symm, hFront.2.symm⟩

------------------------------------------------------------
-- Unique Reading
------------------------------------------------------------

/- The text of a member determines it if that of its value does. -/
theorem determines_memberText
    {m : List Char × Doc}
    (hValue : Determines write Legible m.2) :
    Determines memberText LegibleMember m := by
  intro n hOther rest rest' hEnds hEnds' hSame
  rw [memberText_append, memberText_append] at hSame
  have hFront := readFront_quoted (':' :: (m.2.write ++ rest)) m.1
  rw [hSame, readFront_quoted, Except.ok.injEq, Prod.mk.injEq,
    Front.text.injEq, String.ofList_inj] at hFront
  rcases hValue n.2 hOther rest rest' hEnds hEnds'
    (List.cons.inj hFront.2.symm).2 with ⟨hDoc, hRest⟩
  exact ⟨Prod.ext hFront.1.symm hDoc, hRest⟩

mutual

/-
  The text of a document determines it.  The induction follows
  the document; that the other one is of the same kind is told
  by the front.
-/
theorem determines_write : ∀ d : Doc, d.Legible →
    Determines write Legible d
  | .null, hLegible => by
      intro e hOther rest rest' hEnds hEnds' hSame
      rcases front_eq_of_append hLegible hOther hEnds hEnds'
        hSame with ⟨hFront, hRest⟩
      cases e with
      | null => exact ⟨rfl, hRest⟩
      | _ => cases hFront
  | .bool b, hLegible => by
      intro e hOther rest rest' hEnds hEnds' hSame
      rcases front_eq_of_append hLegible hOther hEnds hEnds'
        hSame with ⟨hFront, hRest⟩
      cases e with
      | bool b' =>
          cases hFront
          exact ⟨rfl, hRest⟩
      | _ => cases hFront
  | .number numeral, hLegible => by
      intro e hOther rest rest' hEnds hEnds' hSame
      rcases front_eq_of_append hLegible hOther hEnds hEnds'
        hSame with ⟨hFront, hRest⟩
      cases e with
      | number numeral' =>
          have hEnd : rest = rest' := hRest
          subst hEnd
          -- the front tells the number only, the text its numeral
          have hText : numeral = numeral' :=
            List.append_cancel_right hSame
          exact ⟨by rw [hText], rfl⟩
      | _ => cases hFront
  | .text cs, hLegible => by
      intro e hOther rest rest' hEnds hEnds' hSame
      rcases front_eq_of_append hLegible hOther hEnds hEnds'
        hSame with ⟨hFront, hRest⟩
      cases e with
      | text cs' =>
          rw [front, front, Front.text.injEq, String.ofList_inj]
            at hFront
          exact ⟨by rw [hFront], hRest⟩
      | _ => cases hFront
  | .list ds, hLegible => by
      intro e hOther rest rest' hEnds hEnds' hSame
      rcases front_eq_of_append hLegible hOther hEnds hEnds'
        hSame with ⟨hFront, hRest⟩
      cases e with
      | list es =>
          have hItems := legible_items hLegible
          have hOthers := legible_items hOther
          have hOpens : ∀ d ∈ ds ++ es,
              ∃ c cs, d.write = c :: cs ∧ c ≠ ']' := by
            intro d hMember
            rcases opens_write
              (List.forall_mem_append.mpr ⟨hItems, hOthers⟩ d
                hMember) with ⟨c, cs, hWrite, _, hMark⟩
            exact ⟨c, cs, hWrite, hMark⟩
          rw [afterFront, afterFront, List.append_assoc,
            List.append_assoc] at hRest
          rcases commaSeparated_inj (.inl rfl)
            (determines_items ds hItems) hOthers hOpens hRest
            with ⟨rfl, hEnd⟩
          exact ⟨rfl, hEnd⟩
      | _ => cases hFront
  | .object ms, hLegible => by
      intro e hOther rest rest' hEnds hEnds' hSame
      rcases front_eq_of_append hLegible hOther hEnds hEnds'
        hSame with ⟨hFront, hRest⟩
      cases e with
      | object ns =>
          rw [afterFront, afterFront, List.append_assoc,
            List.append_assoc] at hRest
          rcases commaSeparated_inj (.inr rfl)
            (determines_members ms (legible_members hLegible))
            (legible_members hOther)
            (fun m _ => memberText_opens m) hRest
            with ⟨rfl, hEnd⟩
          exact ⟨rfl, hEnd⟩
      | _ => cases hFront

/- The same of items. -/
theorem determines_items : ∀ ds : List Doc,
    (∀ d ∈ ds, d.Legible) →
      ∀ d ∈ ds, Determines write Legible d
  | [], _ => by simp
  | d :: ds, hLegible => by
      rw [List.forall_mem_cons] at hLegible ⊢
      exact ⟨determines_write d hLegible.1,
        determines_items ds hLegible.2⟩

/- The same of members, whose keys are told by their quotes. -/
theorem determines_members : ∀ ms : List (List Char × Doc),
    (∀ m ∈ ms, LegibleMember m) →
      ∀ m ∈ ms, Determines memberText LegibleMember m
  | [], _ => by simp
  | (k, d) :: ms, hLegible => by
      rw [List.forall_mem_cons] at hLegible ⊢
      exact ⟨determines_memberText (determines_write d hLegible.1),
        determines_members ms hLegible.2⟩

end

/- Different documents have different texts. -/
theorem write_inj
    {d e : Doc}
    (hLegible : d.Legible)
    (hOther : e.Legible)
    (hSame : d.write = e.write) : d = e :=
  (determines_write d hLegible e hOther [] [] ends_nil ends_nil
    (by rw [hSame])).1

end Doc

end Factbase.Json
