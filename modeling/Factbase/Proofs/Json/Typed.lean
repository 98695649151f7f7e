import Factbase.Json.Typed
import Factbase.Proofs.Binary.Rounding
import Factbase.Proofs.Json.Reading

/-
  What the readers of named shapes make of written values.

  Every reader gives back what was written, whatever follows
  it.  A reader of a list, a pair, a map or a record does so if
  the readers of its parts do.  A record is read by its names:
  each member finds its part, and no name is there twice.

  Key definitions include:
    * `Json.Part.name`
    * `Json.Part.Fills`
    * `Json.setAll`

  Main declarations:
    * `Json.readsTo_readInt`
    * `Json.readsTo_readOption_some`
    * `Json.readsTo_readList`
    * `Json.readsTo_readPair`
    * `Json.readsTo_readMembers`
    * `Json.readsTo_readRecord`
-/

namespace Factbase

------------------------------------------------------------
-- Types of Integers
------------------------------------------------------------

namespace IntType

variable {t : IntType}
variable {n : Int}

/- An integer of a type of at most 64 bits. -/
theorem bounds_of_narrow
    (hNarrow : t.bits ≤ 64)
    (hHolds : t.holds n = true) :
    -twoTo 63 ≤ n ∧ n < twoTo 64 := by
  have hSigned : twoTo (t.bits - 1) ≤ twoTo 63 :=
    twoTo_mono (by omega)
  have hUnsigned : twoTo t.bits ≤ twoTo 64 := twoTo_mono hNarrow
  have hLess : twoTo 63 ≤ twoTo 64 := twoTo_mono (by decide)
  rw [holds] at hHolds
  split_ifs at hHolds <;>
    simp only [Bool.and_eq_true, decide_eq_true_eq] at hHolds <;>
    omega

/- Only a type with a sign has negative integers. -/
theorem signed_of_holds_negSucc
    {m : Nat}
    (hHolds : t.holds (.negSucc m) = true) :
    t.signed = true := by
  by_contra hUnsigned
  rw [holds, if_neg hUnsigned] at hHolds
  simp at hHolds

end IntType

namespace Json

variable {α β : Type}
variable {rest text : List Char}

------------------------------------------------------------
-- Scalars
------------------------------------------------------------

theorem readsTo_readUnit :
    ReadsTo readUnit "null".toList (some ()) := by
  intro rest _
  rw [Outcome, readUnit, Doc.readFront_null]
  rfl

theorem readsTo_readBool (b : Bool) :
    ReadsTo readBool (boolText b) (some b) := by
  intro rest _
  rw [Outcome, readBool, Doc.readFront_bool]
  rfl

/- A string is read as its text, whatever has been escaped. -/
theorem readsTo_readText (s : String) :
    ReadsTo readText (quoted s.toList) (some s) := by
  intro rest _
  rw [Outcome, readText, Doc.readFront_quoted,
    String.ofList_toList]
  rfl

theorem readsTo_readChar (c : Char) :
    ReadsTo readChar (quoted [c]) (some c) := by
  intro rest _
  rw [Outcome, readChar, Doc.readFront_quoted]
  simp only [bind, Except.bind, String.toList_ofList]

------------------------------------------------------------
-- Integers
------------------------------------------------------------

/- The digits of a number are read up to where they stop. -/
theorem readDigits_write
    (n : Nat)
    (hStop : NoDigit rest) :
    readDigits (Digits.write n ++ rest) = .ok (n, rest) := by
  rcases Digits.exists_write_eq_cons n
    with ⟨d, tail, hWrite, hDigits⟩
  rw [List.forall_mem_cons] at hDigits
  have hTake : (tail ++ rest).takeWhile Char.isDigit = tail := by
    rw [List.takeWhile_append_of_pos hDigits.2,
      takeWhile_of_noDigit hStop, List.append_nil]
  have hDrop : (tail ++ rest).dropWhile Char.isDigit = rest := by
    rw [List.dropWhile_append_of_pos hDigits.2,
      dropWhile_of_noDigit hStop]
  have hValue : Digits.value (d :: tail) = n := by
    rw [← hWrite, Digits.value_write]
  rw [hWrite, List.cons_append, readDigits, hDigits.1, hTake,
    hDrop, hValue]
  by_cases hZero : d = '0'
  · subst hZero
    have hTail := Digits.tail_of_write hWrite
    subst hTail
    have hNext : rest.head?.any Char.isDigit = false := by
      cases rest with
      | nil => rfl
      | cons c rest => exact hStop c rfl
    have hNumber : n = 0 := hValue.symm
    simp [hNext, hNumber]
  · simp [hZero]

/- An integer of 128 bits is read digit by digit. -/
theorem readWide_writeInt
    {t : IntType}
    {n : Int}
    (hHolds : t.holds n = true)
    (hEnds : Ends rest) :
    readWide t (Digits.writeInt n ++ rest) = .ok (n, rest) := by
  cases n with
  | ofNat n =>
      rcases Digits.exists_write_eq_cons n
        with ⟨d, tail, hWrite, hDigits⟩
      have hDigit := hDigits d List.mem_cons_self
      have hRead := readDigits_write n hEnds.noDigit
      rw [hWrite, List.cons_append] at hRead
      rw [Digits.writeInt, hWrite, List.cons_append, readWide,
        skipBlank_cons (isSpace_of_isDigit hDigit)]
      split
      · rename_i hText
        cases hText
      · rename_i hText
        cases hText
        exact absurd hDigit (by decide)
      · rw [hRead]
        exact if_pos hHolds
  | negSucc n =>
      have hRead := readDigits_write (n + 1) hEnds.noDigit
      have hSigned := IntType.signed_of_holds_negSucc hHolds
      rw [Digits.writeInt, List.cons_append, readWide,
        skipBlank_cons (by decide)]
      simp only [hSigned, if_true, hRead, bind, Except.bind]
      exact if_pos hHolds

/- A shorter one is read as a number and then checked. -/
theorem readNarrow_writeInt
    {t : IntType}
    {n : Int}
    (hNarrow : t.bits ≤ 64)
    (hHolds : t.holds n = true)
    (hEnds : Ends rest) :
    readNarrow t (Digits.writeInt n ++ rest) = .ok (n, rest) := by
  have hBounds := IntType.bounds_of_narrow hNarrow hHolds
  rw [readNarrow, readFront_writeInt hBounds.1 hBounds.2 hEnds]
  cases n with
  | ofNat n => exact if_pos hHolds
  | negSucc n => exact if_pos hHolds

/- An integer of any type, at its ends as well. -/
theorem readsTo_readInt
    {t : IntType}
    {n : Int}
    (hHolds : t.holds n = true) :
    ReadsTo (readInt t) (Digits.writeInt n) (some n) := by
  intro rest hEnds
  rw [Outcome, readInt]
  split_ifs with hNarrow
  · exact readNarrow_writeInt hNarrow hHolds hEnds
  · exact readWide_writeInt hHolds hEnds

------------------------------------------------------------
-- Options
------------------------------------------------------------

/- What is absent is written as null. -/
theorem readsTo_readOption_none (value : Reader α) :
    ReadsTo (readOption value) "null".toList (some none) := by
  intro rest _
  rfl

/- A value is there if its text does not start as a null does. -/
theorem readsTo_readOption_some
    {value : Reader α}
    {x : α}
    (hOpens : Opens text)
    (hNotNull : text.head? ≠ some 'n')
    (hReads : ReadsTo value text (some x)) :
    ReadsTo (readOption value) text (some (some x)) := by
  intro rest hEnds
  have hRead : value (text ++ rest) = .ok (x, rest) :=
    hReads rest hEnds
  rcases hOpens with ⟨c, cs, rfl, hSpace, _⟩
  rw [List.cons_append] at hRead ⊢
  rw [Outcome, readOption, skipBlank_cons hSpace]
  split
  · rename_i hText
    cases hText
    exact absurd rfl hNotNull
  · rw [hRead]
    rfl

------------------------------------------------------------
-- Lists and Pairs
------------------------------------------------------------

theorem mapM_some (xs : List α) :
    xs.mapM (fun x => some x) = some xs := by
  have hPure := List.mapM_pure (m := Option) (l := xs) (f := id)
  rwa [List.map_id] at hPure

/- A list is read item by item, if each item opens as one. -/
theorem readsTo_readList
    {item : Reader α}
    {xs : List α}
    (write : α → List Char)
    (hOpens : ∀ x ∈ xs, Opens (write x))
    (hReads : ∀ x ∈ xs, ReadsTo item (write x) (some x)) :
    ReadsTo (readList item) (bracketed (xs.map write))
      (some xs) := by
  intro rest _
  have hItems := items_parts (xs.map fun x => (write x, some x))
    (List.forall_mem_map.mpr hOpens)
    (List.forall_mem_map.mpr hReads) rest
  rw [List.map_map, List.mapM_map] at hItems
  rw [readList, Doc.readFront_bracketed]
  exact mapM_some xs ▸ hItems

/- A pair is read as a list of its two parts. -/
theorem readsTo_readPair
    {left : Reader α}
    {right : Reader β}
    {x : α}
    {y : β}
    {first second : List Char}
    (hFirst : Opens first)
    (hSecond : Opens second)
    (hLeft : ReadsTo left first (some x))
    (hRight : ReadsTo right second (some y)) :
    ReadsTo (readPair left right) (bracketed [first, second])
      (some (x, y)) := by
  intro rest _
  have hX : left (first ++ ',' :: (second ++ ']' :: rest)) =
      .ok (x, ',' :: (second ++ ']' :: rest)) :=
    hLeft _ (ends_cons (by decide))
  have hY : right (second ++ ']' :: rest) =
      .ok (y, ']' :: rest) :=
    hRight _ (ends_cons (by decide))
  have hText : commaSeparated [first, second] ++ ']' :: rest =
      first ++ ',' :: (second ++ ']' :: rest) := by
    simp [commaSeparated]
  rw [Outcome, readPair, Doc.readFront_bracketed, hText]
  simp only [bind, Except.bind, nextItem_first hFirst, hX,
    nextItem_comma hSecond, hY]
  rfl

------------------------------------------------------------
-- Maps
------------------------------------------------------------

/- A map is read member by member, in any order of keys. -/
theorem readsTo_readMembers
    {value : Reader α}
    {entries : List (String × α)}
    (write : α → List Char)
    (hReads : ∀ e ∈ entries,
      ReadsTo value (write e.2) (some e.2)) :
    ReadsTo (readMembers value)
      (braced (entries.map fun e =>
        member (quoted e.1.toList) (write e.2)))
      (some entries) := by
  intro rest _
  have hMembers := members_parts
    (entries.map fun e =>
      (⟨e.1.toList, write e.2, some e.2⟩ : Part α))
    (List.forall_mem_map.mpr hReads) rest
  have hEntry : (Part.entry? ∘ fun e : String × α =>
      (⟨e.1.toList, write e.2, some e.2⟩ : Part α)) = some := by
    funext e
    exact congrArg (fun k => some (k, e.2)) String.ofList_toList
  rw [List.map_map, List.mapM_map, hEntry, mapM_some] at hMembers
  rw [readMembers, Doc.readFront_braced]
  exact hMembers

------------------------------------------------------------
-- Records
------------------------------------------------------------

section Records

variable {σ : Type}
variable {fields : List (Field σ)}
variable {parts : List (Part (σ → σ))}
variable {seen : List String}

def Part.name (p : Part α) : String :=
  .ofList p.key

/- A member is one of the parts of a record as it is written. -/
def Part.Fills
    (fields : List (Field σ))
    (p : Part (σ → σ)) : Prop :=
  ∃ f, fields.find? (fun f => f.name = p.name) = some f ∧
    ReadsTo f.read p.text p.result

/- The records that setters lead to, one after another. -/
def setAll
    (s : σ)
    (sets : List (σ → σ)) : σ :=
  sets.foldl (fun s set => set s) s

/- Fields are set one after the other. -/
theorem mapM_result_cons
    (part : Part (σ → σ))
    (s : σ) :
    ((part :: parts).mapM Part.result).map (setAll s) =
      part.result.bind fun set =>
        (parts.mapM Part.result).map (setAll (set s)) := by
  rw [List.mapM_cons]
  cases part.result with
  | none => rfl
  | some set => cases parts.mapM Part.result <;> rfl

/- One member, whose name is new, and those after it. -/
theorem readNamed_part
    {part : Part (σ → σ)}
    {first : Bool}
    {fuel : Nat}
    {s : σ}
    {cs after : List Char}
    {then? : (σ → σ) → Option σ}
    (hKey : nextKey first cs =
      .ok (some part.key, ':' :: (part.text ++ after)))
    (hFills : part.Fills fields)
    (hNew : part.name ∉ seen)
    (hEnds : Ends after)
    (hNext : ∀ set, Outcome rest (then? set)
      (readNamed fields fuel false (part.name :: seen) (set s)
        after)) :
    Outcome rest (part.result.bind then?)
      (readNamed fields (fuel + 1) first seen s cs) := by
  rcases hFills with ⟨f, hFind, hReads⟩
  rw [Part.name] at hFind hNew
  rw [readNamed, hKey]
  simp only [bind, Except.bind, hFind, if_neg hNew]
  exact (hReads after hEnds).bind hNext

/- The members after the first one, and the closing bracket. -/
theorem readNamed_parts
    {s : σ}
    (hFills : ∀ p ∈ parts, p.Fills fields)
    (hDistinct : (parts.map Part.name).Nodup)
    (hNew : ∀ p ∈ parts, p.name ∉ seen)
    {fuel : Nat}
    (hFuel : parts.length < fuel) :
    Outcome rest ((parts.mapM Part.result).map (setAll s))
      (readNamed fields fuel false seen s
        ((parts.flatMap fun p => ',' :: p.written)
          ++ '}' :: rest)) := by
  induction parts generalizing fuel seen s with
  | nil =>
      cases fuel with
      | zero => cases hFuel
      | succ fuel => rfl
  | cons part parts ih =>
      cases fuel with
      | zero => cases hFuel
      | succ fuel =>
          rw [List.forall_mem_cons] at hFills hNew
          rw [List.map_cons, List.nodup_cons] at hDistinct
          rw [List.flatMap_cons, List.append_assoc,
            List.cons_append, Part.written_append,
            mapM_result_cons]
          apply readNamed_part (nextKey_comma _ _) hFills.1 hNew.1
            (ends_parts Part.written parts (.inr rfl) rest)
          intro set
          apply ih hFills.2 hDistinct.2 ?_
            (Nat.lt_of_succ_lt_succ hFuel)
          intro p hMember hSeen
          rcases List.mem_cons.mp hSeen with hSame | hBefore
          · exact hDistinct.1
              (hSame ▸ List.mem_map_of_mem hMember)
          · exact hNew.2 p hMember hBefore

/-
  A record is read from members that each fill one of its parts,
  no part twice.  The parts that have no member keep what the
  record starts with.
-/
theorem readsTo_readRecord
    (name : String)
    (start : σ)
    (hFills : ∀ p ∈ parts, p.Fills fields)
    (hDistinct : (parts.map Part.name).Nodup) :
    ReadsTo (readRecord name fields start)
      (braced (parts.map Part.written))
      ((parts.mapM Part.result).map (setAll start)) := by
  intro rest _
  have hFuel := length_lt_members parts rest
  rw [readRecord, Doc.readFront_braced]
  simp only [bind, Except.bind]
  generalize (commaSeparated (parts.map Part.written)
    ++ '}' :: rest).length = fuel at hFuel
  cases parts with
  | nil => rfl
  | cons part parts =>
      rw [List.forall_mem_cons] at hFills
      rw [List.map_cons, List.nodup_cons] at hDistinct
      rw [List.map_cons, commaSeparated_cons, List.flatMap_map,
        List.append_assoc, Part.written_append, mapM_result_cons]
      apply readNamed_part (nextKey_first _ _) hFills.1
        List.not_mem_nil
        (ends_parts Part.written parts (.inr rfl) rest)
      intro set
      apply readNamed_parts hFills.2 hDistinct.2 ?_
        (Nat.lt_of_succ_lt hFuel)
      intro p hMember hSame
      exact hDistinct.1
        (List.mem_singleton.mp hSame ▸
          List.mem_map_of_mem hMember)

/- A part that is read by the reader of its field. -/
theorem fills_of_field
    {name : String}
    {read : Reader α}
    {set : α → σ → σ}
    {x : α}
    (hFind : fields.find? (fun f => f.name = name) =
      some (field name read set))
    (hReads : ReadsTo read text (some x)) :
    (⟨name.toList, text, some (set x)⟩ : Part (σ → σ)).Fills
      fields := by
  refine ⟨field name read set, ?_, ?_⟩
  · rw [Part.name, String.ofList_toList, hFind]
  · intro rest hEnds
    exact (hReads rest hEnds).map set

end Records

end Json

end Factbase
