import Factbase.Proofs.Data.Restoring
import Factbase.Proofs.Grouping.Contents
import Factbase.Proofs.Query.Groups
import Factbase.Proofs.Query.Separation

/-
  Copies of a collection that are made from its groups.

  Values that are written again as they were make every group
  state the triples of its subject.  So writing all groups into
  an empty collection adds the triples of the collection that
  they are from, and the order of a list leaves no choice in how
  these are listed.

  Key definitions include:
    * `Triple.IsRestorable`
    * `Group.command`

  Main declarations:
    * `Group.Gathers.adds_command_iff`
    * `Command.mem_foldl_leave_iff`
    * `Store.adds_of_mem_list`
    * `Store.list_all_of_copy`
-/

namespace Factbase

------------------------------------------------------------
-- Groups That Are Written
------------------------------------------------------------

/- The value of a triple was written from a restorable one. -/
def Triple.IsRestorable (t : Triple) : Prop :=
  ∃ v : Value, v.Restorable ∧ encode v.toDatum = .ok t.encoded

/- Store all values of a group, by their predicates. -/
def Group.command (g : Group) : Command :=
  .setProperties g.subject
    (g.properties.map fun (predicate, values) =>
      (predicate, values.map Value.toDatum))

variable {t u : Triple}
variable {ts : List Triple}
variable {g : Group}

theorem Triple.IsRestorable.exists_value
    (hRestorable : t.IsRestorable) :
    ∃ v, t.value = .ok v ∧ encode v.toDatum = .ok t.encoded := by
  rcases hRestorable with ⟨v, hRestorable, hEncode⟩
  exact hRestorable.exists_restored hEncode

/- A value that is read is the only one to be written again. -/
theorem Triple.IsRestorable.encode_value
    {v : Value}
    (hRestorable : t.IsRestorable)
    (hValue : t.value = .ok v) :
    encode v.toDatum = .ok t.encoded := by
  rcases hRestorable.exists_value with ⟨w, hValue', hEncode⟩
  rw [hValue, Except.ok.injEq] at hValue'
  rwa [hValue']

namespace Group

theorem adds_command_iff :
    g.command.Adds t ↔
      t.subject = g.subject ∧
        ∃ values, (t.predicate, values) ∈ g.properties ∧
          ∃ v ∈ values, encode v.toDatum = .ok t.encoded := by
  simp only [command, Command.Adds, List.mem_map,
    exists_exists_and_eq_and, Triple.States]
  constructor
  · rintro ⟨⟨p, vs⟩, hEntry, v, hValue, hSubject, rfl, hCode⟩
    exact ⟨hSubject, vs, hEntry, v, hValue, hCode⟩
  · rintro ⟨hSubject, vs, hEntry, v, hValue, hCode⟩
    exact ⟨_, hEntry, v, hValue, hSubject, rfl, hCode⟩

variable (hRestorable : ∀ u ∈ ts, u.IsRestorable)
include hRestorable

/- The values of a group add the triples of its subject. -/
theorem Gathers.adds_command_iff
    (hGathers : g.Gathers ts) :
    g.command.Adds t ↔ t ∈ ts ∧ t.subject = g.subject := by
  rw [Group.adds_command_iff]
  simp only [← hGathers.sorted.find?_eq_some_iff, hGathers.entry]
  constructor
  · rintro ⟨hSubject, _, ⟨rfl, _⟩, v, hValue, hCode⟩
    rcases mem_valuesOf_iff.mp hValue with
      ⟨u, hMember, hSubject', hPredicate, hRead⟩
    have hCode' := (hRestorable u hMember).encode_value hRead
    have hSame : t = u := by
      rw [hCode, Except.ok.injEq] at hCode'
      rcases t with ⟨s, p, e⟩
      rcases u with ⟨s', p', e'⟩
      simp_all
    exact ⟨hSame ▸ hMember, hSubject⟩
  · rintro ⟨hMember, hSubject⟩
    rcases (hRestorable t hMember).exists_value with
      ⟨v, hRead, hCode⟩
    have hValue : v ∈ valuesOf ts g.subject t.predicate :=
      mem_valuesOf_iff.mpr ⟨t, hMember, hSubject, rfl, hRead⟩
    exact ⟨hSubject, _, ⟨rfl, List.ne_nil_of_mem hValue⟩, v,
      hValue, hCode⟩

/- What the groups were decoded from, their values encode to. -/
theorem Gathers.succeeds_command
    (hGathers : g.Gathers ts) :
    g.command.Succeeds false := by
  refine ⟨rfl, ?_⟩
  simp only [List.forall_mem_map]
  intro e hEntry v hValue
  rw [← hGathers.sorted.find?_eq_some_iff, hGathers.entry]
    at hEntry
  rw [hEntry.1] at hValue
  rcases mem_valuesOf_iff.mp hValue with ⟨u, hMember, _, _, hRead⟩
  exact ⟨_, (hRestorable u hMember).encode_value hRead⟩

end Group

/- The values of all groups add the triples that they are of. -/
theorem exists_adds_iff
    {gs : List Group}
    (hRestorable : ∀ u ∈ ts, u.IsRestorable)
    (hGathers : ∀ g ∈ gs, g.Gathers ts)
    (hSubjects :
      gs.map Group.subject =
        (ts.map Triple.subject).eraseDups) :
    (∃ command ∈ gs.map Group.command, command.Adds t) ↔
      t ∈ ts := by
  simp only [List.mem_map, exists_exists_and_eq_and]
  constructor
  · rintro ⟨g, hGroup, hAdds⟩
    exact (((hGathers g hGroup).adds_command_iff
      hRestorable).mp hAdds).1
  · intro hMember
    have hSubject : t.subject ∈ gs.map Group.subject := by
      rw [hSubjects, List.mem_eraseDups]
      exact List.mem_map_of_mem hMember
    rcases List.mem_map.mp hSubject with ⟨g, hGroup, hSame⟩
    exact ⟨g, hGroup, ((hGathers g hGroup).adds_command_iff
      hRestorable).mpr ⟨hMember, hSame.symm⟩⟩

------------------------------------------------------------
-- Runs That Only Add
------------------------------------------------------------

/- What no command removes is there, or some command adds it. -/
theorem Command.mem_foldl_leave_iff
    {commands : List Command}
    (hKeep : ∀ command ∈ commands, ¬ command.Removes t)
    {before : Set Triple} :
    t ∈ (commands.zip (commands.map fun _ => .ok ())).foldl
        Command.leave before ↔
      t ∈ before ∨ ∃ command ∈ commands, command.Adds t := by
  induction commands generalizing before with
  | nil => simp
  | cons command commands ih =>
      rw [List.forall_mem_cons] at hKeep
      rw [List.map_cons, List.zip_cons_cons, List.foldl_cons,
        ih hKeep.2, List.exists_mem_cons_iff, ← or_assoc]
      simp [leave, effect, hKeep.1]

/- What is there in the end was there before or was added. -/
theorem Command.adds_of_mem_foldl
    {commands : List Command}
    {answers : List (Except StoreError Unit)}
    {before : Set Triple}
    (hMember :
      t ∈ (commands.zip answers).foldl Command.leave before) :
    t ∈ before ∨ ∃ command ∈ commands, command.Adds t := by
  induction commands generalizing answers before with
  | nil => exact .inl hMember
  | cons command commands ih =>
      cases answers with
      | nil => exact .inl hMember
      | cons answer answers =>
          rw [List.exists_mem_cons_iff]
          rcases ih hMember with hThere | hLater
          · cases answer with
            | error e => exact .inl hThere
            | ok _ =>
                rcases hThere with ⟨hOld, _⟩ | hAdds
                · exact .inl hOld
                · exact .inr (.inl hAdds)
          · exact .inr (.inr hLater)

namespace Store

variable {s : Store}
variable {c : Connection}

/- Every command that can succeed is answered so. -/
theorem answers_eq_ok
    {commands : List Command}
    {answers : List (Except StoreError Unit)}
    {inTransaction : Bool}
    (hAnswers :
      List.Forall₂
        (fun command answer =>
          answer = .ok () ↔ command.Succeeds inTransaction)
        commands answers)
    (hSucceeds :
      ∀ command ∈ commands, command.Succeeds inTransaction) :
    answers = commands.map fun _ => .ok () := by
  induction hAnswers with
  | nil => rfl
  | cons hAnswer _ ih =>
      rw [List.forall_mem_cons] at hSucceeds
      rw [List.map_cons, hAnswer.mpr hSucceeds.1,
        ih hSucceeds.2]

/- Groups cannot be written inside a transaction. -/
theorem runAll_groups_open
    (hOpen : c.inTransaction = true)
    (gs : List Group) :
    s.runAll (gs.map Group.command) c =
      (gs.map fun _ => .error (.execution .nestedTransaction),
        c) := by
  induction gs with
  | nil => rfl
  | cons g gs ih =>
      have hFirst : (g.command.action s).on c =
          (.error (.execution .nestedTransaction), c) :=
        Action.on_batch_open hOpen _
      rw [List.map_cons, runAll, hFirst]
      simp only [ih, List.map_cons]

end Store

/- Ascending lists with the same triples are the same. -/
theorem eq_of_ascending
    {us : List Triple}
    (hFirst : ts.Pairwise fun t u => t.key < u.key)
    (hSecond : us.Pairwise fun t u => t.key < u.key)
    (hSame : ∀ t, t ∈ ts ↔ t ∈ us) : ts = us := by
  have hNodup : ∀ vs : List Triple,
      (vs.Pairwise fun t u => t.key < u.key) → vs.Nodup := by
    intro vs hAscending
    refine hAscending.imp ?_
    rintro t _ hLess rfl
    exact List.lt_irrefl _ hLess
  have hPerm : ts.Perm us :=
    (List.perm_ext_iff_of_nodup (hNodup ts hFirst)
      (hNodup us hSecond)).mpr hSame
  refine hPerm.eq_of_pairwise ?_ hFirst hSecond
  intro t u _ _ hLess hGreater
  exact absurd hGreater (List.lt_asymm hLess)

------------------------------------------------------------
-- The Copy of a Collection
------------------------------------------------------------

namespace Store

variable {s : Store}
variable {c : Connection}

/- What is listed after a run was written in the run. -/
theorem adds_of_mem_list
    {c' : Connection}
    (hEmpty : c.content.rows s.collection = .ok [])
    {commands : List Command}
    (hList :
      (s.list .all).on (s.runAll commands c).2 = (.ok ts, c'))
    (hMember : t ∈ ts) :
    ∃ command ∈ commands, command.Adds t := by
  rcases exists_list_runAll hEmpty .nil commands with
    ⟨answers, c'', us, hRun, _, hListed, _, hIff⟩
  rw [hRun, hListed, Prod.mk.injEq, Except.ok.injEq] at hList
  rw [← hList.1, hIff] at hMember
  rcases Command.adds_of_mem_foldl hMember with hOld | hAdds
  · simp at hOld
  · exact hAdds

/- The commands of all groups leave the triples of the groups. -/
theorem runAll_groups_idle
    (hEmpty : c.content.rows s.collection = .ok [])
    (hIdle : c.inTransaction = false)
    (hAscending : ts.Pairwise fun t u => t.key < u.key)
    (hRestorable : ∀ u ∈ ts, u.IsRestorable)
    {gs : List Group}
    (hGathers : ∀ g ∈ gs, g.Gathers ts)
    (hSubjects :
      gs.map Group.subject =
        (ts.map Triple.subject).eraseDups) :
    ∃ c',
      s.runAll (gs.map Group.command) c =
        (gs.map fun _ => .ok (), c') ∧
      (s.list .all).on c' = (.ok ts, c') := by
  rcases exists_list_runAll hEmpty .nil (gs.map Group.command) with
    ⟨answers, c', us, hRun, hAnswers, hList, hAscending', hMember⟩
  rw [hIdle] at hAnswers
  have hOk := answers_eq_ok hAnswers (by
    simp only [List.forall_mem_map]
    exact fun g hGroup =>
      (hGathers g hGroup).succeeds_command hRestorable)
  have hKeep : ∀ t, ∀ command ∈ gs.map Group.command,
      ¬ command.Removes t := by
    simp only [List.forall_mem_map]
    exact fun t g _ => id
  have hSame : us = ts := by
    apply eq_of_ascending hAscending' hAscending
    intro t
    rw [hMember, hOk, Command.mem_foldl_leave_iff (hKeep t),
      exists_adds_iff hRestorable hGathers hSubjects]
    simp
  refine ⟨c', ?_, hSame ▸ hList⟩
  rw [hRun, hOk, List.map_map]
  rfl

/-
  On any connection that requests lead to, what a collection
  holds can be grouped, and where all of it was written from
  restorable values, nothing fails to be decoded.  Each group is
  then written into any empty collection outside a transaction,
  and what is listed there is the same list of triples.
-/
theorem list_all_of_copy
    (s : Store)
    (c : Connection)
    (hReach : c.Reachable)
    (hTable : c.content.hasTable s.collection = true) :
    ∃ ts g,
      (s.list .all).on c = (.ok ts, c) ∧
      grouped ts = .ok g ∧
      ((∀ t ∈ ts, t.IsRestorable) →
        g.isComplete = true ∧
        ∀ (copy : Store) (d : Connection),
          d.content.rows copy.collection = .ok [] →
          (d.inTransaction = false →
            ∃ d',
              copy.runAll (g.groups.map Group.command) d =
                (g.groups.map fun _ => .ok (), d') ∧
              (copy.list .all).on d' = (.ok ts, d')) ∧
          (d.inTransaction = true →
            copy.runAll (g.groups.map Group.command) d =
              (g.groups.map fun _ =>
                .error (.execution .nestedTransaction), d))) := by
  rcases Database.hasTable_iff.mp hTable with ⟨rows, hRows⟩
  rcases (hReach.rows_sound hRows).exists_triples with
    ⟨ts, hSort, hAscending⟩
  have hContiguous : Contiguous (ts.map Triple.subject) :=
    contiguous_of_pairwise
      (fun _ _ hFirst hSecond => eq_of_not_utf8_lt hSecond hFirst)
      (subjects_pairwise hAscending)
  rcases exists_grouped hContiguous with ⟨g, hGrouped, hSubjects⟩
  rcases gathers_of_grouped hGrouped with ⟨hGathers, hFailures⟩
  refine ⟨ts, g, on_list_all hRows hSort, hGrouped, ?_⟩
  intro hRestorable
  refine ⟨?_, fun copy d hEmpty => ⟨fun hIdle => ?_, ?_⟩⟩
  · rw [Grouping.isComplete, hFailures, List.isEmpty_iff,
      failuresOf_eq_nil_iff]
    intro t hMember
    rcases (hRestorable t hMember).exists_value with
      ⟨v, hValue, _⟩
    exact ⟨v, hValue⟩
  · exact runAll_groups_idle hEmpty hIdle hAscending hRestorable
      hGathers hSubjects
  · exact fun hOpen => runAll_groups_open hOpen g.groups

/- A leap second that is not at the end of a minute. -/
def oddSecond : Value :=
  .timestamp ⟨1483228790, 1500000000⟩

def sizes : Value :=
  .map [("feet", .list [.integer 6, .null]), ("inch", .bool true)]

/- Two people with values that are written again as they were. -/
def peopleMet : List Command :=
  [.set "bob" "met" oddSecond.toDatum,
    .set "ann" "met" oddSecond.toDatum,
    .set "ann" "met" (Value.text "at noon").toDatum,
    .set "ann" "size" sizes.toDatum]

theorem list_all_of_copy_people :
    let people := (runAll ⟨"people"⟩ peopleMet (.fresh "people")).2
    ∃ ts g d',
      (list ⟨"people"⟩ .all).on people = (.ok ts, people) ∧
      (∀ t ∈ ts, t.IsRestorable) ∧
      grouped ts = .ok g ∧ g.isComplete = true ∧
      runAll ⟨"others"⟩ (g.groups.map Group.command)
          (.fresh "others") =
        (g.groups.map fun _ => .ok (), d') ∧
      (list ⟨"others"⟩ .all).on d' = (.ok ts, d') := by
  intro people
  have hFold : foldName "people" = "people" :=
    foldName_eq_self rfl
  have hReach : people.Reachable :=
    (Connection.reachable_fresh (by decide) hFold
      (by decide)).runAll _ _
  have hTable : people.content.hasTable "people" = true :=
    hasTable_runAll (Connection.hasTable_fresh hFold) _
  rcases list_all_of_copy ⟨"people"⟩ people hReach hTable with
    ⟨ts, g, hList, hGrouped, hCopies⟩
  have hSecond : oddSecond.Restorable := by
    have hPlain : oddSecond.IsPlain := ⟨by decide, by decide⟩
    exact ⟨by simpa [oddSecond, Value.nodes] using hPlain,
      by decide⟩
  have hText : (Value.text "at noon").Restorable := by
    have hPlain : (Value.text "at noon").IsPlain := ⟨_, rfl⟩
    exact ⟨by simpa [Value.nodes] using hPlain, by decide⟩
  have hSizes : sizes.Restorable := by
    have hKeys : sizes.IsPlain :=
      List.pairwise_pair.mpr
        (show ("feet" : String) < "inch" by decide)
    refine ⟨List.forall_mem_cons.mpr ⟨hKeys, ?_⟩, by decide⟩
    simp [Value.nodes, Value.nodesOfItems, Value.nodesOfEntries,
      Value.IsPlain]
  have hRestorable : ∀ t ∈ ts, t.IsRestorable := by
    intro t hMember
    rcases adds_of_mem_list (Connection.rows_fresh hFold) hList
      hMember with ⟨command, hCommand, hAdds⟩
    simp only [peopleMet, List.mem_cons, List.not_mem_nil,
      or_false] at hCommand
    rcases hCommand with rfl | rfl | rfl | rfl
    · exact ⟨_, hSecond, hAdds.2.2⟩
    · exact ⟨_, hSecond, hAdds.2.2⟩
    · exact ⟨_, hText, hAdds.2.2⟩
    · exact ⟨_, hSizes, hAdds.2.2⟩
  rcases hCopies hRestorable with ⟨hComplete, hEach⟩
  rcases (hEach ⟨"others"⟩ (.fresh "others")
    (Connection.rows_fresh (foldName_eq_self rfl))).1 rfl with
    ⟨d', hRun, hCopy⟩
  exact ⟨ts, g, d', hList, hRestorable, hGrouped, hComplete,
    hRun, hCopy⟩

end Store

end Factbase
