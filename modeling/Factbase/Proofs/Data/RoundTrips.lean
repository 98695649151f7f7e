import Factbase.Proofs.Data.Rereading
import Factbase.Proofs.Data.Shapes
import Factbase.Proofs.Json.Typed
import Factbase.Settings.Basic

/-
  Values of the shapes without floats and timestamps, written
  and read back.

  A caller who names the shape that a value was written in gets
  the value back.  That carries over from the parts of a value to
  the whole, so each compound shape has one lemma.  Strings that
  look like timestamps are no exception: only the reader of any
  shape takes them for timestamps.

  Key definitions include:
    * `Shape.Rereads`
    * `Shape.RoundTrips`

  Main declarations:
    * `Shape.Rereads.roundTrips`
    * `Shape.rereads_record`
    * `Settings.exists_rereads`
    * `decode_encode_by_shape`
-/

namespace Factbase

------------------------------------------------------------
-- Encodings of Parts
------------------------------------------------------------

namespace Datum

variable {α : Type}

/- Items that have texts are written with these. -/
theorem encodeItems_map
    {toDatum : α → Datum}
    {write : α → List Char}
    {xs : List α}
    (hEncodes : ∀ x ∈ xs, (toDatum x).encodeChars = .ok (write x)) :
    encodeItems (xs.map toDatum) = .ok (xs.map write) := by
  induction xs with
  | nil => rfl
  | cons x xs ih =>
      rw [List.forall_mem_cons] at hEncodes
      rw [List.map_cons, encodeItems, hEncodes.1, ih hEncodes.2]
      rfl

/-
  Entries that have texts are written with these under their
  keys.
-/
theorem encodeEntries_map
    {toDatum : α → Datum}
    {write : α → List Char}
    {entries : List (String × α)}
    (hEncodes : ∀ e ∈ entries,
      (toDatum e.2).encodeChars = .ok (write e.2)) :
    encodeEntries (entries.map fun e => (.text e.1, toDatum e.2)) =
      .ok (entries.map fun e =>
        Json.member (Json.quoted e.1.toList) (write e.2)) := by
  induction entries with
  | nil => rfl
  | cons e entries ih =>
      rw [List.forall_mem_cons] at hEncodes
      rw [List.map_cons, encodeEntries, encodeKey, hEncodes.1,
        ih hEncodes.2]
      rfl

/- The parts of a record, all of them there. -/
theorem encodeFields_map
    {toDatum : α → Datum}
    {write : α → List Char}
    {fields : List (String × α)}
    (hEncodes : ∀ f ∈ fields,
      (toDatum f.2).encodeChars = .ok (write f.2)) :
    encodeFields
        (fields.map fun f => (f.1, Option.some (toDatum f.2))) =
      .ok (fields.map fun f =>
        Json.member (Json.quoted f.1.toList) (write f.2)) := by
  induction fields with
  | nil => rfl
  | cons f fields ih =>
      rw [List.forall_mem_cons] at hEncodes
      rw [List.map_cons, encodeFields, hEncodes.1, ih hEncodes.2]
      rfl

end Datum

namespace Shape

variable {α β : Type}
variable {s : Shape α}
variable {t : Shape β}
variable {x : α}
variable {y : β}
variable {text : List Char}

------------------------------------------------------------
-- Shapes that Read Back
------------------------------------------------------------

/-
  A value is written as a text from which its shape reads the
  value, wherever the text stands.
-/
structure Rereads
    (s : Shape α)
    (x : α)
    (text : List Char) : Prop where
  encodes : (s.toDatum x).encodeChars = .ok text
  opens : Json.Opens text
  reads : ∀ budget, Json.ReadsTo (s.read budget) text (some x)

/- A value is encoded, and decodes as itself. -/
def RoundTrips
    (s : Shape α)
    (x : α) : Prop :=
  ∃ text, encode (s.toDatum x) = .ok text ∧ decode s text = .ok x

/- What is read wherever it stands is read where it stands alone. -/
theorem Rereads.roundTrips (hRereads : s.Rereads x text) :
    s.RoundTrips x := by
  refine ⟨.ofList text, ?_, ?_⟩
  · rw [encode, Datum.encode, hRereads.encodes]
    rfl
  · have hRead : s.read Json.deepest (text ++ []) = .ok (x, []) :=
      hRereads.reads Json.deepest [] Json.ends_nil
    rw [List.append_nil] at hRead
    refine decode_eq_ok_iff.mpr ⟨[], ?_, rfl⟩
    rw [String.toList_ofList, hRead]

------------------------------------------------------------
-- Scalars
------------------------------------------------------------

theorem rereads_unit : unit.Rereads () "null".toList :=
  { encodes := rfl,
    opens := Json.Doc.opens_null,
    reads := fun _ => Json.readsTo_readUnit }

theorem rereads_bool (b : Bool) : bool.Rereads b (boolText b) :=
  { encodes := rfl,
    opens := Json.Doc.opens_bool b,
    reads := fun _ => Json.readsTo_readBool b }

/- An integer within its type rereads. -/
theorem rereads_int
    {t : IntType}
    {n : Int}
    (hHolds : t.holds n = true) :
    (int t).Rereads n (Digits.writeInt n) :=
  { encodes := rfl,
    opens := by
      rcases Digits.exists_writeInt_eq_cons n with
        ⟨c, cs, hWrite, hMark⟩
      rw [hWrite]
      exact Json.opens_of_numeral hMark,
    reads := fun _ => Json.readsTo_readInt hHolds }

theorem rereads_char (c : Char) :
    char.Rereads c (Json.quoted [c]) :=
  { encodes := rfl,
    opens := Json.Doc.opens_quoted _,
    reads := fun _ => Json.readsTo_readChar c }

/- A text rereads whatever it is made of. -/
theorem rereads_text (x : String) :
    Shape.text.Rereads x (Json.quoted x.toList) :=
  { encodes := rfl,
    opens := Json.Doc.opens_quoted _,
    reads := fun _ => Json.readsTo_readText x }

------------------------------------------------------------
-- Compounds
------------------------------------------------------------

/- The text of a value that may be missing. -/
def writeOption (write : α → List Char) : Option α → List Char
  | none => "null".toList
  | some x => write x

/- A value that may be missing, if it is not written as a null is. -/
theorem rereads_option
    {x : Option α}
    (write : α → List Char)
    (hRereads : ∀ y ∈ x, s.Rereads y (write y))
    (hNotNull : ∀ y ∈ x, (write y).head? ≠ some 'n') :
    (option s).Rereads x (writeOption write x) := by
  cases x with
  | none =>
      exact
        { encodes := rfl,
          opens := Json.Doc.opens_null,
          reads := fun budget =>
            Json.readsTo_readOption_none (s.read budget) }
  | some y =>
      have hItem := hRereads y rfl
      exact
        { encodes := hItem.encodes,
          opens := hItem.opens,
          reads := fun budget =>
            Json.readsTo_readOption_some hItem.opens
              (hNotNull y rfl) (hItem.reads budget) }

/- A list rereads if its items do. -/
theorem rereads_list
    {xs : List α}
    (write : α → List Char)
    (hRereads : ∀ x ∈ xs, s.Rereads x (write x)) :
    (list s).Rereads xs (Json.bracketed (xs.map write)) :=
  { encodes := by
      change (Datum.list (xs.map s.toDatum)).encodeChars = _
      rw [Datum.encodeChars, Datum.encodeItems_map fun x hMember =>
        (hRereads x hMember).encodes]
      rfl,
    opens := Json.Doc.opens_bracketed _,
    reads := fun budget =>
      Json.readsTo_readList write
        (fun x hMember => (hRereads x hMember).opens)
        fun x hMember => (hRereads x hMember).reads (budget - 1) }

/- A pair rereads if its two parts do. -/
theorem Rereads.pair
    {first second : List Char}
    (hLeft : s.Rereads x first)
    (hRight : t.Rereads y second) :
    (pair s t).Rereads (x, y) (Json.bracketed [first, second]) :=
  { encodes := by
      change (Datum.list [s.toDatum x, t.toDatum y]).encodeChars = _
      simp only [Datum.encodeChars, Datum.encodeItems,
        hLeft.encodes, hRight.encodes]
      rfl,
    opens := Json.Doc.opens_bracketed _,
    reads := fun budget =>
      Json.readsTo_readPair hLeft.opens hRight.opens
        (hLeft.reads (budget - 1)) (hRight.reads (budget - 1)) }

/- A map rereads if its values do and its keys ascend. -/
theorem rereads_map
    {entries : Entries α}
    (write : α → List Char)
    (hSorted : Entries.Sorted entries)
    (hRereads : ∀ e ∈ entries, s.Rereads e.2 (write e.2)) :
    (map s).Rereads entries
      (Json.braced (entries.map fun e =>
        Json.member (Json.quoted e.1.toList) (write e.2))) :=
  { encodes := by
      change (Datum.map (entries.map fun e =>
        (.text e.1, s.toDatum e.2))).encodeChars = _
      rw [Datum.encodeChars,
        Datum.encodeEntries_map fun e hMember =>
          (hRereads e hMember).encodes]
      rfl,
    opens := Json.Doc.opens_braced _,
    reads := by
      intro budget rest hEnds
      have hMembers := (Json.readsTo_readMembers write
        (fun e hMember => (hRereads e hMember).reads (budget - 1))
        rest hEnds).map Entries.ofList
      rwa [Option.map_some,
        Entries.ofList_of_sorted hSorted] at hMembers }

------------------------------------------------------------
-- Records
------------------------------------------------------------

section Records

variable {σ : Type}

/- A part of a record: its datum, its text, and its setter. -/
structure RecordPart (σ : Type) where
  name : String
  datum : Datum
  text : List Char
  set : σ → σ

/- A part that holds a value of a shape, written as a text. -/
def RecordPart.of
    (name : String)
    (s : Shape α)
    (x : α)
    (text : List Char)
    (set : α → σ → σ) : RecordPart σ :=
  ⟨name, s.toDatum x, text, set x⟩

/- The part as a member that is read. -/
def RecordPart.member (p : RecordPart σ) : Json.Part (σ → σ) :=
  ⟨p.name.toList, p.text, some p.set⟩

/- The part is written as its text and read by one of the fields. -/
def RecordPart.Fits
    (fields : List (Json.Field σ))
    (p : RecordPart σ) : Prop :=
  p.datum.encodeChars = .ok p.text ∧ p.member.Fills fields

/- A part fits if its field reads its shape. -/
theorem Rereads.fits
    {name : String}
    {set : α → σ → σ}
    {fields : List (Json.Field σ)}
    {read : Json.Reader α}
    (hRereads : s.Rereads x text)
    (hRead : s.read 0 = read)
    (hFind : fields.find? (fun f => f.name = name) =
      some (Json.field name read set)) :
    (RecordPart.of name s x text set).Fits fields := by
  subst hRead
  have hFills := Json.fills_of_field hFind (hRereads.reads 0)
  exact ⟨hRereads.encodes, hFills⟩

/- The texts of all parts are read as the record that they set. -/
theorem rereads_record
    {r : Shape σ}
    {x start : σ}
    {name : String}
    {fields : List (Json.Field σ)}
    (parts : List (RecordPart σ))
    (hDatum : r.toDatum x =
      .record (parts.map fun p => (p.name, some p.datum)))
    (hRead : r.read = fun _ => Json.readRecord name fields start)
    (hFits : ∀ p ∈ parts, p.Fits fields)
    (hDistinct : (parts.map RecordPart.name).Nodup)
    (hSet : Json.setAll start (parts.map RecordPart.set) = x) :
    r.Rereads x
      (Json.braced (parts.map fun p => p.member.written)) :=
  { encodes := by
      have hEncodes : ∀ f ∈ parts.map fun p => (p.name, p),
          f.2.datum.encodeChars = .ok f.2.text :=
        List.forall_mem_map.mpr fun p hMember =>
          (hFits p hMember).1
      have hFields := Datum.encodeFields_map hEncodes
      rw [List.map_map, List.map_map] at hFields
      rw [hDatum, Datum.encodeChars]
      exact hFields ▸ rfl,
    opens := Json.Doc.opens_braced _,
    reads := by
      intro budget
      have hNames : (parts.map RecordPart.member).map
          Json.Part.name = parts.map RecordPart.name := by
        simp [RecordPart.member, Json.Part.name]
      have hSets : (parts.map RecordPart.member).mapM
          Json.Part.result = some (parts.map RecordPart.set) := by
        rw [List.mapM_map]
        exact List.mapM_pure
      have hRecord := Json.readsTo_readRecord name start
        (List.forall_mem_map.mpr fun p hMember =>
          (hFits p hMember).2)
        (hNames ▸ hDistinct)
      rw [hSets, Option.map_some, hSet, List.map_map] at hRecord
      rw [hRead]
      exact hRecord }

end Records

end Shape

------------------------------------------------------------
-- Settings
------------------------------------------------------------

/- The shape of the settings of a store. -/
def StorageSettings.shape : Shape StorageSettings :=
  { toDatum := StorageSettings.toDatum,
    read := fun _ => StorageSettings.read }

def LoggingSettings.shape : Shape LoggingSettings :=
  { toDatum := LoggingSettings.toDatum,
    read := fun _ => LoggingSettings.read }

/- The settings of a storage reread, with or without a path. -/
theorem StorageSettings.exists_rereads (s : StorageSettings) :
    ∃ text, shape.Rereads s text := by
  have hPath := Shape.rereads_option
    (s := .text) (x := s.path) (fun p => Json.quoted p.toList)
    (fun p _ => Shape.rereads_text p)
    (by simp [Json.quoted, Json.opening])
  have hCollection := Shape.rereads_text s.collection
  have hNames : ["path", "collection"].Nodup := by decide
  refine ⟨_, Shape.rereads_record
    [.of "path" (.option .text) s.path
        (Shape.writeOption (fun p => Json.quoted p.toList) s.path)
        fun x s => { s with path := x },
      .of "collection" .text s.collection
        (Json.quoted s.collection.toList)
        fun x s => { s with collection := x }]
    rfl rfl ?_ hNames rfl⟩
  exact List.forall_mem_cons.mpr ⟨hPath.fits rfl rfl,
    List.forall_mem_singleton.mpr (hCollection.fits rfl rfl)⟩

/- So do those of logging. -/
theorem LoggingSettings.exists_rereads (s : LoggingSettings) :
    ∃ text, shape.Rereads s text := by
  have hFilter := Shape.rereads_text s.filter
  have hNames : ["filter"].Nodup := by decide
  refine ⟨_, Shape.rereads_record
    [.of "filter" .text s.filter (Json.quoted s.filter.toList)
        fun x _ => { filter := x }]
    rfl rfl ?_ hNames rfl⟩
  exact List.forall_mem_singleton.mpr (hFilter.fits rfl rfl)

/- So do the settings with both sections. -/
theorem Settings.exists_rereads (s : Settings) :
    ∃ text, shape.Rereads s text := by
  rcases s.storage.exists_rereads with ⟨storage, hStorage⟩
  rcases s.logging.exists_rereads with ⟨logging, hLogging⟩
  have hNames : ["storage", "logging"].Nodup := by decide
  refine ⟨_, Shape.rereads_record
    [.of "storage" StorageSettings.shape s.storage storage
        fun x s => { s with storage := x },
      .of "logging" LoggingSettings.shape s.logging logging
        fun x s => { s with logging := x }]
    rfl rfl ?_ hNames rfl⟩
  exact List.forall_mem_cons.mpr ⟨hStorage.fits rfl rfl,
    List.forall_mem_singleton.mpr (hLogging.fits rfl rfl)⟩

------------------------------------------------------------
-- All Shapes
------------------------------------------------------------

/- An integer is not written as a null is. -/
theorem Digits.head?_writeInt_ne (n : Int) :
    (writeInt n).head? ≠ some 'n' := by
  rcases exists_writeInt_eq_cons n with ⟨c, cs, hWrite, hMark⟩
  rw [hWrite]
  rintro hHead
  cases hHead
  rcases hMark with hMinus | hDigit
  · exact absurd hMinus (by decide)
  · exact absurd hDigit (by decide)

/-
  Every value of these shapes is encoded, and decodes as itself:
  nulls, truth values, the integers of every type, characters,
  strings, integers that may be missing, lists of strings or of
  integers, pairs of a string and an integer, maps to integers,
  and settings.
-/
theorem decode_encode_by_shape :
    (∀ x, Shape.unit.RoundTrips x) ∧
      (∀ b, Shape.bool.RoundTrips b) ∧
      (∀ (t : IntType) (n : Int), t.holds n = true →
        (Shape.int t).RoundTrips n) ∧
      (∀ c, Shape.char.RoundTrips c) ∧
      (∀ s, Shape.text.RoundTrips s) ∧
      (∀ x : Option Int, (∀ n ∈ x, IntType.i64.holds n = true) →
        (Shape.option (.int .i64)).RoundTrips x) ∧
      (∀ xs, (Shape.list .text).RoundTrips xs) ∧
      (∀ xs : List Int, (∀ n ∈ xs, IntType.i64.holds n = true) →
        (Shape.list (.int .i64)).RoundTrips xs) ∧
      (∀ (s : String) (n : Int), IntType.i64.holds n = true →
        (Shape.pair .text (.int .i64)).RoundTrips (s, n)) ∧
      (∀ entries : Entries Int, entries.Sorted →
        (∀ e ∈ entries, IntType.i64.holds e.2 = true) →
          (Shape.map (.int .i64)).RoundTrips entries) ∧
      ∀ s, Settings.shape.RoundTrips s := by
  refine ⟨fun _ => Shape.rereads_unit.roundTrips,
    fun b => (Shape.rereads_bool b).roundTrips,
    fun _ _ hHolds => (Shape.rereads_int hHolds).roundTrips,
    fun c => (Shape.rereads_char c).roundTrips,
    fun s => (Shape.rereads_text s).roundTrips,
    ?option, ?texts, ?ints, ?pair, ?map, ?settings⟩
  case option =>
    intro x hHolds
    exact (Shape.rereads_option _
      (fun n hMember => Shape.rereads_int (hHolds n hMember))
      fun n _ => Digits.head?_writeInt_ne n).roundTrips
  case texts =>
    intro xs
    exact (Shape.rereads_list _
      fun s _ => Shape.rereads_text s).roundTrips
  case ints =>
    intro xs hHolds
    exact (Shape.rereads_list _ fun n hMember =>
      Shape.rereads_int (hHolds n hMember)).roundTrips
  case pair =>
    intro s n hHolds
    exact ((Shape.rereads_text s).pair
      (Shape.rereads_int hHolds)).roundTrips
  case map =>
    intro entries hSorted hHolds
    exact (Shape.rereads_map _ hSorted fun e hMember =>
      Shape.rereads_int (hHolds e hMember)).roundTrips
  case settings =>
    intro s
    rcases s.exists_rereads with ⟨text, hText⟩
    exact hText.roundTrips

/-
  The ends of the widest types, a string that looks like a
  timestamp with a quote and a control character after it, and
  a map and settings with a path.
-/
theorem decode_encode_by_shape_at_limits :
    let least : Int := -170141183460469231731687303715884105728
    let greatest : Int := 340282366920938463463374607431768211455
    let text := "2019-01-03T12:00:00Z\"\x01\n"
    let ages : Entries Int :=
      [("ann", -9223372036854775808), ("bob", 25)]
    let settings : Settings := ⟨⟨some text, "triples"⟩, ⟨"info"⟩⟩
    (Shape.int ⟨true, 128⟩).RoundTrips least ∧
      (Shape.int ⟨false, 128⟩).RoundTrips greatest ∧
      Shape.text.RoundTrips text ∧
      (Shape.map (.int .i64)).RoundTrips ages ∧
      Settings.shape.RoundTrips settings := by
  intro least greatest text ages settings
  rcases decode_encode_by_shape with ⟨_, _, hInt, _, hText, _, _,
    _, _, hMap, hSettings⟩
  have hSorted : ages.Sorted :=
    List.pairwise_pair.mpr (show ("ann" : String) < "bob" by decide)
  exact ⟨hInt _ least (by decide), hInt _ greatest (by decide),
    hText text, hMap ages hSorted (by decide), hSettings settings⟩

end Factbase
