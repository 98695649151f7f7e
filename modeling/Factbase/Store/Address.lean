import Factbase.Error
import Factbase.Text.Digits

/-
  This file defines the addresses of databases: a plain name,
  or a text such as `file:facts.db?mode=rw` with options.

  In a text that starts with `file:`, the name ends at `?` and
  everything at `#`, and a percent sign with two hexadecimal
  digits stands for a byte.

  Key definitions include:
    * `Access`
    * `Address`
    * `Address.decoded`
    * `Address.options`
    * `Address.read`
-/

namespace Factbase

------------------------------------------------------------
-- Addresses
------------------------------------------------------------

/- How a database is opened. -/
inductive Access where
  | readOnly
  /- Read and write what is there. -/
  | existing
  /- Read and write, and make a file if there is none. -/
  | create
  /- Use memory, whatever the name. -/
  | memory
deriving DecidableEq, Repr

/- A named database, and how it is opened. -/
structure Address where
  name : List UInt8
  access : Access
  /- Connections to one name in memory have the same content. -/
  shared : Bool
deriving DecidableEq, Repr

namespace Access

/- The access that an option asks for. -/
def named? (name : String) : Option Access :=
  [("ro", readOnly), ("rw", existing), ("rwc", create),
    ("memory", memory)].lookup name

/- How much an access lets a connection to a file do. -/
def width : Access → Nat
  | .readOnly => 1
  | .existing => 2
  | .create => 3
  | .memory => 0

/-
  Whether an option may replace an access by another.  Memory
  can replace and be replaced; an access to a file gives way to
  no wider one.
-/
def givesWay : Access → Access → Bool
  | .memory, _ => true
  | old, new => new.width ≤ old.width

end Access

namespace Address

/- A name that is not a text with options. -/
def plain (name : List Char) : Address :=
  ⟨(String.ofList name).toUTF8.toList, .create, false⟩

------------------------------------------------------------
-- Texts
------------------------------------------------------------

/- A text as bytes, up to a byte that is zero. -/
def decoded : List Char → List UInt8
  | '%' :: a :: b :: cs =>
      match Digits.hexDigit? a, Digits.hexDigit? b with
      | some high, some low =>
          if high = 0 ∧ low = 0 then []
          else (16 * high + low).toUInt8 :: decoded cs
      | _, _ => '%'.toUInt8 :: decoded (a :: b :: cs)
  | c :: cs => (String.singleton c).toUTF8.toList ++ decoded cs
  | [] => []

/- Bytes as a text; bytes that are no text are not told apart. -/
def text (bytes : List UInt8) : String :=
  (String.fromUTF8? ⟨bytes.toArray⟩).getD "\ufffd"

/- An option and its value, parted by the first equals sign. -/
def option (cs : List Char) : String × String :=
  (text (decoded (cs.takeWhile (· ≠ '='))),
    text (decoded ((cs.dropWhile (· ≠ '=')).drop 1)))

/- The options of a text, without those that have no name. -/
def options (cs : List Char) : List (String × String) :=
  ((cs.splitOn '&').map option).filter (·.1 ≠ "")

------------------------------------------------------------
-- Options
------------------------------------------------------------

/- The file systems that an option can name. -/
def systems : List String :=
  ["unix", "unix-none", "unix-dotfile", "unix-excl"]

/- An address after an option. -/
def choose
    (a : Address) : String × String → Except EngineFault Address
  | ("cache", value) =>
      if value = "shared" then .ok { a with shared := true }
      else if value = "private" then .ok { a with shared := false }
      else .error (.unknownMode "cache" value)
  | ("mode", value) =>
      match Access.named? value with
      | none => .error (.unknownMode "access" value)
      | some access =>
          if a.access.givesWay access then
            .ok { a with access := access }
          else .error (.forbiddenMode value)
  | _ => .ok a

/- The last file system that options name. -/
def system? (options : List (String × String)) : Option String :=
  options.reverse.lookup "vfs"

/-
  The name after `file:`, without the machine between two
  slashes and the next one; only this machine can be named.
-/
def onThisMachine : List Char → Except EngineFault (List Char)
  | '/' :: '/' :: cs =>
      let machine := String.ofList (cs.takeWhile (· ≠ '/'))
      if machine = "" ∨ machine = "localhost" then
        .ok (cs.dropWhile (· ≠ '/'))
      else .error (.unknownMachine machine)
  | cs => .ok cs

/- The address that follows `file:`. -/
def withOptions (cs : List Char) : Except EngineFault Address := do
  let cs := (← onThisMachine cs).takeWhile (· ≠ '#')
  let given := options ((cs.dropWhile (· ≠ '?')).drop 1)
  let address ← given.foldlM choose
    ⟨decoded (cs.takeWhile (· ≠ '?')), .create, false⟩
  match system? given with
  | none => .ok address
  | some system =>
      if system ∈ systems then .ok address
      else if system = "memdb" then
        .ok { address with access := .memory, shared := false }
      else .error (.unknownSystem system)

/- The address that a text gives. -/
def read (cs : List Char) : Except EngineFault Address :=
  match cs with
  | 'f' :: 'i' :: 'l' :: 'e' :: ':' :: cs => withOptions cs
  | cs => .ok (plain cs)

end Address

end Factbase
