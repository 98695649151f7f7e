import Factbase.Binary.Decimal
import Factbase.Pattern.Check
import Factbase.Settings.Basic

/-
  This file defines which texts are log filters.

  A filter is a list of directives between commas.  A directive
  is a target, a span with fields, or both, and may end with an
  equals sign and a level.  A field may have a value to be
  compared with.

  Key definitions include:
    * `LogFilter.Fault`
    * `LogFilter.checkField`
    * `LogFilter.checkDirective`
    * `LogFilter.check`
    * `LoggingSettings.checked`
-/

namespace Factbase.LogFilter

------------------------------------------------------------
-- Faults
------------------------------------------------------------

/- Why a text is no log filter. -/
inductive Fault where
  | directive
  | level
  | field (fault : Pattern.Fault)
deriving DecidableEq, Repr

/- The wording of a fault. -/
def Fault.message : Fault → String
  | .directive => "invalid filter directive"
  | .level =>
      "error parsing level filter: expected one of \"off\", "
        ++ "\"error\", \"warn\", \"info\", \"debug\", \"trace\", "
        ++ "or a number 0-5"
  | .field fault => "invalid field filter: " ++ fault.message

------------------------------------------------------------
-- Levels
------------------------------------------------------------

def levelNames : List String :=
  ["off", "error", "warn", "info", "debug", "trace"]

/- A number from zero to five, with a plus sign or without. -/
def isLevelNumber (cs : List Char) : Bool :=
  let ds := match cs with
    | '+' :: r => r
    | r => r
  !ds.isEmpty && ds.all Char.isDigit && Digits.value ds ≤ 5

/- A level; no text at all stands for every level. -/
def isLevel (cs : List Char) : Bool :=
  cs.isEmpty || isLevelNumber cs
    || String.ofList (cs.map Char.toLower) ∈ levelNames

/-
  A field is a name, and perhaps an equals sign and a value up
  to the next one.  A value is a number or a pattern; truth
  values are read as patterns.
-/
def checkField (cs : List Char) : Except Fault Unit :=
  match (cs.splitOn '=')[1]? with
  | none => .ok ()
  | some value =>
      let number? : Option Binary64 := Binary.ofText? (.ofList value)
      if number?.isSome then .ok ()
      else match Pattern.fault? value with
        | none => .ok ()
        | some fault => .error (.field fault)

------------------------------------------------------------
-- Directives
------------------------------------------------------------

/- The part of a directive that is being read. -/
inductive Part where
  | start
  | levelOrTarget
  | span
  /- A field that starts at a byte of the directive. -/
  | field (first : Nat)
  | fields
  | target
  /- A level that starts at a byte of the directive. -/
  | level (first : Nat)
deriving DecidableEq, Repr

/- A text after some of its bytes. -/
def dropBytes : Nat → List Char → List Char
  | _, [] => []
  | n, c :: cs =>
      if n = 0 then c :: cs else dropBytes (n - c.utf8Size) cs

/- A text up to some number of bytes. -/
def takeBytes : Nat → List Char → List Char
  | _, [] => []
  | n, c :: cs =>
      if n = 0 then [] else c :: takeBytes (n - c.utf8Size) cs

/-
  The part after a character that stands at a byte.  The bytes
  of a field are those of the whole text.
-/
def Part.next
    (whole : List Char)
    (part : Part)
    (c : Char)
    (first : Nat) : Except Fault Part :=
  let stop := first + c.utf8Size
  match part with
  | .start =>
      if c = '[' then .ok .span
      else if isWordlike c || c ∈ ['-', ':', '_'] then
        .ok .levelOrTarget
      else .error .directive
  | .levelOrTarget =>
      if c = '=' then .ok (.level stop)
      else if c = '[' then .ok .span
      else .ok .levelOrTarget
  | .span =>
      if c = ']' then .ok .target
      else if c = '{' then .ok (.field stop)
      else .ok .span
  | .field i =>
      if c = '}' then
        if i = first then .error .directive
        else do
          checkField (takeBytes (first - i) (dropBytes i whole))
          pure .fields
      else .ok (.field i)
  | .fields => if c = ']' then .ok .target else .error .directive
  | .target => if c = '=' then .ok (.level stop) else .error .directive
  | .level i => .ok (.level i)

/- The last part of a directive. -/
def lastPart
    (whole : List Char)
    (part : Part)
    (offset : Nat) : List Char → Except Fault Part
  | [] => .ok part
  | c :: cs => do
      lastPart whole (← part.next whole c offset)
        (offset + c.utf8Size) cs

/-
  The fault of a directive.  Blanks around it are passed over,
  but the bytes of a field or a level are counted in the text
  that still has them.
-/
def checkDirective (cs : List Char) : Option Fault :=
  match lastPart cs .start 0 (trim cs) with
  | .ok .levelOrTarget => none
  | .ok .target => none
  | .ok (.level first) =>
      if isLevel (dropBytes first cs) then none
      else some .level
  | .ok _ => some .directive
  | .error fault => some fault

/- The fault of the first directive that has one. -/
def check (filter : String) : Option Fault :=
  ((filter.toList.splitOn ',').filter (!·.isEmpty)).findSome?
    checkDirective

end LogFilter

/-
  Logging can be set up.  A filter from outside comes first, if
  it is one at all.
-/
def LoggingSettings.checked
    (s : LoggingSettings)
    (outer : Option String) : Except StoreError Unit :=
  if outer.any fun f => (LogFilter.check f).isNone then .ok ()
  else match LogFilter.check s.filter with
    | none => .ok ()
    | some fault =>
        .error (.config
          ("logging filter '" ++ s.filter ++ "': "
            ++ fault.message))

end Factbase
