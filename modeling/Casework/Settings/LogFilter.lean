import Casework.Pattern.Reader

/-!
# Log filters

The text that says which log lines are kept: directives with commas between them, such as
`info,billing=debug`.

* `LogFilter.isLevel` : the spellings of a level;
* `LogFilter.fieldFault?` : why a field of a span cannot be looked for;
* `LogFilter.fault?` : why a text is no filter, if it is none.

A directive is a level, or a target with or without a span, with or without a level.  So a word
that is no level is a target, and only a text behind an equals sign has to be a level.  A span may
name a field, and the value that the field has to have: a number, or else a pattern.
-/

namespace Casework
namespace LogFilter

inductive Fault where
  /-- What stands behind an equals sign is no level. -/
  | level
  /-- The value of a field is a pattern that cannot be used. -/
  | field (why : Pattern.Fault)
  /-- A directive that is put together in another way. -/
  | directive
deriving DecidableEq, Repr

def Fault.message : Fault → String
  | .level =>
      "error parsing level filter: expected one of \"off\", \"error\", \"warn\", \"info\", "
        ++ "\"debug\", \"trace\", or a number 0-5"
  | .field why => "invalid field filter: " ++ why.message
  | .directive => "invalid filter directive"

/-! ## Levels -/

def levelNames : List String := ["off", "error", "warn", "info", "debug", "trace"]

def isLevelNumber (cs : List Char) : Bool :=
  let ds := if cs.head? = some '+' then cs.drop 1 else cs
  !ds.isEmpty && ds.all Char.isDigit
    && ((ds.dropWhile (· = '0')).length ≤ 1 && (ds.getLastD '0').toNat ≤ '5'.toNat)

/-- Whether a text is a level: a name in any case, or a number, or nothing. -/
def isLevel (cs : List Char) : Bool :=
  cs.isEmpty || levelNames.contains (String.ofList (cs.map Char.toLower)) || isLevelNumber cs

/-! ## Fields -/

/-- What follows a sign, if there is one. -/
def afterSign (cs : List Char) : List Char :=
  if cs.head? = some '+' || cs.head? = some '-' then cs.drop 1 else cs

/-- Whether a text is the exponent of a number, or nothing. -/
def isExponent : List Char → Bool
  | [] => true
  | c :: cs => (c = 'e' || c = 'E') && !(afterSign cs).isEmpty && (afterSign cs).all Char.isDigit

/-- Whether a text is a number without a sign, with digits before or behind its point. -/
def isDecimal (cs : List Char) : Bool :=
  let whole := cs.takeWhile Char.isDigit
  match cs.drop whole.length with
  | '.' :: rest =>
      let fraction := rest.takeWhile Char.isDigit
      !(whole.isEmpty && fraction.isEmpty) && isExponent (rest.drop fraction.length)
  | rest => !whole.isEmpty && isExponent rest

/-- Whether a text is a number, or what stands for a number beyond all others or for none. -/
def isNumber (cs : List Char) : Bool :=
  let cs := afterSign cs
  ["inf", "infinity", "nan"].contains (String.ofList (cs.map Char.toLower)) || isDecimal cs

/-- Why a field cannot be looked for: its value, up to a second equals sign, is no number and no
pattern that can be used. -/
def fieldFault? (cs : List Char) : Option Fault :=
  match cs.dropWhile (· ≠ '=') with
  | [] => none
  | _ :: cs =>
      let value := cs.takeWhile (· ≠ '=')
      if isNumber value then none else (Pattern.fault? value).map .field

/-! ## Directives -/

def dropBytes : Nat → List Char → List Char
  | _, [] => []
  | n, c :: cs => if n = 0 then c :: cs else dropBytes (n - c.utf8Size) cs

/-- So many bytes of a text. -/
def takeBytes : Nat → List Char → List Char
  | _, [] => []
  | n, c :: cs => if n = 0 then [] else c :: takeBytes (n - c.utf8Size) cs

def beginsTarget (c : Char) : Bool :=
  c = '-' || c = ':' || c = '_' || Text.isAlphanumeric c

/-- The part of a directive that a reader is in. -/
inductive Part where
  | start
  /-- A level or a target. -/
  | name
  | span
  /-- The field of a span that begins at this position. -/
  | field (position : Nat)
  | fields
  | target
  /-- The level behind an equals sign at this position. -/
  | level (position : Nat)
deriving DecidableEq, Repr

/-- The part behind the character at a position of a text, if it may stand there. -/
def Part.next (text : List Char) (position : Nat) (c : Char) : Part → Except Fault Part
  | .start =>
      if c = '[' then .ok .span
      else if beginsTarget c then .ok .name
      else .error .directive
  | .name =>
      .ok (if c = '=' then .level (position + 1) else if c = '[' then .span else .name)
  | .target => if c = '=' then .ok (.level (position + 1)) else .error .directive
  | .span =>
      .ok (if c = ']' then .target else if c = '\x7b' then .field (position + 1) else .span)
  | .field n =>
      if c = '\x7d' then
        -- A field without a name is no field.
        if n = position then .error .directive
        else
          match fieldFault? (dropBytes n (takeBytes position text)) with
          | some f => .error f
          | none => .ok .fields
      else .ok (.field n)
  | .fields => if c = ']' then .ok .target else .error .directive
  | .level n => .ok (.level n)

def lastPart (text : List Char) : Nat → Part → List Char → Except Fault Part
  | _, part, [] => .ok part
  | position, part, c :: cs => do
      lastPart text (position + c.utf8Size) (← part.next text position c) cs

/-- Why a text is no directive, if it is none.  Positions count from the first character that is
not blank, even where they are used in the whole text. -/
def directiveFault? (cs : List Char) : Option Fault :=
  match lastPart cs 0 .start (Text.trim cs) with
  | .error f => some f
  | .ok .name | .ok .target => none
  | .ok (.level n) => if isLevel (dropBytes n cs) then none else some .level
  | .ok _ => some .directive

def directives (s : String) : List (List Char) :=
  ((s.splitOn ",").map String.toList).filter fun cs => !cs.isEmpty

/-- Why a text is no filter, if it is none. -/
def fault? (s : String) : Option Fault :=
  (directives s).findSome? directiveFault?

end LogFilter
end Casework
