import Casework.Decimal.Layout
import Casework.Json.Value
import Casework.Text.Quoted

/-!
# Why a value is no record

The causes for which a document value is refused, and their wording.

* `Fault` : the causes;
* `Fault.message` : the text of each.
-/

namespace Casework

/-- A cause for which a document value is refused. -/
inductive Fault where
  /-- A value of another kind was expected. -/
  | wrongType (found : Value) (expected : String)
  /-- A number outside the expected range. -/
  | wrongValue (found : Value) (expected : String)
  /-- A sequence of the wrong length. -/
  | wrongLength (found : Nat) (expected : String)
  /-- A field without an entry. -/
  | missingField (name : String)
  /-- A field with two entries, under one spelling or two. -/
  | duplicateField (name : String)
  /-- A tag that names no variant. -/
  | unknownVariant (name : String) (known : List String)
  /-- A text that is no timestamp. -/
  | badTimestamp
  /-- A cause of another kind, in its own words. -/
  | other (text : String)
deriving DecidableEq, Repr

namespace Fault

def describe : Value → String
  | .null => "null"
  | .bool true => "boolean `true`"
  | .bool false => "boolean `false`"
  | .int n => "integer `" ++ toString n ++ "`"
  | .float x => "floating point `" ++ NumberLayout.document.render x ++ "`"
  | .str s => "string " ++ Text.quote s
  | .arr _ => "sequence"
  | .obj _ => "map"

def message : Fault → String
  | .wrongType v expected => "invalid type: " ++ describe v ++ ", expected " ++ expected
  | .wrongValue v expected => "invalid value: " ++ describe v ++ ", expected " ++ expected
  | .wrongLength n expected => "invalid length " ++ toString n ++ ", expected " ++ expected
  | .missingField name => "missing field `" ++ name ++ "`"
  | .duplicateField name => "duplicate field `" ++ name ++ "`"
  | .unknownVariant name known =>
      "unknown variant `" ++ name ++ "`, expected one of "
        ++ String.intercalate ", " (known.map fun k => "`" ++ k ++ "`")
  | .badTimestamp => "bad timestamp"
  | .other text => text

end Fault
end Casework
