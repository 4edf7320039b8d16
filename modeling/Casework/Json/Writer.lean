import Casework.Decimal.Layout
import Casework.Json.Value
import Casework.Text.Digits

/-!
# Writing documents

* `Value.compact` : a value on one line, without any gap;
* `Value.pretty` : a value over several lines, each level indented by two spaces.

Maps are written in the order of their entries.
-/

namespace Casework
namespace Value
namespace Writer

def escapeChar (c : Char) : List Char :=
  if c = '"' then ['\\', '"']
  else if c = '\\' then ['\\', '\\']
  else if c = '\x08' then ['\\', 'b']
  else if c = '\x0c' then ['\\', 'f']
  else if c = '\n' then ['\\', 'n']
  else if c = '\r' then ['\\', 'r']
  else if c = '\t' then ['\\', 't']
  else if c.toNat < 0x20 then '\\' :: 'u' :: '0' :: '0' :: Text.hexPair c.toNat
  else [c]

def quoted (s : String) : String :=
  String.ofList ('"' :: (s.toList.flatMap escapeChar ++ ['"']))

end Writer

mutual

def compact : Value → String
  | .null => "null"
  | .bool true => "true"
  | .bool false => "false"
  | .int n => toString n
  | .float x => if x.isFinite then NumberLayout.document.render x else "null"
  | .str s => Writer.quoted s
  | .arr items => "[" ++ String.intercalate "," (compactItems items) ++ "]"
  | .obj fields => "\x7b" ++ String.intercalate "," (compactFields fields) ++ "\x7d"

def compactItems : List Value → List String
  | [] => []
  | v :: rest => compact v :: compactItems rest

def compactFields : List (String × Value) → List String
  | [] => []
  | (k, v) :: rest => (Writer.quoted k ++ ":" ++ compact v) :: compactFields rest

end

namespace Writer

/-- A block of parts between brackets, each part on lines of its own. -/
def block (opening closing margin : String) (parts : List String) : String :=
  if parts.isEmpty then opening ++ closing
  else
    opening ++ "\n" ++ String.intercalate ",\n" (parts.map fun p => margin ++ "  " ++ p) ++ "\n"
      ++ margin ++ closing

end Writer

mutual

/-- A value over several lines, the first of which is already indented by `margin`. -/
def prettyAt (margin : String) : Value → String
  | .arr items => Writer.block "[" "]" margin (prettyItems (margin ++ "  ") items)
  | .obj fields => Writer.block "\x7b" "\x7d" margin (prettyFields (margin ++ "  ") fields)
  | .null => compact .null
  | .bool b => compact (.bool b)
  | .int n => compact (.int n)
  | .float x => compact (.float x)
  | .str s => compact (.str s)

def prettyItems (margin : String) : List Value → List String
  | [] => []
  | v :: rest => prettyAt margin v :: prettyItems margin rest

def prettyFields (margin : String) : List (String × Value) → List String
  | [] => []
  | (k, v) :: rest => (Writer.quoted k ++ ": " ++ prettyAt margin v) :: prettyFields margin rest

end

def pretty (v : Value) : String :=
  prettyAt "" v

end Value
end Casework
