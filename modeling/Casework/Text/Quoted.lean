import Casework.Text.Unseen

/-!
# Quoted text

The form in which a text appears inside a message: between double quotes, with the quote, the
backslash and four common controls behind a backslash, and every character that has no shape of
its own by its number, as in `"e\u{301}"`.  An apostrophe stands for itself.

* `encodeChar`, `encode` : the inside of the quotes;
* `quote`, `quoteOption` : the whole form, and that of a text that may be missing.
-/

namespace Casework
namespace Text
namespace Quoted

/-- Digits of `n` in lower-case hexadecimal, no leading zeros. -/
def hexDigits (n : Nat) : List Char :=
  Nat.toDigits 16 n

def encodeChar (c : Char) : List Char :=
  if c = '"' then ['\\', '"']
  else if c = '\\' then ['\\', '\\']
  else if c = '\n' then ['\\', 'n']
  else if c = '\r' then ['\\', 'r']
  else if c = '\t' then ['\\', 't']
  else if c.toNat = 0 then ['\\', '0']
  else if isUnseen c then '\\' :: 'u' :: '\x7b' :: (hexDigits c.toNat ++ ['\x7d'])
  else [c]

def encode (cs : List Char) : List Char :=
  cs.flatMap encodeChar

@[simp]
theorem encode_nil : encode [] = [] := rfl

end Quoted

def quote (s : String) : String :=
  String.ofList ('"' :: (Quoted.encode s.toList ++ ['"']))

/-- A text that may be missing: `Some("text")` or `None`. -/
def quoteOption : Option String → String
  | some s => "Some(" ++ quote s ++ ")"
  | none => "None"

end Text
end Casework
