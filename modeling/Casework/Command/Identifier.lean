import Casework.Text.Digits

/-!
# Generated ids

* `Identifier.ofBytes` : the text of an id from sixteen random bytes.

Four bits of the seventh byte tell that the id is random, and two bits of the ninth one how the
others are laid out; they are the same in every id.
-/

namespace Casework
namespace Identifier

/-- The bytes with the bits in place that are the same in every id. -/
def marked (bytes : List UInt8) : List UInt8 :=
  (bytes.modify 6 fun b => (b &&& 0x0F) ||| 0x40).modify 8 fun b => (b &&& 0x3F) ||| 0x80

def hexBytes (bytes : List UInt8) : String :=
  String.ofList (bytes.flatMap fun b => Text.hexPair b.toNat)

/-- The text of an id: groups of four, two, two, two and six bytes. -/
def ofBytes (bytes : List UInt8) : String :=
  let bs := marked bytes
  String.intercalate "-"
    [hexBytes (bs.take 4), hexBytes ((bs.drop 4).take 2), hexBytes ((bs.drop 6).take 2),
      hexBytes ((bs.drop 8).take 2), hexBytes (bs.drop 10)]

end Identifier
end Casework
