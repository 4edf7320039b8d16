import Casework.Yaml.Conform

/-!
# Documents

The way from a text to a typed record: tokens, the tree of nodes, a document value under the shape
of the record, the record.
-/

namespace Casework
namespace Yaml

/-- The record that a text stands for; none if it stands for none.  An empty text stands for a
record without entries. -/
def decode? {α : Type} (d : Decoder α) (text : String) : Option α := do
  let tokens ← Token.read? text
  let document ← Document.ofTokens? tokens
  let v ← document.value? d.schema
  (d.decode v).toOption

end Yaml
end Casework
