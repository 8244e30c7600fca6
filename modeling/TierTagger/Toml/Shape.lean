import TierTagger.Binary64.Shortest
import TierTagger.Text.Quoted
import TierTagger.Toml.Document

/-!
# Shapes

What is wanted of a value in a document, and what is said when it is another. A time is a table as far
as this goes, one whose only entry has no name of use.
-/

namespace TierTagger.Toml

/-- Why a text does not hold what is wanted. -/
inductive Error where
  | grammar
  | missing (field : String)
  | unexpected (found : Node) (expected : String)
  deriving Repr

/-- How a diagnosis shows a value. -/
def Node.describe : Node → String
  | scalar (.text s) => "string " ++ Text.Quoted.render s
  | scalar (.integer n) => "integer `" ++ toString n ++ "`"
  | scalar (.float x) => "floating point `" ++ x.text Decimal.positional ++ "`"
  | scalar (.boolean b) => "boolean `" ++ toString b ++ "`"
  | scalar .time | inline _ | table _ _ => "map"
  | array _ | tables _ => "sequence"

/-- The wording of an error. -/
def Error.message : Error → String
  | grammar => "TOML parse error"
  | missing field => "missing field `" ++ field ++ "`"
  | unexpected found expected => "invalid type: " ++ found.describe ++ ", expected " ++ expected

namespace Node

/-- A string. -/
def text : Node → Except Error String
  | scalar (.text s) => .ok s
  | v => .error (.unexpected v "a string")

/-- A boolean. -/
def boolean : Node → Except Error Bool
  | scalar (.boolean b) => .ok b
  | v => .error (.unexpected v "a boolean")

/-- The fields of a record that a value states, each with its value, in order. A table states them by
name, an array by place; of the entries of a table those without a known name are passed over. -/
def fields? (names : List String) : Node → Option (List (String × Node))
  | inline es | table _ es => some (es.filter fun (k, _) => names.contains k)
  | array vs => some (names.zip vs)
  | tables ts => some (names.zip (ts.map (.table .header)))
  | scalar .time => some []
  | scalar _ => none

end Node
end TierTagger.Toml
