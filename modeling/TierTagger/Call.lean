import TierTagger.Configuration
import TierTagger.Directory.Error
import TierTagger.Directory.Tag

/-!
# Calls

What the tagging of a machine asks of others: the source of parameters, and a directory of which only
these operations are known. `δ` is what a directory hands out for a connection.
-/

namespace TierTagger

/-- A call to the source of parameters or to the directory. -/
inductive Call (δ : Type) where
  /-- The connection parameters. -/
  | load
  /-- A connection with both logins. -/
  | connect (parameters : Connection)
  /-- The hardware of a machine, if its record has any. -/
  | hardware (directory : δ) (vm : ObjectRef)
  /-- The tags of a category, which is given by its name or id. -/
  | tags (directory : δ) (category : String)
  /-- Attaches a tag to a machine. -/
  | attach (directory : δ) (tagId : String) (vm : ObjectRef)
  /-- Ends a connection. -/
  | logout (directory : δ)
  deriving Repr

/-- What a call answers. -/
@[reducible] def Call.Answer {δ : Type} : Call δ → Type
  | load => Except Configuration.Error Connection
  | connect _ => Except Directory.Error δ
  | hardware _ _ => Except Directory.Error (Option Hardware)
  | tags _ _ => Except Directory.Error (List Tag)
  | attach _ _ _ => Except Directory.Error Unit
  | logout _ => Except Directory.Error Unit

end TierTagger
