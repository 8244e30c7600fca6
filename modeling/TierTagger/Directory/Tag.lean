import TierTagger.Tier

/-!
# Tags

The tags of a category name the tiers there are. `Tag.forTier?` picks the one to attach.
-/

namespace TierTagger

/-- A tag of the directory and the id of the category it is in. -/
structure Tag where
  id : String
  name : String
  categoryId : String
  deriving DecidableEq, Repr, Inhabited

/-- The first tag that is named exactly like the tier. -/
def Tag.forTier? (tags : List Tag) (tier : Tier) : Option Tag :=
  tags.find? (·.name = tier.name)

end TierTagger
