import TierTagger.Text.Utf8

/-!
# Replies

What is answered to an invocation: a status and a text. An outcome has status 200 and an error 500.
-/

namespace TierTagger

/-- A status and a body. -/
structure Reply where
  status : Nat
  body : Bytes
  deriving DecidableEq, Repr

namespace Reply

/-- The status of an outcome. -/
def okStatus : Nat := 200

/-- The status of an error. -/
def errorStatus : Nat := 500

/-- The reply with the text of an outcome. -/
def ok (message : String) : Reply := ⟨okStatus, Utf8.encode message⟩

/-- The reply with the text of an error. -/
def internalError (message : String) : Reply := ⟨errorStatus, Utf8.encode message⟩

/-- The body as text. -/
def text (r : Reply) : String := Utf8.lossy r.body

end Reply
end TierTagger
