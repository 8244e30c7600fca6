import TierTagger.Proofs.Text.Lossy
import TierTagger.Tagging.Run

/-!
# Replies are legible

`legible`: the text of a reply is what was written to it, whatever bytes it stands among, so every answer to an
alarm is read as the wording of how the alarm ended.
-/

namespace TierTagger

variable {δ : Type}

/-- The text of a reply that tells how something ended is what was told. -/
@[simp] theorem Reply.text_ok (message : String) : (Reply.ok message).text = message :=
  Utf8.lossy_encode message

@[simp] theorem Reply.text_internalError (message : String) : (Reply.internalError message).text = message :=
  Utf8.lossy_encode message

namespace Tagging

/-- What is told of how an alarm ended. -/
def wording : Except Error Outcome → String
  | .ok o => o.message
  | .error e => e.message

@[simp] theorem text_reply (r : Except Error Outcome) : (reply r).text = wording r := by
  cases r with
  | ok o => exact Reply.text_ok o.message
  | error e => exact Reply.text_internalError e.message

/-- The answer to an alarm is read as the wording of how it ended, whatever is asked and answered before. -/
theorem text_handle (payload : Bytes) :
    Reply.text <$> (handle payload : Sessions.Job δ Reply) = wording <$> run payload := by
  simp only [handle, map_bind, map_pure, text_reply]
  rw [map_eq_pure_bind]

/-- Text in a reply is read as it is, be it among other bytes, which are read as if it was not there. All of an
answer to an alarm is such text. -/
theorem legible (m : String) (nonempty : m ≠ "") (status : Nat) (a b : Bytes) :
    (Reply.mk status (a ++ (Utf8.encode m ++ b))).text = Utf8.lossy a ++ m ++ Utf8.lossy b ∧
    (Reply.ok m).text = m ∧ (Reply.internalError m).text = m ∧
    ∀ δ payload, Reply.text <$> (handle payload : Sessions.Job δ Reply) = wording <$> run payload :=
  ⟨Utf8.lossy_around nonempty a b, Reply.text_ok m, Reply.text_internalError m, fun _ => text_handle⟩

/-- A character that was cut off does not take the text behind it, nor does the text take a byte that would have
gone on it. -/
theorem legible_cut : "é" ≠ "" ∧
    (Reply.mk 200 ([0xe2, 0x82] ++ (Utf8.encode "é" ++ [0xac]))).text = "\ufffdé\ufffd" := by
  have cut : Utf8.lossy [0xe2, 0x82] = "\ufffd" := by
    simp [Utf8.lossy, Utf8.pieces_cons, Utf8.piece, Utf8.lead?, Utf8.follow]
  have left : Utf8.lossy [0xac] = "\ufffd" := by
    simp [Utf8.lossy, Utf8.pieces_cons, Utf8.piece, Utf8.lead?]
  refine ⟨by decide, ?_⟩
  rw [(legible "é" (by decide) 200 [0xe2, 0x82] [0xac]).1, cut, left]
  decide

end Tagging

end TierTagger
