import TierTagger.Trigger.Serve
import TierTagger.Proofs.Trigger.Chunks

/-!
# Answers to requests

What becomes of a request is decided by the bytes that arrive of its body and by whether it ends properly.
How it is delimited, into which pieces it is cut, and what the rest of the request says make no difference.

* `Carries`: the bytes of a body in what arrives behind a head, said without the reader.
* `collect_eq`: a limit counts bytes and not pieces.
* `requests_handled`: what is done with each request.
-/

namespace TierTagger.Trigger

variable {limit room n : Nat} {whole : Bool} {f : Framing} {s body rest input : Bytes} {head : Head}

/-! ## Bodies -/

/-- Behind a head, these bytes arrive of a body, which ends properly or not. -/
inductive Carries : Framing → (body : Bytes) → (whole : Bool) → Bytes → Prop
  | length {body rest : Bytes} : Carries (.length body.length) body true (body ++ rest)
  | cutShort {n : Nat} {body : Bytes} (short : body.length < n) : Carries (.length n) body false body
  | chunked {chunks : List Bytes} {s rest : Bytes} (body : Framing.Chunked chunks s) :
    Carries .chunked chunks.flatten true (s ++ rest)
  | broken {chunks : List Bytes} {s : Bytes} (body : Framing.Broken chunks s) :
    Carries .chunked chunks.flatten false s

/-- The reader finds what arrives. -/
theorem Carries.read (carries : Carries f body whole s) :
    (f.read s).bytes = body ∧ (f.read s).complete = whole := by
  cases carries with
  | length => simp [Framing.read, Arrival.bytes]
  | cutShort short => simp [Framing.read, Arrival.bytes, List.take_of_length_le, short.le, short]
  | chunked body => simp [Framing.read, Arrival.bytes, Framing.readChunks_chunked body]
  | broken body => simp [Framing.read, Arrival.bytes, Framing.readChunks_broken body]

/-- The verdict on a body, by its bytes. -/
def verdictOn (limit : Nat) (body : Bytes) (whole : Bool) : Verdict :=
  if limit < body.length then .tooLarge limit else if whole then .taken body else .brokenOff

/-- A limit counts bytes and not pieces. -/
theorem collect_eq (frames : List Bytes) (taken : Bytes) :
    collect limit whole room taken frames =
      if room < frames.flatten.length then .tooLarge limit
      else if whole then .taken (taken ++ frames.flatten) else .brokenOff := by
  induction frames generalizing room taken with
  | nil => simp [collect]
  | cons frame frames ih =>
    rw [collect, List.flatten_cons, List.length_append]
    by_cases above : room < frame.length
    · rw [if_pos above, if_pos (by omega)]
    · have exceeds : room - frame.length < frames.flatten.length ↔
          room < frame.length + frames.flatten.length := by omega
      rw [if_neg above, ih, List.append_assoc]
      simp only [exceeds]

theorem verdict_eq (a : Arrival) : a.verdict limit = verdictOn limit a.bytes a.complete := by
  rw [Arrival.verdict, collect_eq, List.nil_append]
  rfl

/-! ## Answers -/

/-- A request of whose body these bytes arrive. -/
inductive Arrives (body : Bytes) (whole : Bool) : Bytes → Prop
  | of {input rest : Bytes} {head : Head} {f : Framing} (read : Head.read input = .ok (head, rest))
    (framed : head.framing = some f) (carries : Carries f body whole rest) : Arrives body whole input

/-- The response to a request, by the bytes of its body. -/
def responseTo (limit : Nat) (body : Bytes) (whole : Bool) : Handling (Option Response) := do
  return some (.ofReply (← invoke (verdictOn limit body whole)))

theorem respond_eq (a : Arrival) : (do return some (← respond limit a)) = responseTo limit a.bytes a.complete := by
  rw [respond, verdict_eq, responseTo]
  simp only [bind_assoc, pure_bind]

theorem serve_eq (arrives : Arrives body whole input) : serve limit input = responseTo limit body whole := by
  obtain ⟨read, framed, carries⟩ := arrives
  obtain ⟨bytes, complete⟩ := carries.read
  simp only [serve, read, framed]
  rw [respond_eq, bytes, complete]

/-- What is done with a request of whose body these bytes arrive. -/
structure Handled (limit : Nat) (body : Bytes) (whole : Bool) (input : Bytes) : Prop where
  /-- The handler is asked once, about the bytes of the body, and its reply is the response. -/
  taken : whole → body.length ≤ limit → serve limit input = .ask body fun reply =>
    .done (some ⟨if 100 ≤ reply.status ∧ reply.status ≤ 999 then reply.status else 500,
      some "text/plain; charset=utf-8", reply.body⟩)
  /-- The handler is not asked about more bytes than there may be. -/
  tooLarge : limit < body.length → serve limit input = .done (some ⟨500, some "text/plain; charset=utf-8",
    Utf8.encode ("request body exceeds " ++ toString limit ++ " bytes")⟩)
  /-- The handler is not asked about a body that breaks off. -/
  brokenOff : ¬whole → body.length ≤ limit → serve limit input = .done (some ⟨500,
    some "text/plain; charset=utf-8",
    Utf8.encode "reading request body: error reading a body from connection"⟩)
  /-- The pieces in which the body arrives make no difference. -/
  pieces : ∀ frames : List Bytes, frames.flatten = body →
    serve limit input = do return some (← respond limit ⟨frames, whole⟩)
  /-- Nothing but the body makes a difference. -/
  alike : ∀ other, Arrives body whole other → serve limit other = serve limit input
  /-- The body may be sent with its length. -/
  sized : whole → ∀ other head rest, Head.read other = .ok (head, body ++ rest) →
    head.framing = some (.length body.length) → serve limit other = serve limit input
  /-- The body may be sent in any chunks. -/
  inChunks : whole → ∀ other head rest chunks, Head.read other = .ok (head, Framing.writeChunks chunks ++ rest) →
    head.framing = some .chunked → chunks.flatten = body → (∀ c ∈ chunks, c ≠ [] ∧ c.length < 2 ^ 64) →
      serve limit other = serve limit input

theorem Arrives.handled (limit : Nat) (arrives : Arrives body whole input) : Handled limit body whole input := by
  have alike (other : Bytes) (arrives' : Arrives body whole other) : serve limit other = serve limit input := by
    rw [serve_eq arrives, serve_eq arrives']
  constructor
  case taken =>
    intro ends fits
    rw [serve_eq arrives, responseTo, verdictOn, if_neg (by omega), if_pos ends]
    simp only [invoke, Dialogue.question, Response.ofReply, plainText, Nat.lt_succ_iff]
    rfl
  case tooLarge =>
    intro above
    rw [serve_eq arrives, responseTo, verdictOn, if_pos above]
    rfl
  case brokenOff =>
    intro breaks fits
    rw [serve_eq arrives, responseTo, verdictOn, if_neg (by omega), if_neg breaks]
    rfl
  case pieces =>
    rintro frames rfl
    rw [serve_eq arrives, respond_eq]
    rfl
  case alike => exact alike
  case sized =>
    rintro rfl other head rest read framed
    exact alike other (.of read framed .length)
  case inChunks =>
    rintro rfl other head rest chunks read framed rfl full
    exact alike other (.of read framed (.chunked (Framing.chunked_writeChunks full)))

end TierTagger.Trigger
