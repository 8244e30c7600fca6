import TierTagger.Daemon

/-!
# The program

Serves one connection: what arrives on standard input is answered on standard output, and then the process
stops as if it had been told to. It makes no connections of its own, so each request to vCenter is lost.
-/

namespace TierTagger

/-- What is at a path. -/
def fileAt (path : String) : IO Configuration.File := do
  match ← (IO.FS.readBinFile path).toBaseIO with
  | .ok bytes => return .content bytes.toList
  | .error (.noFileOrDirectory ..) => return .missing
  | .error _ => return .directory

/-- All that arrives on a stream. -/
partial def readAll (stream : IO.FS.Stream) (before : ByteArray) : IO ByteArray := do
  let piece ← stream.read 65536
  if piece.isEmpty then return before
  readAll stream (before ++ piece)

end TierTagger

open TierTagger in
/-- Runs the program. -/
def main (arguments : List String) : IO UInt32 := do
  let mut environment : List (String × String) := []
  for f in CommandLine.Flag.all do
    if let some v ← IO.getEnv f.variableName then environment := (f.variableName, v) :: environment
  match Daemon.start (fun _ => true) arguments (List.lookup · environment) with
  | .error e =>
    IO.eprintln e.exit.line
    return .ofNat e.exit.code
  | .ok options =>
    let input := (← readAll (← IO.getStdin) .empty).toList
    let source : Configuration.Source := .file options.config (← fileAt options.config)
    let job : Sessions.Job VCenter.Link (Option Trigger.Response) := do
      let response ← Daemon.answer options.bodyLimit input
      let _ ← Daemon.stop
      return response
    let ((response, _), _) :=
      ((Sessions.hold (VCenter.respond ⟨none⟩ source .unreachable) job).run .initial).run []
    if let some r := response then
      let method := input.takeWhile Trigger.Head.isToken
      (← IO.getStdout).write ⟨(r.bytes method).toArray⟩
    return .ofNat Daemon.stopped.code
