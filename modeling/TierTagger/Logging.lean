/-!
# Logging

How much is logged. The variable `write_debug` of the environment turns on debug lines when it is exactly
`true`.
-/

namespace TierTagger.Logging

/-- The variable that turns on debug lines. -/
def toggleName : String := "write_debug"

/-- Whether debug lines are logged, given the value of the variable. -/
def isVerbose (toggle : Option String) : Bool := toggle = some "true"

/-- The parts of the program that log debug lines. -/
def parts : List String :=
  ["vmtierd", "vmtier_core", "vmtier_directory", "vmtier_tagger", "vmtier_trigger"]

/-- The filter of the log. -/
def directive (toggle : Option String) : String :=
  ",".intercalate ("info" :: if isVerbose toggle then parts.map (· ++ "=debug") else [])

end TierTagger.Logging
