import PositionFeed.Configuration
import PositionFeed.Pipeline.Start

namespace PositionFeed

/-!
# Failures of commands

A command fails for one reason, which it names from the outermost circumstance
to the cause.
-/

/-- Why a command fails. -/
inductive CommandFailure where
  /-- The configuration file does not exist. -/
  | missingFile (path : String)
  /-- The configuration file is not accepted. -/
  | unusableFile (path : String) (defect : ConfigurationDefect)
  /-- The configuration breaks a rule once its settings are replaced. -/
  | overruled (defect : ConfigurationDefect)
  /-- The configuration was found invalid. -/
  | foundInvalid
  /-- Measures cannot be offered. -/
  | noRecorder
  /-- The pipeline did not start. -/
  | notStarted (fault : StartFault)
  deriving Repr, DecidableEq

/-- The circumstances of a failure, the outermost first. -/
def CommandFailure.chain : CommandFailure → List String
  | .missingFile path => [(CommandFault.fileNotFound path).message]
  | .unusableFile path defect =>
      ["Failed to load config from " ++ path, defect.fault.message]
  | .overruled defect => [(CommandFault.invalid defect.fault.message).message]
  | .foundInvalid => ["Configuration validation failed"]
  | .noRecorder => ["Failed to install Prometheus recorder"]
  | .notStarted fault => "Failed to start pipeline" :: fault.chain

namespace CommandFailure

def numbered : Nat → List String → List String
  | _, [] => []
  | number, cause :: rest =>
      ("    " ++ toString number ++ ": " ++ cause) :: numbered (number + 1) rest

/-- The lines about causes. -/
def causeLines : List String → List String
  | [] => []
  | [cause] => ["", "Caused by:", "    " ++ cause]
  | causes => ["", "Caused by:"] ++ numbered 0 causes

/-- The lines in which a failure is reported. -/
def complaint (failure : CommandFailure) : List String :=
  match failure.chain with
  | [] => []
  | first :: causes => ("Error: " ++ first) :: causeLines causes

end CommandFailure

end PositionFeed
