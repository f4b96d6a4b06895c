namespace PositionFeed

/-!
# Faults

A `Fault` is what can go wrong while the feed runs, by the place where it
happens.  The operating system's refusals are a type of their own, because they
come from outside and every caller words them in its own context.
-/

/-- A refusal by the operating system. -/
inductive SystemFault where
  /-- There is no such file. -/
  | missing
  /-- The file is a directory. -/
  | directory
  /-- The file is not text. -/
  | notText
  /-- Somebody else listens on the address. -/
  | addressInUse
  /-- The address belongs to another machine. -/
  | addressUnavailable
  /-- No way leads to the address. -/
  | unreachable
  /-- Anything else, in its own words. -/
  | other (text : String)
  deriving Repr, DecidableEq

/-- The wording of a refusal by the operating system. -/
def SystemFault.message : SystemFault → String
  | .missing => "No such file or directory (os error 2)"
  | .directory => "Is a directory (os error 21)"
  | .notText => "stream did not contain valid UTF-8"
  | .addressInUse => "Address already in use (os error 98)"
  | .addressUnavailable => "Cannot assign requested address (os error 99)"
  | .unreachable => "Network is unreachable (os error 101)"
  | .other text => text

/-- What went wrong in the feed. -/
inductive Fault where
  /-- A configuration that cannot be read. -/
  | configuration (message : String)
  /-- A configuration that breaks a rule. -/
  | rule (field message : String)
  /-- A transport that cannot be set up. -/
  | transportSetup (channel message : String)
  /-- A transport that did not take a sample. -/
  | transportSend (channel message : String)
  /-- A record that cannot be written or read. -/
  | codec (message : String)
  /-- A refusal by the operating system. -/
  | system (message : String)
  /-- Anything else. -/
  | other (message : String)
  deriving Repr, DecidableEq

/-- The wording of a fault. -/
def Fault.message : Fault → String
  | .configuration message => "config parse error: " ++ message
  | .rule field message =>
      "config validation error at '" ++ field ++ "': " ++ message
  | .transportSetup channel message =>
      "transport '" ++ channel ++ "' setup error: " ++ message
  | .transportSend channel message =>
      "transport '" ++ channel ++ "' send error: " ++ message
  | .codec message => "codec error: " ++ message
  | .system message => "io error: " ++ message
  | .other message => message

/-- What went wrong while a channel was set up. -/
inductive SetupFault where
  /-- Its transport could not be built. -/
  | creation (channel message : String)
  /-- The address to listen on was refused. -/
  | bind (address : String) (reason : SystemFault)
  /-- Another refusal by the operating system. -/
  | system (reason : SystemFault)
  deriving Repr, DecidableEq

/-- The wording of a fault in the setup of a channel. -/
def SetupFault.message : SetupFault → String
  | .creation channel message =>
      "failed to create sink '" ++ channel ++ "': " ++ message
  | .bind address reason =>
      "failed to bind " ++ address ++ ": " ++ reason.message
  | .system reason => "io error: " ++ reason.message

/-- Why a command was refused or broken off. -/
inductive CommandFault where
  /-- The configuration file does not exist. -/
  | fileNotFound (path : String)
  /-- The configuration breaks a rule. -/
  | invalid (message : String)
  /-- The pipeline broke down. -/
  | execution (message : String)
  deriving Repr, DecidableEq

/-- The wording of a fault of a command. -/
def CommandFault.message : CommandFault → String
  | .fileNotFound path => "Configuration file not found: " ++ path
  | .invalid message => "Configuration validation failed: " ++ message
  | .execution message => "Pipeline execution failed: " ++ message

end PositionFeed
