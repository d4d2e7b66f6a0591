import DatabaseClient.Errno

set_option autoImplicit false

namespace DatabaseClient

inductive IoError where
  | os (errno : Int)
  | other (text : String)
deriving DecidableEq

def IoError.message : IoError → String
  | .os errno => s!"{Errno.text errno} (os error {errno})"
  | .other text => text

inductive Error where
  | io (cause : IoError)
  -- No readiness was seen before the deadline.
  | timeout
  -- The kernel reported a status that cannot be interpreted.
  | internal (text : String)
  -- The operation itself refused to go on.
  | protocol (text : String)
  | config (text : String)
deriving DecidableEq

namespace Error

def message : Error → String
  | .io cause => s!"I/O error: {cause.message}"
  | .timeout => "timeout expired"
  | .internal text => s!"Internal error: {text}"
  | .protocol text => s!"Protocol error: {text}"
  | .config text => s!"Configuration error: {text}"

def isTimeout : Error → Bool
  | .timeout => true
  | _ => false

end Error

end DatabaseClient
