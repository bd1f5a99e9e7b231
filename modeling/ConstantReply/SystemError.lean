import ConstantReply.SystemError.Texts

/-!
# Errors reported by the system

An error is known by its number, or only by its kind, or by a kind and a text of its own.  The kind
decides how a failure is classified; the number and the text are only shown.
-/

namespace ConstantReply

namespace SystemError

/-- What sort of failure an error is. -/
inductive Kind where
  | notFound
  | permissionDenied
  | connectionRefused
  | connectionReset
  | connectionAborted
  | networkUnreachable
  | notConnected
  | addressInUse
  | addressNotAvailable
  | invalidInput
  | timedOut
  | other
  | uncategorized
  deriving DecidableEq, Repr

def Kind.description : Kind -> String
  | .notFound => "entity not found"
  | .permissionDenied => "permission denied"
  | .connectionRefused => "connection refused"
  | .connectionReset => "connection reset"
  | .connectionAborted => "connection aborted"
  | .networkUnreachable => "network unreachable"
  | .notConnected => "not connected"
  | .addressInUse => "address in use"
  | .addressNotAvailable => "address not available"
  | .invalidInput => "invalid input parameter"
  | .timedOut => "timed out"
  | .other => "other error"
  | .uncategorized => "uncategorized error"

/-- The kind of an error number.  Two numbers mean that permission is missing. -/
def kindOf (code : Int) : Kind :=
  if code = 1 ∨ code = 13 then .permissionDenied
  else if code = 2 then .notFound
  else if code = 22 then .invalidInput
  else if code = 98 then .addressInUse
  else if code = 99 then .addressNotAvailable
  else if code = 101 then .networkUnreachable
  else if code = 103 then .connectionAborted
  else if code = 104 then .connectionReset
  else if code = 107 then .notConnected
  else if code = 110 then .timedOut
  else if code = 111 then .connectionRefused
  else .uncategorized

end SystemError

/-- An error reported by the system. -/
inductive SystemError where
  | code (number : Int)
  | plain (kind : SystemError.Kind)
  | described (kind : SystemError.Kind) (text : String)
  deriving DecidableEq, Repr

namespace SystemError

def kind : SystemError -> Kind
  | .code number => kindOf number
  | .plain kind => kind
  | .described kind _ => kind

def display : SystemError -> String
  | .code number => textOf number ++ " (os error " ++ toString number ++ ")"
  | .plain kind => kind.description
  | .described _ text => text

/-!
## Errors that the server meets
-/

def invalidArgument : SystemError := .code 22

def addressInUse : SystemError := .code 98

def cannotAssignAddress : SystemError := .code 99

def networkUnreachable : SystemError := .code 101

def tooManyOpenFiles : SystemError := .code 24

def concernsOneClient (e : SystemError) : Bool :=
  e.kind == .connectionRefused || e.kind == .connectionAborted || e.kind == .connectionReset

end SystemError
end ConstantReply
