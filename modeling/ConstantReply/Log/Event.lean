/-!
# Log events

An event has a level, the part of the program it comes from, a message, and named values.  Events
that concern a request are told inside a span that names the request.
-/

namespace ConstantReply
namespace Log

/-- How important an event is, the least important first. -/
inductive Level where
  | trace
  | debug
  | info
  | warn
  | error
  deriving DecidableEq, Repr

namespace Level

def rank : Level -> Nat
  | .error => 1
  | .warn => 2
  | .info => 3
  | .debug => 4
  | .trace => 5

def name : Level -> String
  | .trace => "TRACE"
  | .debug => "DEBUG"
  | .info => "INFO"
  | .warn => "WARN"
  | .error => "ERROR"

end Level

/-- A value of an event.  A quoted text is put in quotation marks where values are otherwise shown
bare. -/
inductive Value where
  | shown (s : String)
  | quoted (s : String)
  | number (n : Nat)
  | flag (b : Bool)
  deriving DecidableEq, Repr

abbrev Fields := List (String × Value)

/-- The request that an event concerns. -/
structure RequestSpan where
  method : String
  target : String
  version : String
  deriving DecidableEq, Repr

structure Event where
  level : Level
  origin : String
  message : String
  fields : Fields := []
  span : Option RequestSpan := none
  deriving DecidableEq, Repr

end Log
end ConstantReply
