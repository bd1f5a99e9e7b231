/-!
# Settings

What one run of the server is told: where to listen, how many connections to hold, how to treat
them, and what to log.  Every field has a default, so a run needs no arguments.
-/

namespace ConstantReply

/-- How log events are written. -/
inductive LogFormat where
  | text
  | json
  deriving DecidableEq, Repr

namespace LogFormat

def all : List LogFormat := [.text, .json]

def name : LogFormat -> String
  | .text => "text"
  | .json => "json"

end LogFormat

/-- Where a listener is bound, and how many connections it holds. -/
structure Endpoint where
  host : String := "127.0.0.1"
  port : UInt16 := 3000
  backlog : UInt32 := 100
  maxConnections : UInt64 := 10000
  deriving DecidableEq, Repr

namespace Endpoint

/-- The host and port as one text.  A host with a colon is put in brackets unless it brings its
own, so that the last colon always precedes the port. -/
def address (e : Endpoint) : String :=
  let port := toString e.port.toNat
  if ':' ∈ e.host.toList ∧ e.host.toList.head? ≠ some '[' then
    "[" ++ e.host ++ "]:" ++ port
  else
    e.host ++ ":" ++ port

end Endpoint

/-- The settings of one run. -/
structure Settings where
  endpoint : Endpoint := {}
  keepAlive : Bool := true
  headTimeoutMs : UInt64 := 30000
  workers : Option UInt64 := none
  drainSeconds : UInt64 := 10
  logLevel : String := "info"
  logFormat : LogFormat := .text
  deriving DecidableEq, Repr

/-- A span of time in whole seconds and the nanoseconds left over. -/
structure Span where
  seconds : Nat
  nanoseconds : Nat
  deriving DecidableEq, Repr

namespace Span

def ofMilliseconds (ms : Nat) : Span := ⟨ms / 1000, ms % 1000 * 1000000⟩

def ofSeconds (s : Nat) : Span := ⟨s, 0⟩

end Span

namespace Settings

def headTimeout (s : Settings) : Span := Span.ofMilliseconds s.headTimeoutMs.toNat

def drainTimeout (s : Settings) : Span := Span.ofSeconds s.drainSeconds.toNat

def isDefault (s : Settings) : Bool := s == {}

end Settings
end ConstantReply
