import ConstantReply.Settings

/-!
# The options of the command line

Nine options take a value, one turns persistent connections off, and one asks for help.  Three of
them can also be given by an environment variable.
-/

namespace ConstantReply
namespace CommandLine

/-- An option that takes a value. -/
inductive Parameter where
  | host
  | port
  | backlog
  | maxConnections
  | workers
  | headTimeout
  | drainTimeout
  | logLevel
  | logFormat
  deriving DecidableEq, Repr

namespace Parameter

def Value : Parameter -> Type
  | .host => String
  | .port => UInt16
  | .backlog => UInt32
  | .maxConnections => UInt64
  | .workers => UInt64
  | .headTimeout => UInt64
  | .drainTimeout => UInt64
  | .logLevel => String
  | .logFormat => LogFormat

def longName : Parameter -> String
  | .host => "host"
  | .port => "port"
  | .backlog => "backlog"
  | .maxConnections => "max-connections"
  | .workers => "workers"
  | .headTimeout => "header-timeout-ms"
  | .drainTimeout => "shutdown-timeout-secs"
  | .logLevel => "log-level"
  | .logFormat => "log-format"

def shortName? : Parameter -> Option Char
  | .port => some 'p'
  | .workers => some 'w'
  | _ => none

def placeholder : Parameter -> String
  | .host => "HOST"
  | .port => "PORT"
  | .backlog => "BACKLOG"
  | .maxConnections => "MAX_CONNECTIONS"
  | .workers => "WORKERS"
  | .headTimeout => "HEADER_TIMEOUT_MS"
  | .drainTimeout => "SHUTDOWN_TIMEOUT_SECS"
  | .logLevel => "LOG_LEVEL"
  | .logFormat => "LOG_FORMAT"

def environmentName? : Parameter -> Option String
  | .host => some "OK_SERVER_HOST"
  | .port => some "OK_SERVER_PORT"
  | .workers => some "OK_SERVER_WORKERS"
  | _ => none

def label (p : Parameter) : String := "--" ++ p.longName ++ " <" ++ p.placeholder ++ ">"

end Parameter

/-- An option of the command line. -/
inductive Opt where
  | value (p : Parameter)
  | noKeepAlive
  | help
  deriving DecidableEq, Repr

namespace Opt

def all : List Opt :=
  [.value .host, .value .port, .value .backlog, .value .maxConnections, .value .workers,
    .noKeepAlive, .value .headTimeout, .value .drainTimeout, .value .logLevel, .value .logFormat,
    .help]

def longName : Opt -> String
  | .value p => p.longName
  | .noKeepAlive => "no-keep-alive"
  | .help => "help"

def shortName? : Opt -> Option Char
  | .value p => p.shortName?
  | .noKeepAlive => none
  | .help => some 'h'

def label : Opt -> String
  | .value p => p.label
  | .noKeepAlive => "--no-keep-alive"
  | .help => "--help"

def ofLongName? (name : String) : Option Opt := all.find? fun o => o.longName == name

def ofShortName? (c : Char) : Option Opt := all.find? fun o => o.shortName? == some c

theorem mem_all (o : Opt) : o ∈ all := by
  rcases o with p | _ | _
  · cases p <;> decide
  · decide
  · decide

end Opt

/-- An option with a value of its type. -/
structure Given where
  parameter : Parameter
  value : parameter.Value

namespace Given

def apply (g : Given) (s : Settings) : Settings :=
  match g with
  | ⟨.host, v⟩ => { s with endpoint := { s.endpoint with host := v } }
  | ⟨.port, v⟩ => { s with endpoint := { s.endpoint with port := v } }
  | ⟨.backlog, v⟩ => { s with endpoint := { s.endpoint with backlog := v } }
  | ⟨.maxConnections, v⟩ => { s with endpoint := { s.endpoint with maxConnections := v } }
  | ⟨.workers, v⟩ => { s with workers := some v }
  | ⟨.headTimeout, v⟩ => { s with headTimeoutMs := v }
  | ⟨.drainTimeout, v⟩ => { s with drainSeconds := v }
  | ⟨.logLevel, v⟩ => { s with logLevel := v }
  | ⟨.logFormat, v⟩ => { s with logFormat := v }

end Given

/-- One settled use of an option. -/
inductive Occurrence where
  | value (g : Given)
  | noKeepAlive

namespace Occurrence

def opt : Occurrence -> Opt
  | .value g => .value g.parameter
  | .noKeepAlive => .noKeepAlive

def apply (o : Occurrence) (s : Settings) : Settings :=
  match o with
  | .value g => g.apply s
  | .noKeepAlive => { s with keepAlive := false }

end Occurrence
end CommandLine
end ConstantReply
