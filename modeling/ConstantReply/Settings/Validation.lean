import ConstantReply.Settings
import ConstantReply.Text.Ascii
import ConstantReply.Text.Blank

/-!
# Validation of settings

Each field is checked on its own and every fault is reported, in the order of the fields.
-/

namespace ConstantReply

/-- A fault in one field of the settings. -/
inductive SettingsFault where
  | emptyHost
  | zeroBacklog
  | zeroMaxConnections
  | maxConnectionsTooLarge (got greatest : Nat)
  | zeroWorkers
  | zeroHeadTimeout
  | unknownLogLevel (level : String)
  deriving DecidableEq, Repr

namespace SettingsFault

def message : SettingsFault -> String
  | .emptyHost => "listener host must not be empty"
  | .zeroBacklog => "listener backlog must be at least 1"
  | .zeroMaxConnections => "max_connections must be at least 1"
  | .maxConnectionsTooLarge got greatest =>
      "max_connections must be at most " ++ toString greatest ++ ", got " ++ toString got
  | .zeroWorkers => "worker thread count must be at least 1"
  | .zeroHeadTimeout => "header read timeout must be greater than 0 ms"
  | .unknownLogLevel level => "unknown log level `" ++ level ++ "`"

end SettingsFault

def maxSlots : Nat := 0x1FFFFFFFFFFFFFFF

def logLevels : List String := ["trace", "debug", "info", "warn", "error", "off"]

namespace Settings

def hostFaults (host : String) : List SettingsFault :=
  if Blank.isBlank host then [.emptyHost] else []

def backlogFaults (backlog : UInt32) : List SettingsFault :=
  if backlog = 0 then [.zeroBacklog] else []

def maxConnectionsFaults (n : UInt64) : List SettingsFault :=
  if n = 0 then [.zeroMaxConnections]
  else if maxSlots < n.toNat then [.maxConnectionsTooLarge n.toNat maxSlots]
  else []

def workersFaults (workers : Option UInt64) : List SettingsFault :=
  if workers = some 0 then [.zeroWorkers] else []

def headTimeoutFaults (ms : UInt64) : List SettingsFault :=
  if ms = 0 then [.zeroHeadTimeout] else []

def logLevelFaults (level : String) : List SettingsFault :=
  if Ascii.lower level ∈ logLevels then [] else [.unknownLogLevel level]

def faults (s : Settings) : List SettingsFault :=
  hostFaults s.endpoint.host ++ backlogFaults s.endpoint.backlog ++
    maxConnectionsFaults s.endpoint.maxConnections ++ workersFaults s.workers ++
    headTimeoutFaults s.headTimeoutMs ++ logLevelFaults s.logLevel

end Settings
end ConstantReply
