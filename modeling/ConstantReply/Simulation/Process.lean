import ConstantReply.Lifecycle.Watch
import ConstantReply.Log.Journal
import ConstantReply.Simulation
import ConstantReply.Startup

/-!
# The whole program on a network

The program is started, clients make one request each, and a signal ends it.
-/

namespace ConstantReply

/-- What is asked of a program that listens. -/
structure Visit where
  requests : List (List UInt8)
  signal : Signal
  deriving DecidableEq, Repr

/-- What a program that listened has shown. -/
structure Served where
  responses : List (List UInt8)
  events : List Log.Event
  deriving DecidableEq, Repr

namespace Simulation

def requestPatience : Nat := 250

def signalGap : Nat := 30

def request (s : Simulation) (bytes : List UInt8) : List UInt8 × Simulation :=
  match s.exchange [bytes] false requestPatience with
  | (.ok (data, _), s) => (data, s)
  | (.error _, s) => ([], s)

def requestAll (s : Simulation) : List (List UInt8) -> List (List UInt8) × Simulation
  | [] => ([], s)
  | bytes :: rest =>
      let (data, s) := s.request bytes
      let (more, s) := s.requestAll rest
      (data :: more, s)

def raise (s : Simulation) (signal : Signal) : Simulation :=
  match Watch.ready.relay? signal with
  | none => s
  | some (relayed, _) =>
      let told := { s with log := s.log ++ Log.signalEvents relayed.signal relayed.receivers }
      if relayed.heard then told.shutdown else told

def visit (s : Simulation) (v : Visit) : Served :=
  let (responses, s) := s.requestAll v.requests
  let s := (s.wait signalGap).raise v.signal
  let s := (s.join (s.clock.drainTimeout + 1)).2
  ⟨responses, s.log⟩

def startOutcomes (network : Network) (sockets : SocketTable) : StartOutcomes where
  logging := true
  logger := true
  runtime := .ok ()
  signals := .ok ()
  bind endpoint := (network.listen endpoint sockets).1
  localAddress address := .ok address

def serve (network : Network) (date : String) (sockets : SocketTable) (settings : Settings)
    (address : SocketAddress) (v : Visit) : Served :=
  match start network date settings sockets with
  | .error _ => ⟨[], []⟩
  | .ok s =>
      let served := s.visit v
      let starting := Log.serverStarting address s.listener.maxConnections settings.keepAlive
      { served with events := starting :: served.events }

end Simulation

/-!
## Processes
-/

/-- What a process has shown. -/
structure ProcessReport where
  exitCode : Nat
  standardOutput : String
  standardError : String
  responses : List (List UInt8)
  deriving DecidableEq, Repr

namespace ProcessReport

def settingsOf (arguments : List Utf8.RawText) (environment : CommandLine.Environment) :
    Settings :=
  match CommandLine.parse arguments environment with
  | .ok settings => settings
  | .error _ => {}

def ofProgram (network : Network) (date time : String) (sockets : SocketTable)
    (arguments : List Utf8.RawText) (environment : CommandLine.Environment) (v : Visit) :
    ProcessReport :=
  let journal := Log.Journal.create environment (settingsOf arguments environment)
  let host := StartRecord.host (Simulation.startOutcomes network sockets)
  let (outcome, record) := (Start.ofCommandLine host arguments environment).run {}
  let served : Served :=
    match outcome with
    | .listening settings _ address =>
        let served := Simulation.serve network date sockets settings address v
        { served with events := served.events ++ [Log.shutdownComplete] }
    | _ => ⟨[], []⟩
  { exitCode := outcome.exitCode
    standardOutput := record.output arguments environment outcome
    standardError :=
      journal.text time (record.events ++ served.events) ++ outcome.report arguments environment
    responses := served.responses }

end ProcessReport
end ConstantReply
