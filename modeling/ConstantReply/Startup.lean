import ConstantReply.CommandLine.Parser
import ConstantReply.Failure
import ConstantReply.Listener.Bind
import ConstantReply.Log.Catalogue

/-!
# Starting

The steps from a command line to a server that listens.  They are taken in a fixed order, and the
first that fails is the last: what it failed for is what the program reports.  The same steps run on
a system and on a record of what a system would answer.
-/

namespace ConstantReply

/-- How a start ends. -/
inductive StartOutcome where
  | misused (failure : CommandLine.Failure)
  | failed (error : StartError)
  | halted (halt : Halt)
  | listening (settings : Settings) (listener : Listener) (address : SocketAddress)
  deriving DecidableEq, Repr

/-- What a start asks of the system. -/
structure Host (m : Type -> Type) where
  setUpLog : Settings -> m (Except LogConflict Unit)
  buildRuntime : Option Nat -> m (Except SystemError Unit)
  installSignals : m (Except SystemError Unit)
  bind : Endpoint -> m BindOutcome
  localAddress : Listener -> m (Except SystemError SocketAddress)
  announce : SocketAddress -> m Unit
  tell : Log.Event -> m Unit

namespace Start

variable {m : Type -> Type} [Monad m]

def announceAddress (host : Host m) (settings : Settings) (listener : Listener) :
    m StartOutcome := do
  host.tell (Log.listenerBound listener.address settings.endpoint)
  match <- host.localAddress listener with
  | .error e => return .failed (.serve (.localAddress e))
  | .ok address =>
      host.announce address
      return .listening settings listener address

def bindListener (host : Host m) (settings : Settings) : m StartOutcome := do
  match <- host.bind settings.endpoint with
  | .failed e => return .failed (.listen e)
  | .tooManySlots => return .halted .tooManySlots
  | .bound listener => announceAddress host settings listener

def takeSignals (host : Host m) (settings : Settings) : m StartOutcome := do
  match <- host.installSignals with
  | .error e => return .failed (.signals e)
  | .ok () => bindListener host settings

def workers (settings : Settings) : Except Halt (Option Nat) :=
  match settings.workers with
  | none => .ok none
  | some n => if n = 0 then .error .noWorkers else .ok (some n.toNat)

def makeThreads (host : Host m) (settings : Settings) : m StartOutcome := do
  match workers settings with
  | .error halt => return .halted halt
  | .ok n =>
      match <- host.buildRuntime n with
      | .error e => return .failed (.runtime e)
      | .ok () => takeSignals host settings

def ofSettings (host : Host m) (settings : Settings) : m StartOutcome := do
  match settings.faults with
  | fault :: more => return .failed (.settings (fault :: more))
  | [] =>
      match <- host.setUpLog settings with
      | .error conflict => return .failed (@StartError.logging conflict)
      | .ok () =>
          host.tell (Log.starting settings)
          makeThreads host settings

def withoutSettings (failure : CommandLine.Failure) : StartOutcome :=
  match failure.halt? with
  | some halt => .halted halt
  | none => .misused failure

def ofCommandLine (host : Host m) (arguments : List Utf8.RawText)
    (environment : CommandLine.Environment) : m StartOutcome := do
  match CommandLine.parse arguments environment with
  | .error failure => return withoutSettings failure
  | .ok settings => ofSettings host settings

end Start

/-!
## What is reported
-/

def announcement (address : SocketAddress) : String :=
  "Listening on http://" ++ address.display ++ "\n"

namespace StartOutcome

def exitCode : StartOutcome -> Nat
  | .misused failure => failure.exitCode
  | .failed _ => 1
  | .halted _ => Halt.exitCode
  | .listening _ _ _ => 0

def help (arguments : List Utf8.RawText) (environment : CommandLine.Environment) :
    StartOutcome -> String
  | .misused failure =>
      if failure.isMisuse then "" else failure.message arguments environment
  | _ => ""

def report (arguments : List Utf8.RawText) (environment : CommandLine.Environment) :
    StartOutcome -> String
  | .misused failure =>
      if failure.isMisuse then failure.message arguments environment else ""
  | .failed error => "ok-server: " ++ error.display ++ "\n"
  | .halted halt => halt.message ++ "\n"
  | .listening _ _ _ => ""

def afterServing (outcome : StartOutcome) : Except ServeError Unit -> StartOutcome
  | .ok () => outcome
  | .error error => .failed (.serve error)

end StartOutcome

/-!
## Starts on record
-/

/-- The steps of a start that ask something of the system. -/
inductive StartStep where
  | logging
  | runtime
  | signals
  | bind
  | localAddress
  | announce
  deriving DecidableEq, Repr

/-- How a system answers the steps. -/
structure StartOutcomes where
  logging : Bool
  logger : Bool
  runtime : Except SystemError Unit
  signals : Except SystemError Unit
  bind : Endpoint -> BindOutcome
  localAddress : SocketAddress -> Except SystemError SocketAddress

def StartOutcomes.setUpLog (outcomes : StartOutcomes) : Except LogConflict Unit :=
  if outcomes.logging = false then .error .dispatcher
  else if outcomes.logger = false then .error .logger
  else .ok ()

/-- What was done in a start: the steps, what was printed, and what was told. -/
structure StartRecord where
  steps : List StartStep := []
  printed : String := ""
  events : List Log.Event := []
  deriving DecidableEq, Repr

namespace StartRecord

def step (s : StartStep) : StateM StartRecord Unit :=
  modify fun r => { r with steps := r.steps ++ [s] }

def host (outcomes : StartOutcomes) : Host (StateM StartRecord) where
  setUpLog _ := do
    step .logging
    return outcomes.setUpLog
  buildRuntime _ := do
    step .runtime
    return outcomes.runtime
  installSignals := do
    step .signals
    return outcomes.signals
  bind endpoint := do
    step .bind
    return outcomes.bind endpoint
  localAddress listener := do
    step .localAddress
    return outcomes.localAddress listener.address
  announce address := do
    step .announce
    modify fun r => { r with printed := r.printed ++ announcement address }
  tell event := modify fun r => { r with events := r.events ++ [event] }

def output (record : StartRecord) (arguments : List Utf8.RawText)
    (environment : CommandLine.Environment) (outcome : StartOutcome) : String :=
  record.printed ++ outcome.help arguments environment

end StartRecord
end ConstantReply
