import ConstantReply.Lifecycle.Signals
import ConstantReply.Live.Sockets
import ConstantReply.Startup
import ConstantReply.Log.Journal
import ConstantReply.Text.Moment
import Std.Async.Signal
import Std.Internal.UV.System
import Std.Time.DateTime.Timestamp

/-!
# The surroundings of the program

The path of the program and the variables around it, the time of the day, its output and its
signals, and what a start asks of all these.
-/

namespace ConstantReply
namespace Live

/-!
## Name, variables and time
-/

def readPath : IO String := do
  match <- attempt Std.Internal.UV.System.exePath with
  | .ok path => return path
  | .error _ => return ""

def variableNames : List String :=
  ["OK_SERVER_HOST", "OK_SERVER_PORT", "OK_SERVER_WORKERS", "RUST_LOG", "NO_COLOR"]

def readEnvironment : IO CommandLine.Environment := do
  let values <- variableNames.mapM fun name => return (name, <- IO.getEnv name)
  return fun name => ((values.lookup name).join).map Utf8.ofString

def readTime : IO Moment := do
  let time <- Std.Time.Timestamp.now
  return ⟨(time.toNanosecondsSinceUnixEpoch.toInt / 1000).toNat⟩

/-!
## Output
-/

def put (stream : IO.FS.Stream) (text : String) : IO Unit :=
  try
    stream.putStr text
    stream.flush
  catch _ => return ()

def writeEvent (journal : IO.Ref (Option Log.Journal)) (event : Log.Event) : IO Unit := do
  let time <- readTime
  match (<- journal.get).bind fun j => j.line? time.logTime event with
  | none => return ()
  | some line => put (<- IO.getStderr) line

/-!
## Signals
-/

def toSignal : Signal -> Std.Async.Signal
  | .interrupt => .sigint
  | .terminate => .sigterm

def watchFor (deliver : Signal -> BaseIO Unit) (signal : Signal) : IO Unit := do
  let waiter <- Std.Async.Signal.Waiter.mk (toSignal signal) true
  let received <- waiter.wait
  discard <| received.mapIO fun _ => deliver signal

/-!
## Starting
-/

/-- What a start asks, asked of the system.  The threads of the program are those that it has. -/
def host (environment : CommandLine.Environment) (journal : IO.Ref (Option Log.Journal))
    (sockets : IO.Ref Sockets) (deliver : Signal -> BaseIO Unit) : Host IO where
  setUpLog settings := do
    journal.set (some (Log.Journal.create environment settings))
    return .ok ()
  buildRuntime _ := return .ok ()
  installSignals := attempt do
    watchFor deliver .interrupt
    watchFor deliver .terminate
  bind endpoint := Listener.bind (Sockets.calls sockets) endpoint
  localAddress listener := (Sockets.calls sockets).localAddress listener.socket
  announce address := do put (<- IO.getStdout) (announcement address)
  tell := writeEvent journal

end Live
end ConstantReply
